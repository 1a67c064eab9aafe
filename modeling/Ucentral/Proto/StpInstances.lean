import Ucentral.Proto.Narrowing
import Ucentral.Proto.CfgSafety

/-! The STP instances of `switch.loop-detection.instances`.

    An instance is read over the one it replaces, and only then looked up in a bitmap of the ids that
    have come before. As no id comes twice, what it is read over are always the defaults. -/

namespace Ucentral.Proto.StpInstances
open CJson Plat Parse

/-! ### The bitmap -/

/-- `BITMAP_DECLARE`: words of 32 bits. -/
abbrev Words := ℕ → BitVec 32

/-- `BITMAP_CLEAR` -/
def bitmapClear : Words := fun _ => 0#32

/-- `BITMAP_SET_BIT` -/
def bitmapSetBit (a : Words) (k : ℕ) : Words :=
  Function.update a (k / 32) (a (k / 32) ||| 1#32 <<< (k % 32))

/-- `BITMAP_TEST_BIT` -/
def bitmapTestBit (a : Words) (k : ℕ) : Bool := a (k / 32) &&& 1#32 <<< (k % 32) != 0#32

theorem bitmapTestBit_eq (a : Words) (k : ℕ) : bitmapTestBit a k = (a (k / 32)).getLsbD (k % 32) := by
  have hlt : k % 32 < 32 := Nat.mod_lt _ (by decide)
  have hbit : (BitVec.twoPow 32 (k % 32)).getLsbD (k % 32) = true := by
    rw [BitVec.getLsbD_twoPow]
    simp [hlt]
  rw [bitmapTestBit, ← BitVec.twoPow_eq, BitVec.and_twoPow]
  cases (a (k / 32)).getLsbD (k % 32) with
  | false => rfl
  | true =>
    refine bne_iff_ne.mpr fun hzero => ?_
    rw [if_pos rfl] at hzero
    rw [hzero, BitVec.getLsbD_zero] at hbit
    cases hbit

/-- The words of a bitmap stand for its test function. -/
theorem bitmapTestBit_set (a : Words) (k : ℕ) :
    bitmapTestBit (bitmapSetBit a k) = Bitmap.setBit (bitmapTestBit a) k := by
  funext i
  have hlt : k % 32 < 32 := Nat.mod_lt _ (by decide)
  rw [Bitmap.setBit, bitmapTestBit_eq, bitmapTestBit_eq, bitmapSetBit]
  by_cases hword : i / 32 = k / 32
  · rw [hword, Function.update_self, ← BitVec.twoPow_eq, BitVec.getLsbD_or, BitVec.getLsbD_twoPow,
      Bool.or_comm]
    have hsame : (i == k) = (decide (k % 32 < 32) && decide (k % 32 = i % 32)) := by
      rw [Bool.eq_iff_iff, beq_iff_eq, Bool.and_eq_true, decide_eq_true_eq, decide_eq_true_eq]
      omega
    rw [hsame]
  · have hne : (i == k) = false := beq_eq_false_iff_ne.mpr fun h => hword (h ▸ rfl)
    rw [Function.update_of_ne hword, hne, Bool.false_or]

theorem bitmapTestBit_clear : bitmapTestBit bitmapClear = Bitmap.clear := by
  funext k
  simp [bitmapTestBit, bitmapClear, Bitmap.clear]

/-- The loop over `instances`, with the words of the bitmap. -/
def instancesLoop (parsed : Words) : List Json → Parser PlatCfg Unit
  | [] => pure ()
  | iter :: iters => do
    let id := (stpId iter).toNat
    need (decide (0 ≤ stpId iter) && decide (stpId iter < maxVlans))
    need (!bitmapTestBit parsed id)
    Parser.fill fun c => { c with
      stpInstances := Function.update c.stpInstances id (stpInstance iter (c.stpInstances id)) }
    instancesLoop (bitmapSetBit parsed id) iters

theorem instancesLoop_eq : ∀ (iters : List Json) (parsed : Words),
    instancesLoop parsed iters = stpInstancesGo (bitmapTestBit parsed) iters
  | [], _ => rfl
  | iter :: iters, parsed => by
      rw [instancesLoop, stpInstancesGo, instancesLoop_eq iters, bitmapTestBit_set]

/-- As `cfg_switch_parse` begins it. -/
theorem instancesLoop_clear (iters : List Json) :
    instancesLoop bitmapClear iters = stpInstancesGo Bitmap.clear iters := by
  rw [instancesLoop_eq, bitmapTestBit_clear]

/-! ### The loop -/

def idOf (iter : Json) : ℕ := (stpId iter).toNat

/-- A number that may be an id. -/
def InRange (iter : Json) : Prop := 0 ≤ stpId iter ∧ stpId iter < maxVlans

/-- The loop goes through if all ids are in range, new, and different. -/
theorem stpInstancesGo_ok_iff : ∀ (iters : List Json) (seen : Bitmap) (c : PlatCfg),
    (stpInstancesGo seen iters c).1 = .ok () ↔
      (∀ iter ∈ iters, InRange iter ∧ seen (idOf iter) = false) ∧ (iters.map idOf).Nodup
  | [], seen, c => iff_of_true rfl ⟨List.forall_mem_nil _, List.nodup_nil⟩
  | iter :: iters, seen, c => by
      rw [stpInstancesGo, need_bind]
      split
      · rename_i hrange
        rw [Bool.and_eq_true, decide_eq_true_eq, decide_eq_true_eq] at hrange
        rw [need_bind]
        split
        · rename_i hnew
          have hnew' : seen (idOf iter) = false := by simpa [idOf] using hnew
          rw [fill_bind, stpInstancesGo_ok_iff iters]
          simp only [List.forall_mem_cons, List.map_cons, List.nodup_cons, Bitmap.setBit,
            Bool.or_eq_false_iff, beq_eq_false_iff_ne, List.mem_map, not_exists, not_and]
          constructor
          · rintro ⟨hall, hnodup⟩
            exact ⟨⟨⟨hrange, hnew'⟩, fun i hi => ⟨(hall i hi).1, (hall i hi).2.2⟩⟩,
              fun i hi => (hall i hi).2.1, hnodup⟩
          · rintro ⟨⟨-, hall⟩, hne, hnodup⟩
            exact ⟨fun i hi => ⟨(hall i hi).1, hne i hi, (hall i hi).2⟩, hnodup⟩
        · rename_i hold
          refine iff_of_false (fun h => by cases h) fun h => hold ?_
          have hnew : seen (idOf iter) = false := (h.1 iter List.mem_cons_self).2
          rw [idOf] at hnew
          rw [hnew]
          rfl
      · rename_i hout
        refine iff_of_false (fun h => by cases h) fun h => hout ?_
        obtain ⟨hge, hlt⟩ := (h.1 iter List.mem_cons_self).1
        rw [decide_eq_true hge, decide_eq_true hlt]
        rfl

/-- The table after the loop: an element that has the id is read over what was there before. -/
theorem stpInstancesGo_table : ∀ (iters : List Json) (seen : Bitmap) (c : PlatCfg),
    (stpInstancesGo seen iters c).1 = .ok () → ∀ i,
    (∀ iter ∈ iters, idOf iter = i →
      (stpInstancesGo seen iters c).2.stpInstances i = stpInstance iter (c.stpInstances i)) ∧
    ((∀ iter ∈ iters, idOf iter ≠ i) →
      (stpInstancesGo seen iters c).2.stpInstances i = c.stpInstances i)
  | [], _, _, _, _ => ⟨nofun, fun _ => rfl⟩
  | iter :: iters, seen, c, h, i => by
      have hnodup := ((stpInstancesGo_ok_iff _ _ _).mp h).2
      rw [List.map_cons, List.nodup_cons, List.mem_map] at hnodup
      rw [stpInstancesGo] at h ⊢
      obtain ⟨-, hrange⟩ := need_bind_ok h
      rw [hrange] at h ⊢
      obtain ⟨-, hnew⟩ := need_bind_ok h
      rw [hnew] at h ⊢
      rw [fill_bind] at h ⊢
      obtain ⟨hhas, hno⟩ := stpInstancesGo_table iters _ _ h i
      by_cases hi : idOf iter = i
      · have hrest : ∀ iter' ∈ iters, idOf iter' ≠ i :=
          fun iter' hmem heq => hnodup.1 ⟨iter', hmem, heq.trans hi.symm⟩
        have hlast := hno hrest
        have hwrite : Function.update c.stpInstances (idOf iter)
            (stpInstance iter (c.stpInstances (idOf iter))) i = stpInstance iter (c.stpInstances i) := by
          rw [hi]
          exact Function.update_self _ _ _
        refine ⟨fun iter' hmem heq => ?_, fun hnone => absurd hi (hnone iter List.mem_cons_self)⟩
        rcases List.mem_cons.mp hmem with rfl | hmem
        · exact hlast.trans hwrite
        · exact absurd heq (hrest iter' hmem)
      · have hkeep : Function.update c.stpInstances (idOf iter)
            (stpInstance iter (c.stpInstances (idOf iter))) i = c.stpInstances i :=
          Function.update_of_ne (fun h => hi h.symm) _ _
        refine ⟨fun iter' hmem heq => ?_, fun hnone => ?_⟩
        · rcases List.mem_cons.mp hmem with rfl | hmem
          · contradiction
          · exact (hhas iter' hmem heq).trans (congrArg (stpInstance iter') hkeep)
        · exact (hno fun iter' hmem => hnone iter' (List.mem_cons_of_mem _ hmem)).trans hkeep

/-! ### What a list describes -/

/-- The entry has the number, or has none and the number is the default. -/
def FieldIs (iter : Json) (name : String) (default n : ℤ) : Prop :=
  match getItem (some iter) name with
  | none => n = default
  | some j => j = .num (.fin (n : ℚ))

def HasId (iter : Json) (id : ℤ) : Prop := FieldIs iter "id" 0 id

/-- The instance is as the entry has it, with the documented default for what it leaves out. -/
structure Described (iter : Json) (s : StpInstance) : Prop where
  enabled : s.enabled = isTrue (getItem (some iter) "enabled")
  forwardDelay : FieldIs iter "forward_delay" 15 s.forwardDelay
  helloTime : FieldIs iter "hello_time" 2 s.helloTime
  maxAge : FieldIs iter "max_age" 20 s.maxAge
  priority : FieldIs iter "priority" 32768 s.priority

/-- The numbers of an entry are integers of their fields. -/
structure Fitting (iter : Json) : Prop where
  id : ∀ j, getItem (some iter) "id" = some j → ∃ n : ℤ, j = .num (.fin (n : ℚ)) ∧ -2 ^ 31 ≤ n ∧ n < 2 ^ 31
  field : ∀ name ∈ ["priority", "forward_delay", "hello_time", "max_age"], ∀ j,
    getItem (some iter) name = some j → ∃ n : ℤ, j = .num (.fin (n : ℚ)) ∧ 0 ≤ n ∧ n < 2 ^ 16

/-- Every id is that of a VLAN, and none occurs twice. -/
def GoodIds (iters : List Json) : Prop :=
  ∃ ids : List ℤ, List.Forall₂ HasId iters ids ∧ (∀ id ∈ ids, 0 ≤ id ∧ id ≤ 4095) ∧ ids.Nodup

/-- The instance of a VLAN is that of the one entry with its id, or all defaults if there is none. -/
def InstanceOf (iters : List Json) (id : ℕ) (s : StpInstance) : Prop :=
  (∃ (k : ℕ) (iter : Json), iters[k]? = some iter ∧ HasId iter id ∧ Described iter s ∧
    ∀ (k' : ℕ) (iter' : Json), iters[k']? = some iter' → HasId iter' id → k' = k) ∨
  (∀ iter ∈ iters, ¬ HasId iter id) ∧ s = ⟨false, 15, 2, 20, 32768⟩

theorem hasId_iff {iter : Json} (h : Fitting iter) (id : ℤ) : HasId iter id ↔ stpId iter = id := by
  unfold HasId FieldIs stpId
  cases hitem : getItem (some iter) "id" with
  | none => exact eq_comm
  | some j =>
    obtain ⟨n, rfl, hge, hlt⟩ := h.id j hitem
    dsimp only [getNumberValue, Option.isNone_some]
    rw [if_neg (by decide), Double.toInt_intCast, if_pos ⟨hge, hlt⟩]
    simp

/-- A number of 16 bits goes through the `int` unchanged. -/
theorem fieldIs_stpValue {iter : Json} (h : Fitting iter) {name : String}
    (hname : name ∈ ["priority", "forward_delay", "hello_time", "max_age"]) (default : ℕ) :
    FieldIs iter name default (stpValue (getItem (some iter) name) default) := by
  unfold FieldIs stpValue
  cases hitem : getItem (some iter) name with
  | none => rfl
  | some j =>
    obtain ⟨n, rfl, hge, hlt⟩ := h.field name hname j hitem
    dsimp only [getNumberValue, Option.isNone_some]
    rw [if_neg (by decide), Double.toInt_intCast, if_pos (by omega)]
    have hsame : (((n % 65536).toNat : ℕ) : ℤ) = n := by omega
    rw [hsame]

theorem described_stpInstance {iter : Json} (h : Fitting iter) :
    Described iter (stpInstance iter stpDefaults) where
  enabled := by
    unfold stpInstance stpDefaults
    cases getItem (some iter) "enabled" with
    | none => rfl
    | some j => rfl
  forwardDelay := fieldIs_stpValue h (by decide) 15
  helloTime := fieldIs_stpValue h (by decide) 2
  maxAge := fieldIs_stpValue h (by decide) 20
  priority := fieldIs_stpValue h (by decide) 32768

theorem forall₂_hasId {iters : List Json} (h : ∀ iter ∈ iters, Fitting iter) :
    ∀ ids : List ℤ, List.Forall₂ HasId iters ids ↔ iters.map stpId = ids := by
  induction iters with
  | nil => exact fun ids => by rw [List.forall₂_nil_left_iff, List.map_nil, eq_comm]
  | cons iter iters ih =>
    have hiter := h iter List.mem_cons_self
    intro ids
    rw [List.forall₂_cons_left_iff, List.map_cons]
    constructor
    · rintro ⟨id, ids', hid, hids, rfl⟩
      rw [(hasId_iff hiter id).mp hid, (ih (fun i hi => h i (List.mem_cons_of_mem _ hi)) ids').mp hids]
    · rintro rfl
      exact ⟨_, _, (hasId_iff hiter _).mpr rfl,
        (ih (fun i hi => h i (List.mem_cons_of_mem _ hi)) _).mpr rfl, rfl⟩

/-- The loop's own test. -/
theorem goodIds_iff {iters : List Json} (h : ∀ iter ∈ iters, Fitting iter) :
    GoodIds iters ↔ (∀ iter ∈ iters, InRange iter) ∧ (iters.map idOf).Nodup := by
  have hmap : iters.map idOf = (iters.map stpId).map Int.toNat := by
    rw [List.map_map]
    rfl
  unfold GoodIds
  simp only [forall₂_hasId h, exists_eq_left', List.forall_mem_map]
  constructor
  · rintro ⟨hrange, hnodup⟩
    have hin : ∀ iter ∈ iters, InRange iter := by
      intro iter hmem
      have := hrange iter hmem
      exact ⟨this.1, by simp only [maxVlans]; omega⟩
    refine ⟨hin, ?_⟩
    rw [hmap]
    refine hnodup.map_on fun x hx y hy hxy => ?_
    obtain ⟨iter, hmem, rfl⟩ := List.mem_map.mp hx
    obtain ⟨iter', hmem', rfl⟩ := List.mem_map.mp hy
    have := (hin iter hmem).1
    have := (hin iter' hmem').1
    omega
  · rintro ⟨hrange, hnodup⟩
    rw [hmap] at hnodup
    refine ⟨fun iter hmem => ?_, hnodup.of_map _⟩
    obtain ⟨hge, hlt⟩ := hrange iter hmem
    simp only [maxVlans] at hlt
    omega

/-! ### The section -/

def loopOf (root : Ptr) : Ptr := getItem (getItem root "switch") "loop-detection"

def protocolOf (root : Ptr) : Ptr := getItem (loopOf root) "protocol"

def isolationOf (root : Ptr) : Ptr := getItem (getItem root "switch") "port-isolation"

/-- The other sections of `switch` are accepted; whether they are does not depend on the structure. -/
structure ValidSections (root : Ptr) : Prop where
  radius : ∃ c, (cfgSwitchIeee8021xParse (getItem root "switch") c).1 = .ok ()
  protocol : protocolOf root = none ∨
    ∃ s ∈ ["none", "stp", "rstp", "mstp", "pvstp", "rpvstp"], protocolOf root = some (.str s)
  isolation : isolationOf root = none ∨ ∃ c, (cfgSwitchPortIsolationParse (isolationOf root) c).1 = .ok ()

theorem protoStpModeToNum_isSome_iff (s : String) : (protoStpModeToNum s).isSome = true ↔
    s ∈ ["none", "stp", "rstp", "mstp", "pvstp", "rpvstp"] := by
  unfold protoStpModeToNum
  split_ifs <;> simp [*]

theorem protocol_outcome (protocol : Ptr) :
    outcome (if protocol.isSome then [.need (isString protocol),
      .need (protoStpModeToNum (strOf protocol)).isSome] else []) = none ↔
    protocol = none ∨
      ∃ s ∈ ["none", "stp", "rstp", "mstp", "pvstp", "rpvstp"], protocol = some (.str s) := by
  match protocol with
  | none => exact iff_of_true rfl (Or.inl rfl)
  | some (.str s) =>
    have hmode : outcome [.need true, .need (protoStpModeToNum s).isSome] = none ↔
        (protoStpModeToNum s).isSome = true := by
      cases (protoStpModeToNum s).isSome with
      | false => exact iff_of_false nofun nofun
      | true => exact iff_of_true rfl rfl
    refine hmode.trans ((protoStpModeToNum_isSome_iff s).trans ⟨fun h => Or.inr ⟨s, h, rfl⟩, ?_⟩)
    rintro (h | ⟨s', h, heq⟩)
    · cases h
    · cases heq
      exact h
  | some .null | some (.bool _) | some (.num _) | some (.arr _) | some (.obj _) =>
    refine iff_of_false nofun ?_
    rintro (h | ⟨s, -, h⟩)
    · cases h
    · cases h

theorem follows_cfgSwitchPortIsolationParse (p : Ptr) :
    Follows (cfgSwitchPortIsolationParse p) (isolationChecks p) :=
  follows_need_bind fun _ => follows_need_bind fun _ => follows_isolationGo _ _

/-- The section is accepted exactly if the others are and the ids are good. -/
theorem cfgSwitchParse_ok_iff {root : Ptr} (hfit : ∀ iter ∈ stpIters root, Fitting iter) (c : PlatCfg) :
    (cfgSwitchParse root c).1 = .ok () ↔ ValidSections root ∧ GoodIds (stpIters root) := by
  have hradius := ok_iff_of_follows (follows_cfgSwitchIeee8021xParse (getItem root "switch"))
  have hisolation := ok_iff_of_follows (follows_cfgSwitchPortIsolationParse (isolationOf root))
  have hids := ok_iff_of_follows (follows_stpInstancesGo (stpIters root) Bitmap.clear) c
  rw [stpInstancesGo_ok_iff] at hids
  have hgood : GoodIds (stpIters root) ↔ outcome (stpChecks Bitmap.clear (stpIters root)) = none := by
    rw [goodIds_iff hfit, ← hids]
    simp [Bitmap.clear]
  rw [ok_iff_of_follows (follows_cfgSwitchParse root) c, hgood]
  change outcome (_ ++ (if (protocolOf root).isSome then [.need (isString (protocolOf root)),
    .need (protoStpModeToNum (strOf (protocolOf root))).isSome] else []) ++
    stpChecks Bitmap.clear (stpIters root) ++
    (if (isolationOf root).isSome then isolationChecks (isolationOf root) else [])) = none ↔ _
  rw [outcome_append_none, outcome_append_none, outcome_append_none, protocol_outcome]
  have hlast : outcome
      (if (isolationOf root).isSome then isolationChecks (isolationOf root) else []) = none ↔
      isolationOf root = none ∨ ∃ c, (cfgSwitchPortIsolationParse (isolationOf root) c).1 = .ok () := by
    cases hsome : isolationOf root with
    | none => exact iff_of_true rfl (Or.inl rfl)
    | some j =>
      rw [hsome] at hisolation
      simp only [hisolation, Option.isSome_some, if_true, reduceCtorEq, false_or]
      exact ⟨fun h => ⟨c, h⟩, fun h => h.elim fun _ h => h⟩
  rw [hlast]
  constructor
  · rintro ⟨⟨⟨hr, hp⟩, hs⟩, hi⟩
    exact ⟨⟨⟨c, (hradius c).mpr hr⟩, hp, hi⟩, hs⟩
  · rintro ⟨⟨⟨c', hr⟩, hp, hi⟩, hs⟩
    exact ⟨⟨⟨(hradius c').mp hr, hp⟩, hs⟩, hi⟩

/-- The table after the loop is that of the list. -/
theorem instanceOf_table {iters : List Json} (hfit : ∀ iter ∈ iters, Fitting iter) {c : PlatCfg}
    (hc : c.stpInstances = fun _ => stpDefaults) (h : (stpInstancesGo Bitmap.clear iters c).1 = .ok ())
    (id : ℕ) : InstanceOf iters id ((stpInstancesGo Bitmap.clear iters c).2.stpInstances id) := by
  obtain ⟨hall, hnodup⟩ := (stpInstancesGo_ok_iff _ _ _).mp h
  obtain ⟨hhas, hno⟩ := stpInstancesGo_table iters _ c h id
  rw [hc] at hhas hno
  have hid : ∀ iter ∈ iters, HasId iter id ↔ idOf iter = id := by
    intro iter hmem
    rw [hasId_iff (hfit iter hmem)]
    have := (hall iter hmem).1.1
    unfold idOf
    omega
  by_cases hex : ∃ iter ∈ iters, idOf iter = id
  · obtain ⟨iter, hmem, heq⟩ := hex
    obtain ⟨k, hk⟩ := List.mem_iff_getElem?.mp hmem
    refine Or.inl ⟨k, iter, hk, (hid iter hmem).mpr heq, ?_, fun k' iter' hk' hid' => ?_⟩
    · rw [hhas iter hmem heq]
      exact described_stpInstance (hfit iter hmem)
    · have heq' := (hid iter' (List.mem_of_getElem? hk')).mp hid'
      have hmap : (iters.map idOf)[k']? = (iters.map idOf)[k]? := by
        rw [List.getElem?_map, List.getElem?_map, hk, hk', Option.map_some, Option.map_some, heq, heq']
      have hlt : k' < (iters.map idOf).length := by
        rw [List.length_map]
        exact (List.getElem?_eq_some_iff.mp hk').1
      exact (List.getElem?_inj hlt hnodup).mp hmap
  · have hnone : ∀ iter ∈ iters, idOf iter ≠ id := fun iter hmem heq => hex ⟨iter, hmem, heq⟩
    exact Or.inr ⟨fun iter hmem h => hnone iter hmem ((hid iter hmem).mp h), hno hnone⟩

/-- The table after the section. -/
theorem ends_instances {root : Ptr} (hfit : ∀ iter ∈ stpIters root, Fitting iter) :
    Ends (fun c : PlatCfg => ∀ id, InstanceOf (stpIters root) id (c.stpInstances id))
      (cfgSwitchParse root) := by
  rw [cfgSwitchParse_eq]
  refine ends_bind fun _ => ends_bind fun _ => ends_bind fun _ => ?_
  intro c a h
  rw [fill_bind] at h ⊢
  obtain ⟨⟨⟩, hgo, hrun⟩ := Parser.bind_ok h
  have hleaves := leaves_when (b := (isolationOf root).isSome)
    (leaves_cfgSwitchPortIsolationParse PlatCfg.stpInstances (fun _ _ => rfl) (isolationOf root))
  intro id
  rw [hrun]
  have htable := instanceOf_table hfit rfl hgo id
  rw [← hleaves] at htable
  exact htable

/-- For every list of instances with fitting numbers. -/
theorem cfgSwitchParse_instances {root : Ptr} (hfit : ∀ iter ∈ stpIters root, Fitting iter) (c : PlatCfg) :
    ((cfgSwitchParse root c).1 = .ok () ↔ ValidSections root ∧ GoodIds (stpIters root)) ∧
    ((cfgSwitchParse root c).1 = .ok () → ∀ id < 4096,
      InstanceOf (stpIters root) id ((cfgSwitchParse root c).2.stpInstances id)) :=
  ⟨cfgSwitchParse_ok_iff hfit c, fun h id _ => ends_instances hfit c () h id⟩

/-- One instance with a priority, and one with nothing but its id. -/
def twoInstances : Ptr :=
  some (.obj [("switch", .obj [("loop-detection", .obj [("protocol", .str "rstp"), ("instances", .arr
    [.obj [("id", .num (.fin 1)), ("priority", .num (.fin 4096))], .obj [("id", .num (.fin 2))]])])])])

theorem stpIters_twoInstances : stpIters twoInstances =
    [.obj [("id", .num (.fin 1)), ("priority", .num (.fin 4096))], .obj [("id", .num (.fin 2))]] := by
  simp [stpIters, twoInstances, getItem, children]

theorem cfgSwitchParse_twoInstances :
    (cfgSwitchParse twoInstances {}).1 = .ok () ∧
    InstanceOf (stpIters twoInstances) 2 ((cfgSwitchParse twoInstances {}).2.stpInstances 2) := by
  have hfit : ∀ iter ∈ stpIters twoInstances, Fitting iter := by
    rw [stpIters_twoInstances]
    intro iter hmem
    rcases List.mem_pair.mp hmem with rfl | rfl
    · refine ⟨fun j hj => ⟨1, ?_⟩, fun name hname j hj => ⟨4096, ?_⟩⟩
      · simp_all [getItem]
      · simp at hname
        rcases hname with rfl | rfl | rfl | rfl <;> simp_all [getItem]
    · refine ⟨fun j hj => ⟨2, ?_⟩, fun name hname j hj => ⟨0, ?_⟩⟩
      · simp_all [getItem]
      · simp at hname
        rcases hname with rfl | rfl | rfl | rfl <;> simp_all [getItem]
  have hok : (cfgSwitchParse twoInstances {}).1 = .ok () := by decide +kernel
  exact ⟨hok, (cfgSwitchParse_instances hfit {}).2 hok 2 (by decide)⟩

end Ucentral.Proto.StpInstances
