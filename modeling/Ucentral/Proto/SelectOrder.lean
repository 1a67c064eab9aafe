import Ucentral.Proto.Selection

/-! The order of the entries of `select-ports`.

    The first entry that names no port decides how the loop ends:

        ["Ethernet*", "foo"]     accepted: what stands behind a wildcard is not looked at
        ["foo", "Ethernet*"]     refused

    A string that is cut short stands for whatever is on the stack, which is another thing in another
    place. -/

namespace Ucentral.Proto
open CJson Plat Parse

/-! ### The stack -/

/-- The loop, with what is on the stack in each call of `proto_port_name_to_num`: that may depend on the
    entries before and on the string itself. -/
def selectPortsFrom (ports : Ports) (junk : List Json → Json → ℕ) (seen : List Json) :
    List Json → Parser Selection Unit
  | [] => pure ()
  | p :: ps => do
    text (getStringValue (some p))
    match protoPortNameToNum (junk seen p) (strOf (some p)) with
    | none => need false
    | some id =>
      if id = portIdSelectAllPorts then
        Parser.fill fun s =>
          ⟨ports.names.foldl (fun b name => b.setBit (ports.pid name)) s.bmap, ports.names.length⟩
      else do
        need (decide (id < maxNumOfPorts) && ports.avail id)
        Parser.fill fun s => ⟨s.bmap.setBit id, s.num + 1⟩
        selectPortsFrom ports junk (seen ++ [p]) ps

/-- `cfg_ethernet_select_ports_parse`, likewise. -/
def cfgEthernetSelectPortsParseFrom (ports : Ports) (junk : List Json → Json → ℕ) (selectPorts : Ptr) :
    Parser Selection Unit := do
  need ports.list.isSome
  Parser.fill fun _ => {}
  selectPortsFrom ports junk [] (children selectPorts)

/-- The string ends before its number: `proto_port_name_to_num` gives what is on the stack. -/
def CutShort (j : Json) : Prop :=
  ∃ s, j = .str s ∧ ((∃ rest, s.toList ++ rest = "Ethernet".toList ∧ rest ≠ []) ∨
    ∃ ws, s.toList = "Ethernet".toList ++ ws ∧ Blank ws)

/-- Where no string is cut short, the stack does not matter. -/
theorem protoPortNameToNum_congr {s : String} (h : ¬ CutShort (.str s)) (junk junk' : ℕ) :
    protoPortNameToNum junk s = protoPortNameToNum junk' s := by
  rw [protoPortNameToNum, protoPortNameToNum]
  by_cases hs : s = "Ethernet*" ∨ s = "eth*"
  · rw [if_pos hs, if_pos hs]
  · rw [if_neg hs, if_neg hs]
    cases hscan : scanU "Ethernet".toList s.toList with
    | eof => exact absurd ⟨s, rfl, scanU_eof_iff.mp hscan⟩ h
    | mismatch => rfl
    | value n => rfl

theorem protoPortNameToNum_cutShort {s : String} (h : CutShort (.str s)) (junk : ℕ) :
    protoPortNameToNum junk s = some (junk % 65536) := by
  obtain ⟨s', hs', hcut⟩ := h
  obtain rfl : s = s' := Json.str.inj hs'
  have hscan : scanU "Ethernet".toList s.toList = .eof := scanU_eof_iff.mpr hcut
  have hwild : ¬ (s = "Ethernet*" ∨ s = "eth*") := by
    rintro (rfl | rfl)
    · simp [scanU, isCSpace, scanLu, Decimal.startsDigit] at hscan
    · simp [scanU] at hscan
  rw [protoPortNameToNum, if_neg hwild, hscan]

theorem selectPortsFrom_eq (ports : Ports) (junk : List Json → Json → ℕ) : ∀ (ps seen : List Json),
    (∀ j ∈ ps, ¬ CutShort j) → selectPortsFrom ports junk seen ps = selectPortsGo ports ps
  | [], _, _ => rfl
  | j :: ps, seen, h => by
      have ih := selectPortsFrom_eq ports junk ps (seen ++ [j]) fun x hx => h x (List.mem_cons_of_mem _ hx)
      have hcut := h j List.mem_cons_self
      rw [selectPortsFrom, selectPortsGo, ih]
      cases j with
      | str s =>
        have hnum : protoPortNameToNum (junk seen (.str s)) (strOf (some (.str s))) =
          protoPortNameToNum ports.junk (strOf (some (.str s))) := protoPortNameToNum_congr hcut _ _
        exact hnum ▸ rfl
      | _ => rfl

/-- If the stack holds the same in every call, this is the parser. -/
theorem selectPortsFrom_const (ports : Ports) : ∀ ps seen : List Json,
    selectPortsFrom ports (fun _ _ => ports.junk) seen ps = selectPortsGo ports ps
  | [], _ => rfl
  | j :: ps, seen => by
      have ih := selectPortsFrom_const ports ps (seen ++ [j])
      rw [selectPortsFrom, selectPortsGo]
      exact ih ▸ rfl

theorem cfgEthernetSelectPortsParseFrom_const (ports : Ports) (selectPorts : Ptr) :
    cfgEthernetSelectPortsParseFrom ports (fun _ _ => ports.junk) selectPorts =
      cfgEthernetSelectPortsParse ports selectPorts := by
  rw [cfgEthernetSelectPortsParseFrom, selectPortsFrom_const]
  rfl

/-! ### When the order does not matter -/

/-- The same verdict and, if it is to accept, the same bitmap and number. -/
def SameSelection (r r' : Except Stop Unit × Selection) : Prop := r.1 = r'.1 ∧ (r.1 = .ok () → r.2 = r'.2)

/-- Whatever is on the stack, the order of the entries does not matter. -/
def OrderFree (ports : Ports) (ps : List Json) : Prop :=
  ∀ (junk : List Json → Json → ℕ) (qs : List Json), ps.Perm qs →
    SameSelection (cfgEthernetSelectPortsParseFrom ports junk (some (.arr ps)) {})
      (cfgEthernetSelectPortsParseFrom ports junk (some (.arr qs)) {})

/-- No two entries end the loop in different ways. -/
def OneEnd (ports : Ports) (ps : List Json) : Prop :=
  ∀ j ∈ ps, ∀ j' ∈ ps, ∀ r r', entryEnd ports j = some r → entryEnd ports j' = some r' → r = r'

section Order

variable {ports : Ports}

theorem findSome?_iff_of_oneEnd {ps : List Json} (h : OneEnd ports ps) (r : Except Stop Unit) :
    ps.findSome? (entryEnd ports) = some r ↔ ∃ j ∈ ps, entryEnd ports j = some r := by
  constructor
  · exact fun hr => List.exists_of_findSome?_eq_some hr
  · rintro ⟨j, hj, hr⟩
    cases hfind : ps.findSome? (entryEnd ports) with
    | none =>
      rw [List.findSome?_eq_none_iff.mp hfind j hj] at hr
      cases hr
    | some r' =>
      obtain ⟨j', hj', hr'⟩ := List.exists_of_findSome?_eq_some hfind
      rw [h j hj j' hj' r r' hr hr']

theorem findSome?_perm {ps qs : List Json} (hp : ps.Perm qs) (h : OneEnd ports ps) :
    ps.findSome? (entryEnd ports) = qs.findSome? (entryEnd ports) := by
  have hq : OneEnd ports qs := fun j hj j' hj' => h j (hp.mem_iff.mpr hj) j' (hp.mem_iff.mpr hj')
  refine Option.ext fun r => ?_
  rw [findSome?_iff_of_oneEnd h, findSome?_iff_of_oneEnd hq]
  exact exists_congr fun j => and_congr_left fun _ => hp.mem_iff

/-- A loop that comes to the end has found a port in every entry. -/
theorem namedPorts_eq_filterMap : ∀ {ps : List Json}, ps.findSome? (entryEnd ports) = none →
    namedPorts ports ps = ps.filterMap fun j =>
      match entryOutcome ports j with
      | some (.port k) => some k
      | _ => none
  | [], _ => rfl
  | j :: ps, h => by
      rw [List.findSome?_cons, entryEnd] at h
      rw [namedPorts, List.filterMap_cons]
      cases hj : entryOutcome ports j with
      | none => rw [hj] at h; cases h
      | some o =>
        rw [hj] at h
        cases o with
        | port k => exact congrArg _ (namedPorts_eq_filterMap h)
        | all => cases h
        | rejected => cases h

theorem setBits_congr {b : Bitmap} {is js : List ℕ} (h : ∀ i, i ∈ is ↔ i ∈ js) :
    setBits b is = setBits b js := by
  funext i
  rw [Bool.eq_iff_iff, setBits_apply, setBits_apply, h]

/-- All ports of the platform make up for whatever was named before. -/
theorem setBits_named (ps : List Json) (b : Bitmap) :
    setBits (setBits b (namedPorts ports ps)) ports.pids = setBits b ports.pids := by
  funext i
  rw [Bool.eq_iff_iff, setBits_apply, setBits_apply, setBits_apply]
  constructor
  · rintro (h | h | h)
    · exact Or.inl h
    · exact Or.inl (mem_namedPorts h).2
    · exact Or.inr h
  · exact fun h => h.imp id Or.inr

theorem sameSelection_of_perm {ps qs : List Json} (hp : ps.Perm qs) (h : OneEnd ports ps)
    (t : Selection) : SameSelection (selectPortsGo ports ps t) (selectPortsGo ports qs t) := by
  rw [selectPortsGo_eq, selectPortsGo_eq, ← findSome?_perm hp h]
  cases hend : ps.findSome? (entryEnd ports) with
  | none =>
    have hnamed : (namedPorts ports ps).Perm (namedPorts ports qs) := by
      rw [namedPorts_eq_filterMap hend, namedPorts_eq_filterMap (findSome?_perm hp h ▸ hend)]
      exact hp.filterMap _
    refine ⟨rfl, fun _ => ?_⟩
    dsimp only [selected]
    rw [setBits_congr fun _ => hnamed.mem_iff, hnamed.length_eq]
  | some r =>
    cases r with
    | error e => exact ⟨rfl, nofun⟩
    | ok u =>
      refine ⟨rfl, fun _ => ?_⟩
      dsimp only [selected]
      rw [setBits_named, setBits_named]

theorem orderFree_of_oneEnd {ps : List Json} (hcut : ∀ j ∈ ps, ¬ CutShort j) (h : OneEnd ports ps) :
    OrderFree ports ps := by
  intro junk qs hp
  have hcut' : ∀ j ∈ qs, ¬ CutShort j := fun j hj => hcut j (hp.mem_iff.mpr hj)
  rw [cfgEthernetSelectPortsParseFrom, cfgEthernetSelectPortsParseFrom, children_arr, children_arr,
    selectPortsFrom_eq ports junk ps [] hcut, selectPortsFrom_eq ports junk qs [] hcut', need_bind,
    need_bind]
  cases ports.list.isSome with
  | false => exact ⟨rfl, nofun⟩
  | true => exact sameSelection_of_perm hp h _

theorem SameSelection.symm {r r' : Except Stop Unit × Selection} (h : SameSelection r r') :
    SameSelection r' r :=
  ⟨h.1.symm, fun hok => (h.2 (h.1.trans hok)).symm⟩

theorem SameSelection.trans {r r' r'' : Except Stop Unit × Selection} (h : SameSelection r r')
    (h' : SameSelection r' r'') : SameSelection r r'' :=
  ⟨h.1.trans h'.1, fun hok => (h.2 hok).trans (h'.2 (h.1.symm.trans hok))⟩

theorem orderFree_of_eq {ps : List Json} (h : ∀ j ∈ ps, ∀ j' ∈ ps, j = j') : OrderFree ports ps := by
  intro junk qs hp
  have heq : qs = ps := by
    cases ps with
    | nil => exact hp.symm.eq_nil
    | cons j ps =>
      have hrep : j :: ps = List.replicate (ps.length + 1) j :=
        List.eq_replicate_iff.mpr ⟨rfl, fun x hx => h x hx j List.mem_cons_self⟩
      rw [hrep] at hp ⊢
      exact (List.perm_replicate.mp hp.symm)
  rw [heq]
  exact ⟨rfl, fun _ => rfl⟩

/-- Two entries may be brought to the front in either order. -/
theorem OrderFree.front {ps : List Json} (h : OrderFree ports ps) (hlist : ports.list.isSome = true)
    {a b : Json} (ha : a ∈ ps) (hb : b ∈ ps) (hne : a ≠ b) :
    ∃ rest, ∀ junk, SameSelection (selectPortsFrom ports junk [] (a :: b :: rest) {})
      (selectPortsFrom ports junk [] (b :: a :: rest) {}) := by
  obtain ⟨l, r, rfl⟩ := List.append_of_mem ha
  have hp : (l ++ a :: r).Perm (a :: (l ++ r)) := List.perm_middle
  have hb' : b ∈ l ++ r := (List.mem_cons.mp (hp.mem_iff.mp hb)).resolve_left (Ne.symm hne)
  obtain ⟨l', r', hlr⟩ := List.append_of_mem hb'
  rw [hlr] at hp
  have hab : (l ++ a :: r).Perm (a :: b :: (l' ++ r')) := hp.trans (List.perm_middle.cons a)
  have hrun : ∀ junk qs, cfgEthernetSelectPortsParseFrom ports junk (some (.arr qs)) {} =
      selectPortsFrom ports junk [] qs {} := by
    intro junk qs
    rw [cfgEthernetSelectPortsParseFrom, need_bind, if_pos hlist]
    rfl
  refine ⟨l' ++ r', fun junk => ?_⟩
  have h1 := h junk _ hab
  have h2 := h junk _ (hab.trans (List.Perm.swap b a _))
  rw [hrun, hrun] at h1 h2
  exact h1.symm.trans h2

theorem selectPortsFrom_cons (junk : List Json → Json → ℕ) (seen : List Json) (j : Json)
    (ps : List Json) (t : Selection) :
    selectPortsFrom ports junk seen (j :: ps) t =
      match getStringValue (some j) with
      | none => (.error .fault, t)
      | some s =>
        match protoPortNameToNum (junk seen j) s with
        | none => (.error .reject, t)
        | some id =>
          if id = portIdSelectAllPorts then (.ok (),
            ⟨ports.names.foldl (fun b name => b.setBit (ports.pid name)) t.bmap, ports.names.length⟩)
          else if decide (id < maxNumOfPorts) && ports.avail id then
            selectPortsFrom ports junk (seen ++ [j]) ps ⟨t.bmap.setBit id, t.num + 1⟩
          else (.error .reject, t) := by
  rw [selectPortsFrom, text_bind, strOf]
  cases getStringValue (some j) with
  | none => rfl
  | some s =>
    rw [Option.isSome_some, if_pos rfl, Option.getD_some]
    dsimp only
    cases protoPortNameToNum (junk seen j) s with
    | none => rfl
    | some id =>
      by_cases hall : id = portIdSelectAllPorts
      · simp only [if_pos hall]
        rfl
      · simp only [if_neg hall, need_bind]
        rfl

/-- An entry that is not cut short is dealt with whatever is on the stack. -/
theorem selectPortsFrom_cons_outcome {junk : List Json → Json → ℕ} {seen : List Json} {j : Json}
    {ps : List Json} {t : Selection} (hcut : ¬ CutShort j) :
    selectPortsFrom ports junk seen (j :: ps) t =
      match entryOutcome ports j with
      | some (.port k) => selectPortsFrom ports junk (seen ++ [j]) ps ⟨t.bmap.setBit k, t.num + 1⟩
      | some .all => (.ok (),
          ⟨ports.names.foldl (fun b name => b.setBit (ports.pid name)) t.bmap, ports.names.length⟩)
      | some .rejected => (.error .reject, t)
      | none => (.error .fault, t) := by
  rw [selectPortsFrom_cons, entryOutcome]
  cases j with
  | str s =>
    rw [getStringValue_str, Option.map_some, selectEntry]
    dsimp only
    rw [protoPortNameToNum_congr hcut _ ports.junk]
    cases protoPortNameToNum ports.junk s with
    | none => rfl
    | some id =>
      by_cases hall : id = portIdSelectAllPorts
      · simp only [if_pos hall]
      · simp only [if_neg hall]
        cases decide (id < maxNumOfPorts) && ports.avail id with
        | true => rfl
        | false => rfl
  | _ => rfl

/-- The verdict at an entry that ends the loop. -/
theorem verdict_of_end {junk : List Json → Json → ℕ} {seen : List Json} {j : Json} {ps : List Json}
    {t : Selection} {r : Except Stop Unit} (hcut : ¬ CutShort j) (h : entryEnd ports j = some r) :
    (selectPortsFrom ports junk seen (j :: ps) t).1 = r := by
  rw [selectPortsFrom_cons_outcome hcut]
  rw [entryEnd] at h
  cases hj : entryOutcome ports j with
  | none =>
    rw [hj] at h
    exact Option.some.inj h
  | some o =>
    rw [hj] at h
    cases o with
    | port k => cases h
    | all => exact Option.some.inj h
    | rejected => exact Option.some.inj h

/-- What is read from the stack may stand for all ports, or for none. -/
theorem verdict_of_cutShort {junk : List Json → Json → ℕ} {seen : List Json} {j : Json}
    {ps : List Json} {t : Selection} (hcut : CutShort j) :
    (junk seen j = 255 → (selectPortsFrom ports junk seen (j :: ps) t).1 = .ok ()) ∧
    (junk seen j = 100 → (selectPortsFrom ports junk seen (j :: ps) t).1 = .error .reject) := by
  obtain ⟨s, rfl, -⟩ := id hcut
  rw [selectPortsFrom_cons, getStringValue_str]
  dsimp only
  rw [protoPortNameToNum_cutShort hcut]
  constructor
  · intro h
    rw [h]
    rfl
  · intro h
    rw [h]
    rfl

/-- The verdict where the loop goes on to an entry that is refused. -/
theorem verdict_of_port {junk : List Json → Json → ℕ} {j e : Json} {ps : List Json} (hcut : ¬ CutShort j)
    (h : entryEnd ports j = none) (he : CutShort e) (hjunk : junk [j] e = 100) :
    (selectPortsFrom ports junk [] (j :: e :: ps) {}).1 = .error .reject := by
  rw [selectPortsFrom_cons_outcome hcut]
  rw [entryEnd] at h
  cases hj : entryOutcome ports j with
  | none =>
    rw [hj] at h
    cases h
  | some o =>
    rw [hj] at h
    cases o with
    | port k => exact (verdict_of_cutShort he).2 hjunk
    | all => cases h
    | rejected => cases h

/-- A string that is cut short is read in one place as it is not in another. -/
theorem not_orderFree_of_cutShort {ps : List Json} (hlist : ports.list.isSome = true) {e x : Json}
    (he : e ∈ ps) (hx : x ∈ ps) (hne : e ≠ x) (hcut : CutShort e) : ¬ OrderFree ports ps := by
  intro h
  obtain ⟨rest, hsame⟩ := h.front hlist he hx hne
  by_cases hxcut : CutShort x
  · -- the one stands for all ports, the other for none
    obtain ⟨s, rfl, -⟩ := id hcut
    obtain ⟨s', rfl, -⟩ := id hxcut
    have hs : strOf (some (.str s')) ≠ s := fun heq => hne (congrArg Json.str heq.symm)
    have hv := (hsame fun _ j => if strOf (some j) = s then 255 else 100).1
    rw [(verdict_of_cutShort hcut).1 (if_pos rfl), (verdict_of_cutShort hxcut).2 (if_neg hs)] at hv
    cases hv
  · cases hend : entryEnd ports x with
    | none =>
      -- in front `e` stands for all ports, behind `x` for none
      have hv := (hsame fun seen _ => if seen.isEmpty then 255 else 100).1
      rw [(verdict_of_cutShort hcut).1 rfl, verdict_of_port hxcut hend hcut rfl] at hv
      cases hv
    | some r =>
      cases r with
      | ok u =>
        have hv := (hsame fun _ _ => 100).1
        rw [(verdict_of_cutShort hcut).2 rfl, verdict_of_end hxcut hend] at hv
        cases hv
      | error c =>
        have hv := (hsame fun _ _ => 255).1
        rw [(verdict_of_cutShort hcut).1 rfl, verdict_of_end hxcut hend] at hv
        cases hv

/-- The order does not matter exactly if there is only one, or no string is cut short and no two
    entries end the loop in different ways. -/
theorem orderFree_iff (ks : List UInt16) (junk : ℕ) (stack : Inet.InAddr) (ps : List Json) :
    OrderFree (platform ks junk stack) ps ↔
      (∀ j ∈ ps, ∀ j' ∈ ps, j = j') ∨
        (∀ j ∈ ps, ¬ CutShort j) ∧ OneEnd (platform ks junk stack) ps := by
  constructor
  · intro h
    by_cases heq : ∀ j ∈ ps, ∀ j' ∈ ps, j = j'
    · exact Or.inl heq
    · push Not at heq
      obtain ⟨a, ha, b, hb, hne⟩ := heq
      have hcut : ∀ j ∈ ps, ¬ CutShort j := by
        intro j hj hcut
        by_cases hja : j = a
        · exact not_orderFree_of_cutShort rfl hj hb (hja ▸ hne) hcut h
        · exact not_orderFree_of_cutShort rfl hj ha hja hcut h
      refine Or.inr ⟨hcut, fun j hj j' hj' r r' hr hr' => ?_⟩
      by_cases hjj : j = j'
      · rw [hjj, hr'] at hr
        exact (Option.some.inj hr).symm
      · obtain ⟨rest, hsame⟩ := h.front rfl hj hj' hjj
        have hv := (hsame fun _ _ => 0).1
        rwa [verdict_of_end (hcut j hj) hr, verdict_of_end (hcut j' hj') hr'] at hv
  · rintro (heq | ⟨hcut, hone⟩)
    · exact orderFree_of_eq heq
    · exact orderFree_of_oneEnd hcut hone

/-- What stands behind a wildcard is not looked at, what stands in front of it is. -/
theorem wildcard_order_matters :
    (cfgEthernetSelectPortsParse (platform [1, 2] 0 .zero)
      (some (.arr [.str "Ethernet*", .str "foo"])) {}).1 = .ok () ∧
    (cfgEthernetSelectPortsParse (platform [1, 2] 0 .zero)
      (some (.arr [.str "foo", .str "Ethernet*"])) {}).1 = .error .reject ∧
    ¬ OrderFree (platform [1, 2] 0 .zero) [.str "Ethernet*", .str "foo"] := by
  have hok : (cfgEthernetSelectPortsParse (platform [1, 2] 0 .zero)
      (some (.arr [.str "Ethernet*", .str "foo"])) {}).1 = .ok () := by decide +kernel
  have hreject : (cfgEthernetSelectPortsParse (platform [1, 2] 0 .zero)
      (some (.arr [.str "foo", .str "Ethernet*"])) {}).1 = .error .reject := by decide +kernel
  refine ⟨hok, hreject, fun h => ?_⟩
  have hv := (h (fun _ _ => 0) _ (List.Perm.swap (Json.str "foo") (Json.str "Ethernet*") [])).1
  have hconst := cfgEthernetSelectPortsParseFrom_const (platform [1, 2] 0 .zero)
  have hjunk : (platform [1, 2] 0 .zero).junk = 0 := rfl
  rw [hjunk] at hconst
  rw [hconst, hconst, hok, hreject] at hv
  cases hv

end Order

end Ucentral.Proto
