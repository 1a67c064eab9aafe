import Ucentral.Lib.Run
import Mathlib.Data.Int.Notation

/-! The list of the ports of the platform.

    `__get_port_list` builds the list once and hands it out from then on. That the list is there, which
    is all the next call looks at, does not say that it was completed. -/

namespace Ucentral.Proto.PortList

/-! ### The model -/

/-- `struct plat_ports_list`, the next node left out; a node that is just allocated has no name. -/
structure Node where
  name : Option String
  deriving DecidableEq

/-- `__port_list` from its head, NULL if it is empty, and `__port_list_num`. -/
structure Cache where
  list : List Node
  num : ℕ

/-- What the calls that `__get_port_list` makes give: `plat_port_num_get`, the `i`th allocation, and
    `plat_port_list_get` with the names that the switch lists. -/
structure Call where
  numRet : ℤ
  num : ℕ
  calloc : ℕ → Bool
  listRet : ℤ
  names : List String

/-- The loop that allocates the nodes from the `i`th on: the list, and whether `n` more were pushed. -/
def pushNodes (calloc : ℕ → Bool) : ℕ → ℕ → List Node → List Node × Bool
  | 0, _, list => (list, true)
  | n + 1, i, list =>
    if calloc i then pushNodes calloc n (i + 1) (⟨none⟩ :: list) else (list, false)

/-- `plat_port_list_get` on the nodes: `port_key_list` is cleared before the switch fills it. -/
def platPortListGet (names : List String) (list : List Node) : List Node :=
  list.mapIdx fun i _ => ⟨some (names.getD i "")⟩

/-- `ENOMEM`. -/
def enomem : ℤ := 12

/-- `__get_port_list` up to `skip_access`: what it returns, and the new cache. -/
def fetch (c : Call) (s : Cache) : ℤ × Cache :=
  if !s.list.isEmpty then (0, s)
  else
    let s := { s with num := c.num }
    if c.numRet ≠ 0 then (c.numRet, s)
    else
      let nodes := pushNodes c.calloc s.num 0 s.list
      if !nodes.2 then (-enomem, { s with list := nodes.1 })
      else if c.listRet ≠ 0 then (c.listRet, { s with list := [] })
      else (0, { s with list := platPortListGet c.names nodes.1 })

/-- What a call hands out: what it returns, the list, and the number of ports. -/
structure Handed where
  ret : ℤ
  portsList : List Node
  numOfActivePorts : ℕ
  deriving DecidableEq

/-- `__get_port_list`. -/
def getPortList (c : Call) (s : Cache) : Handed × Cache :=
  let f := fetch c s
  (⟨f.1, f.2.list, if f.2.list.isEmpty then 0 else f.2.num⟩, f.2)

def step (s : Cache) (c : Call) : Cache := (getPortList c s).2

/-- Nothing is cached at first. -/
def init : Cache := ⟨[], 0⟩

/-- The list has as many nodes as there are ports, and `plat_port_list_get` has named them all. -/
def Complete (list : List Node) (num : ℕ) : Prop :=
  list.length = num ∧ ∀ x ∈ list, x.name.isSome = true

/-- A call that returns 0 hands out a complete list. -/
def Good (s : Cache) (c : Call) : Prop :=
  (getPortList c s).1.ret = 0 →
    Complete (getPortList c s).1.portsList (getPortList c s).1.numOfActivePorts

/-- A call that has to build the list fails to allocate no node but the first. -/
def NoneLeft (s : Cache) (c : Call) : Prop :=
  s.list = [] → c.numRet = 0 → c.calloc 0 = true → ∀ i < c.num, c.calloc i = true

/-! ### What a call leaves in the cache -/

/-- The loop pushes a node for each allocation up to the first that fails. -/
theorem pushNodes_spec (calloc : ℕ → Bool) : ∀ (n i : ℕ) (list : List Node), ∃ k ≤ n,
    pushNodes calloc n i list = (List.replicate k ⟨none⟩ ++ list, k == n) ∧
      (∀ j < k, calloc (i + j) = true) ∧ (k < n → calloc (i + k) = false)
  | 0, _, _ => ⟨0, Nat.le_refl 0, rfl, nofun, nofun⟩
  | n + 1, i, list => by
      rw [pushNodes]
      cases h : calloc i with
      | false => exact ⟨0, Nat.zero_le _, rfl, nofun, fun _ => h⟩
      | true =>
        obtain ⟨k, hk, hpush, hall, hfail⟩ := pushNodes_spec calloc n (i + 1) (⟨none⟩ :: list)
        refine ⟨k + 1, Nat.succ_le_succ hk, ?_, fun j hj => ?_, fun hlt => ?_⟩
        · rw [if_pos rfl, hpush, List.replicate_succ', List.append_assoc]
          simp
        · cases j with
          | zero => exact h
          | succ j =>
            rw [Nat.add_comm j 1, ← Nat.add_assoc]
            exact hall j (Nat.lt_of_succ_lt_succ hj)
        · rw [Nat.add_comm k 1, ← Nat.add_assoc]
          exact hfail (Nat.lt_of_succ_lt_succ hlt)

theorem complete_platPortListGet {names : List String} {list : List Node} :
    Complete (platPortListGet names list) list.length := by
  refine ⟨by simp [platPortListGet], fun x hx => ?_⟩
  obtain ⟨i, hi, rfl⟩ := List.mem_mapIdx.mp hx
  rfl

/-- The cache is empty or holds a complete list. -/
def Whole (s : Cache) : Prop := s.list ≠ [] → Complete s.list s.num

variable {s : Cache} {c : Call}

theorem fetch_cached (h : s.list ≠ []) : fetch c s = (0, s) := by
  rw [fetch, if_pos (by simpa using h)]

/-- A call that finds no list, and the number of ports. -/
theorem fetch_empty (h : s.list = []) : fetch c s =
    if c.numRet ≠ 0 then (c.numRet, ⟨[], c.num⟩)
    else if (pushNodes c.calloc c.num 0 []).2 = false then
      (-enomem, ⟨(pushNodes c.calloc c.num 0 []).1, c.num⟩)
    else if c.listRet ≠ 0 then (c.listRet, ⟨[], c.num⟩)
    else (0, ⟨platPortListGet c.names (pushNodes c.calloc c.num 0 []).1, c.num⟩) := by
  obtain ⟨list, num⟩ := s
  cases h
  simp [fetch]

/-- What becomes of the cache in a call that finds no list. -/
theorem fetch_cases (h : s.list = []) :
    ((fetch c s).2.list = [] ∧ NoneLeft s c) ∨
    ((fetch c s).2.list ≠ [] ∧ Complete (fetch c s).2.list (fetch c s).2.num ∧ NoneLeft s c) ∨
    ((fetch c s).1 ≠ 0 ∧ (fetch c s).2.list ≠ [] ∧ (∀ x ∈ (fetch c s).2.list, x.name = none) ∧
      ¬ NoneLeft s c) := by
  obtain ⟨k, hk, hpush, hall, hfail⟩ := pushNodes_spec c.calloc c.num 0 []
  simp only [Nat.zero_add, List.append_nil] at hpush hall hfail
  rw [fetch_empty h, hpush]
  by_cases hnum : c.numRet = 0
  · rw [if_neg (not_not_intro hnum)]
    rcases Nat.eq_or_lt_of_le hk with rfl | hlt
    · -- every allocation succeeds
      have hleft : NoneLeft s c := fun _ _ _ => hall
      simp only [beq_self_eq_true, Bool.true_eq_false, if_false]
      split
      · exact Or.inl ⟨rfl, hleft⟩
      · have hcomplete := @complete_platPortListGet c.names (List.replicate c.num ⟨none⟩)
        rw [List.length_replicate] at hcomplete
        by_cases hnil : platPortListGet c.names (List.replicate c.num ⟨none⟩) = []
        · exact Or.inl ⟨hnil, hleft⟩
        · exact Or.inr (Or.inl ⟨hnil, hcomplete, hleft⟩)
    · -- the `k`th one fails
      rw [if_pos (by simpa using Nat.ne_of_lt hlt)]
      cases k with
      | zero =>
        refine Or.inl ⟨rfl, fun _ _ h0 => ?_⟩
        rw [hfail hlt] at h0
        cases h0
      | succ k =>
        refine Or.inr (Or.inr ⟨show -enomem ≠ 0 by decide, by simp, fun x hx => ?_, fun hleft => ?_⟩)
        · rw [List.eq_of_mem_replicate hx]
        · have hk' := hleft h hnum (hall 0 (Nat.succ_pos k)) (k + 1) hlt
          rw [hfail hlt] at hk'
          cases hk'
  · rw [if_pos hnum]
    exact Or.inl ⟨rfl, fun _ h0 => absurd h0 hnum⟩

/-- Every call from a whole cache is good, and leaves the cache whole exactly if it leaves no nodes
    behind. -/
theorem call_spec (h : Whole s) (c : Call) : Good s c ∧ (Whole (step s c) ↔ NoneLeft s c) := by
  unfold Good step getPortList
  by_cases hlist : s.list = []
  · rcases fetch_cases (c := c) hlist with ⟨hnil, hleft⟩ | ⟨hne, hcomplete, hleft⟩ |
      ⟨hret, hne, hnone, hleft⟩
    · refine ⟨fun _ => ?_, iff_of_true (fun hne => absurd hnil hne) hleft⟩
      simp [hnil, Complete]
    · refine ⟨fun _ => ?_, iff_of_true (fun _ => hcomplete) hleft⟩
      simpa [hne] using hcomplete
    · refine ⟨fun h0 => absurd h0 hret, iff_of_false (fun hwhole => ?_) hleft⟩
      obtain ⟨x, hx⟩ := List.exists_mem_of_ne_nil _ hne
      have hsome := (hwhole hne).2 x hx
      rw [hnone x hx] at hsome
      cases hsome
  · rw [fetch_cached hlist]
    refine ⟨fun _ => ?_, iff_of_true h fun hnil => absurd hnil hlist⟩
    simpa [hlist] using h hlist

/-- From a list that is not complete every call hands out a list that is not complete. -/
theorem not_good_of_not_whole (h : ¬ Whole s) (c : Call) : ¬ Good s c := by
  have hne : s.list ≠ [] := fun hnil => h fun hne => absurd hnil hne
  intro hgood
  refine h fun _ => ?_
  have hcomplete := hgood (by rw [getPortList, fetch_cached hne])
  rw [getPortList, fetch_cached hne] at hcomplete
  simpa [hne] using hcomplete

/-! ### Runs of calls -/

/-- A run is good up to its last call exactly if no call before the last leaves nodes behind. -/
theorem run_good_iff : ∀ (cs : List Call) (c : Call) (s : Cache), Whole s →
    (Run.EveryStep step Good s (cs ++ [c]) ↔ Run.EveryStep step NoneLeft s cs)
  | [], c, s, h => by
      refine iff_of_true ?_ (Run.everyStep_nil s)
      rw [List.nil_append, Run.everyStep_cons]
      exact ⟨(call_spec h c).1, Run.everyStep_nil _⟩
  | d :: cs, c, s, h => by
      obtain ⟨hgood, hwhole⟩ := call_spec h d
      rw [List.cons_append, Run.everyStep_cons, Run.everyStep_cons, ← hwhole]
      constructor
      · rintro ⟨-, hrest⟩
        -- a list that is not complete would show in the next call
        have hnext : Whole (step s d) := by
          by_contra hw
          cases cs with
          | nil => exact not_good_of_not_whole hw c ((Run.everyStep_cons _ _ _).mp hrest).1
          | cons e cs => exact not_good_of_not_whole hw e ((Run.everyStep_cons _ _ _).mp hrest).1
        exact ⟨hnext, (run_good_iff cs c _ hnext).mp hrest⟩
      · rintro ⟨hnext, hrest⟩
        exact ⟨hgood, (run_good_iff cs c _ hnext).mpr hrest⟩

/-- From the start every call that returns 0 hands out a complete list, exactly if no call before the
    last fails to allocate a node when it has allocated the first. -/
theorem getPortList_complete_iff (cs : List Call) (c : Call) :
    Run.EveryStep step Good init (cs ++ [c]) ↔ Run.EveryStep step NoneLeft init cs :=
  run_good_iff cs c init fun h => absurd rfl h

/-- Two ports, and memory for one node only. -/
def outOfMemory : Call := ⟨0, 2, fun i => i = 0, 0, ["Ethernet0", "Ethernet1"]⟩

/-- The call fails, and the next one hands out one node without a name for two ports, though nothing
    fails any more. -/
theorem partial_list_handed_out :
    (getPortList outOfMemory init).1.ret = -enomem ∧
    (getPortList { outOfMemory with calloc := fun _ => true } (step init outOfMemory)).1 =
      ⟨0, [⟨none⟩], 2⟩ ∧
    ¬ ∀ cs, Run.EveryStep step Good init cs := by
  refine ⟨by decide, by decide, fun h => ?_⟩
  have hrun := h [outOfMemory, outOfMemory]
  rw [Run.everyStep_cons, Run.everyStep_cons] at hrun
  exact absurd (hrun.2.1 rfl).1 (by decide)

end Ucentral.Proto.PortList
