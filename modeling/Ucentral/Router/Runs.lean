import Ucentral.Router.Walk
import Ucentral.Lib.Run
import Mathlib.Data.List.Chain

/-! Runs of `config_router_apply` against a switch that grants every request.

    A prefix that a configuration still names is gone from the switch when the cache held more
    entries for it, since the surplus entries end the walk at that prefix with a remove. -/

namespace Ucentral.Router
open Inet Merge Effect Plat Run

/-! ### The switch -/

/-- A map of routes, the schedule of request outcomes, and the number of requests so far. -/
structure RouteDev where
  tbl : IpPrefix → Option RouteAttrs
  grants : ℕ → Bool
  clock : ℕ

def routeRequest (op : Op) (d : RouteDev) : Bool × RouteDev :=
  if d.grants d.clock then (true, { d with tbl := routeEffect d.tbl op, clock := d.clock + 1 })
  else (false, { d with clock := d.clock + 1 })

/-- The switch of these runs; the route stage puts no queries to it. -/
def routeDev : Dev RouteDev where
  request := routeRequest
  vlanList d := (none, d)
  vlanMembers d := (none, d)
  vlanErif _ d := (none, d)
  portList d := (none, d)
  dacHosts d := (none, d)
  radiusHosts d := (none, d)

theorem routeRequest_grants (op : Op) (d : RouteDev) : (routeRequest op d).2.grants = d.grants := by
  unfold routeRequest
  split <;> rfl

theorem routeRequest_tbl {op : Op} {d : RouteDev} (h : (routeRequest op d).1 = true) :
    (routeRequest op d).2.tbl = routeEffect d.tbl op := by
  unfold routeRequest at h ⊢
  split at h
  · next hg => rw [if_pos hg]
  · simp at h

theorem routeRequest_granted {op : Op} {d : RouteDev} (h : ∀ k, d.grants k = true) :
    (routeRequest op d).1 = true := by
  rw [routeRequest, if_pos (h _)]

/-- This switch keeps routes; it is willing if the schedule grants everything. -/
def routeSwitch : RouteSwitch RouteDev where
  dev := routeDev
  tbl d := d.tbl
  willing d := ∀ k, d.grants k = true
  effect _ _ := routeRequest_tbl
  willing_granted _ _ := routeRequest_granted
  willing_step op d h := by
    intro k
    rw [show (routeDev.request op d).2.grants = d.grants from routeRequest_grants op d]
    exact h k

abbrev RouteSt := St RouteDev

/-- A switch holding `tbl`, and a cached table; no request has been made. -/
def routeStart (cache : Table) (tbl : IpPrefix → Option RouteAttrs) (grants : ℕ → Bool) : RouteSt :=
  ⟨⟨{ router := cache }, ⟨tbl, grants, 0⟩⟩, []⟩

/-- One call, whatever it returns. -/
def routeCall (qs : Qsort) (s : RouteSt) (r : Table) : RouteSt :=
  (configRouterApply qs routeDev { router := r } s).2

theorem call_routeCall (qs : Qsort) (s : RouteSt) (r : Table) :
    ∃ l, Call routeSwitch qs s r (configRouterApply qs routeDev { router := r } s).1
      (routeCall qs s r) l :=
  call_configRouterApply routeSwitch qs s r

/-! ### Runs in which every request is granted -/

/-- Every prefix of the new table occurs in it at least as often as in the old one. -/
def KeepsCount (old new : Table) : Prop :=
  ∀ p ∈ new.arr.map FibNode.gpref,
    (old.arr.map FibNode.gpref).count p ≤ (new.arr.map FibNode.gpref).count p

/-- A route of a kind that configurations can hold and the switch can take. -/
def FibInfo.Creatable (i : FibInfo) : Prop := i = .blackhole ∨ ∃ vid gw, i = .nh vid gw

theorem FibInfo.Creatable.gattr_isSome {n : FibNode} (h : n.info.Creatable) : n.gattr.isSome := by
  rcases h with h | ⟨vid, gw, h⟩ <;> rw [FibNode.gattr, h] <;> rfl

/-- The map after the edits from a faithful map is faithful to the new entries of a prefix exactly
    if no entry for it went missing. -/
theorem pair_faithful (ns os : List FibNode) (cur : Option RouteAttrs)
    (hs : ∀ n ∈ ns, n.gattr.isSome) (hcur : os ≠ [] → ∃ o ∈ os, o.gattr = cur)
    (hnone : os = [] → cur = none) :
    (((pair ns os).foldl editAt cur).isSome ↔ ns ≠ []) ∧
      (∀ a, (pair ns os).foldl editAt cur = some a → ∃ n ∈ ns, n.gattr = some a) ↔
    (ns ≠ [] → os.length ≤ ns.length) := by
  by_cases hlt : ns.length < os.length
  · rw [pair_foldl_of_lt ns os cur hlt]
    simp only [Option.isSome_none, Bool.false_eq_true, false_iff, not_not, reduceCtorEq,
      IsEmpty.forall_iff, implies_true, and_true]
    constructor
    · rintro rfl h; exact absurd rfl h
    · intro h; by_contra hne; exact absurd (h hne) (by omega)
  · have hle : os.length ≤ ns.length := by omega
    refine iff_of_true ?_ (fun _ => hle)
    rcases pair_foldl_of_le ns os cur hle with ⟨n, hn, he⟩ | ⟨he, hmap⟩
    · -- the attribute of a new entry
      rw [he]
      exact ⟨iff_of_true (hs n hn) (List.ne_nil_of_mem hn), fun a ha => ⟨n, hn, ha⟩⟩
    · -- nothing changed: an old entry with the same attribute
      rw [he]
      have hlen : ns.length = os.length := by simpa using congrArg List.length hmap
      by_cases hos : os = []
      · have hns : ns = [] := List.length_eq_zero_iff.mp (by simp [hlen, hos])
        rw [hnone hos, hns]
        simp
      · obtain ⟨o, ho, hoa⟩ := hcur hos
        have hmem : o.info ∈ ns.map FibNode.info := hmap ▸ List.mem_map_of_mem ho
        obtain ⟨n, hn, hi⟩ := List.mem_map.mp hmem
        have hna : n.gattr = cur := by rw [← hoa, FibNode.gattr, FibNode.gattr, hi]
        refine ⟨iff_of_true (hna ▸ hs n hn) (List.ne_nil_of_mem hn), ?_⟩
        exact fun a ha => ⟨n, hn, hna.trans ha⟩

theorem carries_iff (tbl : IpPrefix → Option RouteAttrs) (ns : List FibNode) :
    Carries tbl ns ↔ ∀ p, ((tbl p).isSome ↔ entriesAt ns p ≠ []) ∧
      ∀ a, tbl p = some a → ∃ n ∈ entriesAt ns p, n.gattr = some a := by
  simp only [Carries, mem_map_gpref, mem_entriesAt, forall_and, and_assoc]

/-- The step: from a faithful map, a granted call leaves a map faithful to its own table exactly if
    no prefix of that table had more entries before. -/
theorem carries_step (qs : Qsort) (s : RouteSt) (r : Table)
    (hg : ∀ k, s.state.dev.grants k = true) (hr : ∀ n ∈ r.arr, n.info.Creatable)
    (hc : Carries s.state.dev.tbl s.state.cache.router.arr) :
    (Carries (routeCall qs s r).state.dev.tbl r.arr ↔ KeepsCount s.state.cache.router r) ∧
    (routeCall qs s r).state.cache.router.arr.Perm r.arr ∧
    ∀ k, (routeCall qs s r).state.dev.grants k = true := by
  obtain ⟨l, hcall⟩ := call_routeCall qs s r
  have hpn : (ensureSorted qs (fibDbCopy r)).arr.Perm r.arr := ensureSorted_perm qs (fibDbCopy r)
  have hpo := ensureSorted_perm qs s.state.cache.router
  have hcr : ∀ n ∈ (ensureSorted qs (fibDbCopy r)).arr, n.info.Creatable :=
    fun n hn => hr n (hpn.mem_iff.mp hn)
  have hok := hcall.succeeds hg (supported_of_gattr fun n hn => (hcr n hn).gattr_isSome)
  have hlog := hcall.granted hg
  have htbl : (routeCall qs s r).state.dev.tbl =
      (callEdits qs s r).foldl editEffect s.state.dev.tbl := (hcall.done hok hlog).1
  refine ⟨?_, hcall.cached hok, hcall.willing hg⟩
  rw [← carries_perm hpn, carries_iff, htbl, callEdits, routerDbDiff]
  simp only [diff_foldl_at (ensureSorted_sorted qs _) (ensureSorted_sorted qs _)]
  rw [← carries_perm hpo, carries_iff] at hc
  -- per prefix, the edits keep faith exactly if there are enough new entries
  have hp : ∀ p, _ ↔ _ := fun p =>
    pair_faithful (entriesAt (ensureSorted qs (fibDbCopy r)).arr p)
      (entriesAt (ensureSorted qs s.state.cache.router).arr p) (s.state.dev.tbl p)
      (fun n hn => (hcr n (mem_entriesAt.mp hn).1).gattr_isSome)
      (fun hne => by
        obtain ⟨a, ha⟩ := Option.isSome_iff_exists.mp ((hc p).1.mpr hne)
        obtain ⟨o, ho, hoa⟩ := (hc p).2 a ha
        exact ⟨o, ho, hoa.trans ha.symm⟩)
      (fun he => by
        by_contra hne
        exact (hc p).1.mp (Option.isSome_iff_ne_none.mpr hne) he)
  simp only [hp, KeepsCount, mem_map_gpref, count_eq_length_entriesAt]
  have hlen : ∀ {a b : List FibNode} (p : IpPrefix), a.Perm b →
      (entriesAt a p).length = (entriesAt b p).length := fun p h => (h.filter _).length_eq
  have hnil : ∀ p, entriesAt (ensureSorted qs (fibDbCopy r)).arr p ≠ [] ↔ entriesAt r.arr p ≠ [] :=
    fun p => not_congr (by rw [← List.length_eq_zero_iff, hlen p hpn, List.length_eq_zero_iff])
  simp only [hnil, hlen _ hpn, hlen _ hpo]

/-- After each call of the run, the switch carries the table of that call. -/
def EveryCallCarries (qs : Qsort) (s : RouteSt) (rs : List Table) : Prop :=
  EveryStep (routeCall qs) (fun s r => Carries (routeCall qs s r).state.dev.tbl r.arr) s rs

/-- The run: by induction along the calls, with the cached table as the previous one. -/
theorem everyCallCarries_iff (qs : Qsort) : ∀ (rs : List Table) (s : RouteSt) (prev : Table),
    (∀ k, s.state.dev.grants k = true) → s.state.cache.router.arr.Perm prev.arr →
    Carries s.state.dev.tbl s.state.cache.router.arr →
    (∀ r ∈ rs, ∀ n ∈ r.arr, n.info.Creatable) →
    (EveryCallCarries qs s rs ↔ (prev :: rs).IsChain KeepsCount)
  | [], s, prev, _, _, _, _ => by
      exact iff_of_true (everyStep_nil s) (by simp)
  | r :: rs, s, prev, hg, hprev, hc, hr => by
      obtain ⟨hstep, hcache, hg'⟩ :=
        carries_step qs s r hg (hr r (List.mem_cons_self ..)) hc
      have hkeep : KeepsCount s.state.cache.router r ↔ KeepsCount prev r := by
        simp only [KeepsCount, (hprev.map FibNode.gpref).count_eq]
      rw [EveryCallCarries, everyStep_cons, List.isChain_cons_cons, hstep, hkeep]
      refine and_congr_right (fun hk => ?_)
      have hc' := (carries_perm hcache).mpr (hstep.mpr (hkeep.mpr hk))
      exact everyCallCarries_iff qs rs (routeCall qs s r) r hg' hcache hc'
        (fun q hq => hr q (List.mem_cons_of_mem _ hq))

/-- An empty cache and an empty switch. -/
def routeEmpty (grants : ℕ → Bool) : RouteSt := routeStart (fibDbAlloc 0) (fun _ => none) grants

/-- Starting from nothing and with every request granted, the switch carries the table of each call
    of the run if and only if no call drops an entry of a prefix that it still names. -/
theorem every_call_carries_iff_counts_kept (qs : Qsort) (rs : List Table)
    (hr : ∀ r ∈ rs, ∀ n ∈ r.arr, n.info.Creatable) :
    EveryCallCarries qs (routeEmpty fun _ => true) rs ↔ rs.IsChain KeepsCount := by
  have hstart : Carries (routeEmpty fun _ => true).state.dev.tbl [] := by
    simp [Carries, routeEmpty, routeStart]
  rw [everyCallCarries_iff qs rs (routeEmpty fun _ => true) (fibDbAlloc 0) (fun _ => rfl)
    (List.Perm.refl _) hstart hr]
  cases rs with
  | nil => simp
  | cons r rs =>
    rw [List.isChain_cons_cons]
    exact and_iff_right (fun p _ => by simp [fibDbAlloc])

/-- The table a parsed configuration holds: one append for each of its routes. -/
def tableOf (ns : List FibNode) : Table := ⟨ns, ns.length, false, le_rfl, fun h => by simp at h⟩

/-- 10.0.0.0/8 and 10.1.0.0/16 as keys, and 192.168.1.1 as a gateway. -/
def net8 : FibKey := ⟨.ofOctets 10 0 0 0, 8⟩
def net16 : FibKey := ⟨.ofOctets 10 1 0 0, 16⟩
def gw1 : InAddr := .ofOctets 192 168 1 1

theorem every_call_carries_two_tables :
    EveryCallCarries insertionQsort (routeEmpty fun _ => true)
      [tableOf [⟨net8, .blackhole⟩],
        tableOf [⟨net16, .blackhole⟩, ⟨net8, .nh 10 gw1⟩, ⟨net8, .blackhole⟩]] := by
  refine (every_call_carries_iff_counts_kept insertionQsort _ ?_).mpr ?_
  · simp [tableOf, FibInfo.Creatable]
  · simp only [List.isChain_cons_cons, List.isChain_singleton, and_true]
    unfold KeepsCount
    decide

/-- Two routes to one prefix, then only one of them. -/
def repeatedThenOnce : List Table :=
  [tableOf [⟨net8, .blackhole⟩, ⟨net8, .nh 10 gw1⟩], tableOf [⟨net8, .blackhole⟩]]

/-- After the second call the prefix is gone from the switch. -/
theorem repeated_prefix_is_lost :
    (∀ r ∈ repeatedThenOnce, ∀ n ∈ r.arr, n.info.Creatable) ∧
    ¬ EveryCallCarries insertionQsort (routeEmpty fun _ => true) repeatedThenOnce := by
  refine ⟨by simp [repeatedThenOnce, tableOf, FibInfo.Creatable], fun h => ?_⟩
  have hc := (h [tableOf [⟨net8, .blackhole⟩, ⟨net8, .nh 10 gw1⟩]] (tableOf [⟨net8, .blackhole⟩])
    (by simp [repeatedThenOnce])).1 ⟨net8.pref, 8⟩
  revert hc
  decide

end Ucentral.Router
