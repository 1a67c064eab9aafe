import Ucentral.Router.Runs
import Ucentral.Router.Tries
import Mathlib.Data.List.Induction

/-! Runs of `config_router_apply` in which requests fail.

    The table in force is that of the last call that returned 0; it is the one the next call compares its
    own with. A call that fails midway, or whose remove is refused, leaves the switch off that table
    at some prefixes. They stay so until a call that returns 0 has another route there than the table
    in force: only there does it send anything. -/

namespace Ucentral.Router
open Inet Merge Effect Plat Run

/-! ### What is in force, and where the switch is off it -/

def tryCall (qs : Qsort) (s : FaultySt) (c : RouteTry) : FaultySt := (tryRoutes qs s c).2

/-- A run of calls, whatever they return. -/
def tryRun (qs : Qsort) (s : FaultySt) (cs : List RouteTry) : FaultySt := cs.foldl (tryCall qs) s

/-- The table of the last call that returned 0, or the one cached at the start. -/
def inForce (start : Table) (cs : List RouteTry) : Table := cs.foldl nextInForce start

/-- The call leaves something else at the prefix than the table then in force has: it cannot remove a
    route that the table no longer has, or it fails after it has created the new route or removed the
    old one. -/
def Damages (old : Table) (c : RouteTry) (p : IpPrefix) : Prop :=
  Touches old c.table p ∧
    (Completes old c ∧ routeAt c.table p = none ∧ c.grants (.routeRemove p) = false ∨
    ¬ Completes old c ∧ ¬ Stops old c p ∧
      ((∃ n, routeAt c.table p = some n ∧ Creates c.grants n = true) ∨
        routeAt old p ≠ none ∧ c.grants (.routeRemove p) = true))

/-- The call leaves what its table has at the prefix, whatever was there. -/
def Repairs (old : Table) (c : RouteTry) (p : IpPrefix) : Prop :=
  Touches old c.table p ∧ Completes old c ∧
    (routeAt c.table p = none → c.grants (.routeRemove p) = true)

/-- Some call damaged the prefix and none after it repaired it. -/
def Damaged (start : Table) (cs : List RouteTry) (p : IpPrefix) : Prop :=
  Since nextInForce (fun old c => Damages old c p) (fun old c => Repairs old c p) start cs

/-- What a table has the switch hold at a prefix. -/
def attrAt (r : Table) (p : IpPrefix) : Option RouteAttrs := (routeAt r p).bind FibNode.gattr

/-- A prefix that is absent can be removed. -/
def RemovesAbsent (s : FaultySt) (c : RouteTry) : Prop :=
  ∀ p, s.state.dev.tbl p = none → c.grants (.routeRemove p) = true

theorem carries_iff_attrAt {r : Table} (hd : DistinctPrefixes r.arr)
    (hs : ∀ n ∈ r.arr, n.gattr.isSome) (tbl : IpPrefix → Option RouteAttrs) :
    Carries tbl r.arr ↔ ∀ p, tbl p = attrAt r p := by
  have hsome : ∀ {n : FibNode} {p : IpPrefix}, n ∈ r.arr → n.gpref = p → attrAt r p = n.gattr := by
    intro n p hn hp
    rw [attrAt, (routeAt_eq_some_iff hd).mpr ⟨hn, (gpref_eq_iff n p).mp hp⟩, Option.bind_some]
  have hnone : ∀ {p : IpPrefix}, p ∉ r.arr.map FibNode.gpref → attrAt r p = none := by
    intro p hp
    have hne : ∀ n ∈ r.arr, n.rank ≠ prefixRank p := fun n hn hk =>
      hp (List.mem_map.mpr ⟨n, hn, (gpref_eq_iff n p).mpr hk⟩)
    rw [attrAt, routeAt_eq_none_iff.mpr hne, Option.bind_none]
  constructor
  · rintro ⟨hdom, hval⟩ p
    by_cases hp : p ∈ r.arr.map FibNode.gpref
    · obtain ⟨a, ha⟩ := Option.isSome_iff_exists.mp ((hdom p).mpr hp)
      obtain ⟨n, hn, hnp, hna⟩ := hval p a ha
      rw [ha, hsome hn hnp, hna]
    · rw [hnone hp]
      exact Option.not_isSome_iff_eq_none.mp fun h => hp ((hdom p).mp h)
  · intro h
    refine ⟨fun p => ?_, fun p a ha => ?_⟩
    · by_cases hp : p ∈ r.arr.map FibNode.gpref
      · obtain ⟨n, hn, hnp⟩ := List.mem_map.mp hp
        rw [h p, hsome hn hnp]
        exact iff_of_true (hs n hn) hp
      · rw [h p, hnone hp]
        exact iff_of_false (by simp) hp
    · by_cases hp : p ∈ r.arr.map FibNode.gpref
      · obtain ⟨n, hn, hnp⟩ := List.mem_map.mp hp
        exact ⟨n, hn, hnp, by rw [← hsome hn hnp, ← h p, ha]⟩
      · rw [h p, hnone hp] at ha
        cases ha

theorem supported_of_carries {r : Table} (hd : DistinctPrefixes r.arr)
    {tbl : IpPrefix → Option RouteAttrs} (h : Carries tbl r.arr) :
    ∀ n ∈ r.arr, n.gattr.isSome := by
  intro n hn
  obtain ⟨a, ha⟩ := Option.isSome_iff_exists.mp ((h.1 n.gpref).mpr (List.mem_map_of_mem hn))
  obtain ⟨m, hm, hmp, hma⟩ := h.2 _ a ha
  rw [← hd.eq hm hn ((FibNode.gpref_eq_iff m n).mp hmp), hma]
  rfl

/-- Two routes that the switch can hold differ in what it holds. -/
theorem gattr_injective {m n : FibNode} {a : RouteAttrs} (hm : m.gattr = some a)
    (hn : n.gattr = some a) : m.info = n.info := by
  rcases m with ⟨k, i⟩
  rcases n with ⟨l, j⟩
  have h : routerFibInfo2gnmaAttr i = routerFibInfo2gnmaAttr j := hm.trans hn.symm
  have hi : routerFibInfo2gnmaAttr i ≠ none := fun hc => by simp [FibNode.gattr, hc] at hm
  cases i <;> cases j <;> simp_all [routerFibInfo2gnmaAttr]

/-! ### The step -/

section OneStep

variable {old : Table} {s t : FaultySt} {c : RouteTry} {r : Except ℤ Unit} {p : IpPrefix}

/-- At a prefix that a successful call touches, the switch has what the table has, unless a remove was
    refused. -/
theorem off_of_completes (h : CallLeaves old s c r t) (hdo : DistinctPrefixes old.arr)
    (hdn : DistinctPrefixes c.table.arr) (ha : RemovesAbsent s c) (hc : Completes old c)
    (hp : Touches old c.table p) :
    t.state.dev.tbl p ≠ attrAt c.table p ↔
      routeAt c.table p = none ∧ c.grants (.routeRemove p) = false := by
  have hno : ¬ Stops old c p := by
    rintro ⟨n, hn, hnot, hrefused, -⟩
    rw [hc n hn hnot] at hrefused
    cases hrefused
  rw [h.changed p hp hno, attrAt]
  cases hr : routeAt c.table p with
  | some n =>
    obtain ⟨hn, hk⟩ := (routeAt_eq_some_iff hdn).mp hr
    have hnot : n ∉ old.arr := fun hmem =>
      hp (hr.trans ((routeAt_eq_some_iff hdo).mpr ⟨hmem, hk⟩).symm)
    simp [settled, created, hc n hn hnot]
  | none =>
    have hold : (routeAt old p).isSome = true := by
      rw [Option.isSome_iff_ne_none]
      exact fun ho => hp (hr.trans ho.symm)
    rw [settled, if_pos hold, removed]
    by_cases hg : c.grants (.routeRemove p) = true
    · simp [hg]
    · have hthere : s.state.dev.tbl p ≠ none := fun he => hg (ha p he)
      simpa [hg] using hthere

/-- At a prefix that a failing call has come to, the switch has what the old table has if it had before
    and the call has changed nothing. -/
theorem off_of_fails (h : CallLeaves old s c r t) (hdo : DistinctPrefixes old.arr)
    (hs : ∀ n ∈ old.arr, n.gattr.isSome) (hdn : DistinctPrefixes c.table.arr)
    (hp : Touches old c.table p) (hno : ¬ Stops old c p) :
    t.state.dev.tbl p ≠ attrAt old p ↔
      ((∃ n, routeAt c.table p = some n ∧ Creates c.grants n = true) ∨
        routeAt old p ≠ none ∧ c.grants (.routeRemove p) = true) ∨
      s.state.dev.tbl p ≠ attrAt old p := by
  rw [h.changed p hp hno]
  by_cases hcreate : ∃ n, routeAt c.table p = some n ∧ Creates c.grants n = true
  · obtain ⟨n, hr, hyes⟩ := hcreate
    obtain ⟨a, hna⟩ := exists_gattr_of_creates hyes
    refine iff_of_true ?_ (Or.inl (Or.inl ⟨n, hr, hyes⟩))
    rw [hr, settled, Option.elim_some, created, if_pos hyes, hna]
    intro hold
    obtain ⟨o, ho, hoa⟩ := Option.bind_eq_some_iff.mp hold.symm
    have hkn := ((routeAt_eq_some_iff hdn).mp hr).2
    have hko := ((routeAt_eq_some_iff hdo).mp ho).2
    refine hp (hr.trans (ho.trans ?_).symm)
    rw [FibNode.eq_of_rank (hko.trans hkn.symm) (gattr_injective hoa hna)]
  · -- what is left is what the remove, if any, has left
    have hset : settled c.grants p (routeAt c.table p) (routeAt old p) (s.state.dev.tbl p) =
        if (routeAt old p).isSome then removed c.grants p (s.state.dev.tbl p)
        else s.state.dev.tbl p := by
      cases hr : routeAt c.table p with
      | none => rfl
      | some n =>
        have hrefused : ¬ Creates c.grants n = true := fun hyes => hcreate ⟨n, hr, hyes⟩
        rw [settled, Option.elim_some, created, if_neg hrefused]
    rw [hset]
    cases ho : routeAt old p with
    | none => simp [hcreate]
    | some o =>
      have hattr : attrAt old p = o.gattr := by rw [attrAt, ho, Option.bind_some]
      obtain ⟨a, hoa⟩ := Option.isSome_iff_exists.mp (hs o ((routeAt_eq_some_iff hdo).mp ho).1)
      by_cases hg : c.grants (.routeRemove p) = true
      · simp [removed, hg, hattr, hoa]
      · simp [removed, hg, hcreate]

/-- The step: after a call the switch is off the table in force where the call damages it, and where it
    was before and the call does not repair it. -/
theorem off_iff (h : CallLeaves old s c r t) (hdo : DistinctPrefixes old.arr)
    (hs : ∀ n ∈ old.arr, n.gattr.isSome) (hdn : DistinctPrefixes c.table.arr)
    (ha : RemovesAbsent s c) :
    t.state.dev.tbl p ≠ attrAt (nextInForce old c) p ↔
      Damages old c p ∨ s.state.dev.tbl p ≠ attrAt old p ∧ ¬ Repairs old c p := by
  by_cases hp : Touches old c.table p
  · by_cases hc : Completes old c
    · rw [nextInForce, if_pos hc, off_of_completes h hdo hdn ha hc hp]
      simp only [Damages, Repairs, hp, hc, true_and, not_true_eq_false, false_and, or_false]
      grind
    · rw [nextInForce, if_neg hc]
      by_cases hno : Stops old c p
      · rw [h.kept p fun _ => hno]
        simp [Damages, Repairs, hc, hno]
      · rw [off_of_fails h hdo hs hdn hp hno]
        simp only [Damages, Repairs, hp, hc, hno, true_and, false_and, false_or, not_false_eq_true,
          and_true, and_false]
  · have hsame : attrAt (nextInForce old c) p = attrAt old p := by
      rw [nextInForce]
      split
      · rw [attrAt, not_not.mp hp, attrAt]
      · rfl
    rw [h.kept p fun ht => absurd ht hp, hsame]
    simp [Damages, Repairs, hp]

end OneStep

/-! ### The run -/

/-- What holds after the calls `cs` of a run that began with the table `start` in force. -/
structure HealInv (start : Table) (cs : List RouteTry) (s : FaultySt) : Prop where
  cache : s.state.cache.router.arr.Perm (inForce start cs).arr
  distinct : DistinctPrefixes (inForce start cs).arr
  supported : ∀ n ∈ (inForce start cs).arr, n.gattr.isSome
  off : ∀ p, s.state.dev.tbl p ≠ attrAt (inForce start cs) p ↔ Damaged start cs p

theorem inForce_concat (start : Table) (cs : List RouteTry) (c : RouteTry) :
    inForce start (cs ++ [c]) = nextInForce (inForce start cs) c := by
  rw [inForce, List.foldl_concat]
  rfl

theorem healInv_start {s : FaultySt} (hd : DistinctPrefixes s.state.cache.router.arr)
    (hc : Carries s.state.dev.tbl s.state.cache.router.arr) :
    HealInv s.state.cache.router [] s where
  cache := List.Perm.refl _
  distinct := hd
  supported := supported_of_carries hd hc
  off := by
    intro p
    have hall := (carries_iff_attrAt hd (supported_of_carries hd hc) _).mp hc
    exact iff_of_false (fun h => h (hall p)) (not_since_nil _)

theorem healInv_tryCall (qs : Qsort) {start : Table} {cs : List RouteTry} {s : FaultySt}
    {c : RouteTry} (h : HealInv start cs s) (hdn : DistinctPrefixes c.table.arr)
    (ha : RemovesAbsent s c) : HealInv start (cs ++ [c]) (tryCall qs s c) := by
  have hcall := callLeaves_tryRoutes qs h.cache h.distinct hdn
  refine ⟨?_, ?_, ?_, fun p => ?_⟩
  · rw [inForce_concat]
    exact hcall.cache
  · rw [inForce_concat, nextInForce]
    split
    · exact hdn
    · exact h.distinct
  · rw [inForce_concat, nextInForce]
    split
    · next hc =>
      intro n hn
      by_cases hold : n ∈ (inForce start cs).arr
      · exact h.supported n hold
      · obtain ⟨a, hna⟩ := exists_gattr_of_creates (hc n hn hold)
        exact hna ▸ rfl
    · exact h.supported
  · rw [inForce_concat, Damaged, since_concat, ← Damaged]
    exact (off_iff hcall h.distinct h.supported hdn ha).trans
      (or_congr_right (and_congr_left' (h.off p)))

/-- The run: by induction from its end. -/
theorem healInv_tryRun (qs : Qsort) {s : FaultySt} (hd : DistinctPrefixes s.state.cache.router.arr)
    (hc : Carries s.state.dev.tbl s.state.cache.router.arr) (cs : List RouteTry)
    (hcs : ∀ c ∈ cs, DistinctPrefixes c.table.arr)
    (ha : EveryStep (tryCall qs) RemovesAbsent s cs) :
    HealInv s.state.cache.router cs (tryRun qs s cs) := by
  induction cs using List.reverseRecOn with
  | nil => exact healInv_start hd hc
  | append_singleton cs c ih =>
    obtain ⟨ha', hlast⟩ := (everyStep_concat s cs c).mp ha
    have hinv := ih (fun d hm => hcs d (List.mem_append_left _ hm)) ha'
    rw [show tryRun qs s (cs ++ [c]) = tryCall qs (tryRun qs s cs) c from List.foldl_concat ..]
    exact healInv_tryCall qs hinv (hcs c (by simp)) hlast

/-- In every run from a cached table that the switch carries, with any requests failing: a call that
    returns 0 with all its requests granted leaves exactly the routes of its table on the switch if
    and only if it touches every prefix that an earlier call damaged and none after that repaired. -/
theorem granted_call_heals_iff_touches (qs : Qsort) (s : FaultySt) (cs : List RouteTry)
    (hd : DistinctPrefixes s.state.cache.router.arr)
    (hc : Carries s.state.dev.tbl s.state.cache.router.arr)
    (hcs : ∀ c ∈ cs, DistinctPrefixes c.table.arr)
    (ha : EveryStep (tryCall qs) RemovesAbsent s cs)
    (pre : List RouteTry) (c : RouteTry) (hpre : pre ++ [c] <+: cs)
    (hok : (tryRoutes qs (tryRun qs s pre) c).1 = .ok ())
    (hlog : ∀ x ∈ (tryRun qs s (pre ++ [c])).log.drop (tryRun qs s pre).log.length,
      x.2 = true) :
    Carries (tryRun qs s (pre ++ [c])).state.dev.tbl c.table.arr ↔
      ∀ p, Damaged s.state.cache.router pre p →
        Touches (inForce s.state.cache.router pre) c.table p := by
  have hdist : ∀ d ∈ pre ++ [c], DistinctPrefixes d.table.arr := fun d hm => hcs d (hpre.subset hm)
  have ha' : EveryStep (tryCall qs) RemovesAbsent s (pre ++ [c]) :=
    fun pre' d hp => ha pre' d (hp.trans hpre)
  have hbefore := healInv_tryRun qs hd hc pre (fun d hm => hdist d (List.mem_append_left _ hm))
    ((everyStep_concat s pre c).mp ha').1
  have hafter := healInv_tryRun qs hd hc (pre ++ [c]) hdist ha'
  have hcall := callLeaves_tryRoutes qs hbefore.cache hbefore.distinct (hdist c (by simp))
  have hlast : tryRun qs s (pre ++ [c]) = (tryRoutes qs (tryRun qs s pre) c).2 :=
    List.foldl_concat ..
  have hcomp := hcall.returns.mp hok
  rw [hlast] at hlog
  -- the call itself damages nothing: none of its removes was refused
  have hremoves := hcall.removes hok hlog
  have hforce : inForce s.state.cache.router (pre ++ [c]) = c.table := by
    rw [inForce_concat, nextInForce, if_pos hcomp]
  have hsup := hafter.supported
  have hoff := hafter.off
  rw [hforce] at hsup hoff
  rw [carries_iff_attrAt (hdist c (by simp)) hsup]
  refine forall_congr' fun p => ?_
  rw [← not_iff_not, ← ne_eq, hoff p, Damaged, since_concat, ← Damaged, ← inForce]
  have hnew : ¬ Damages (inForce s.state.cache.router pre) c p := by
    rintro ⟨ht, ⟨-, hnone, hrefused⟩ | ⟨hfail, -⟩⟩
    · rw [hremoves p ht hnone] at hrefused
      cases hrefused
    · exact hfail hcomp
  have hrep : Repairs (inForce s.state.cache.router pre) c p ↔
      Touches (inForce s.state.cache.router pre) c.table p :=
    ⟨fun h => h.1, fun ht => ⟨ht, hcomp, hremoves p ht⟩⟩
  rw [or_iff_right hnew, hrep, Classical.not_imp]

/-- A cached table, and a switch holding `tbl`. -/
def faultyStart (cache : Table) (tbl : IpPrefix → Option RouteAttrs) : FaultySt :=
  ⟨⟨{ router := cache }, ⟨tbl, fun _ => true⟩⟩, []⟩

/-- A switch that leads 10.0.0.0/8 nowhere, as the cached table has it. -/
def oneRoute : FaultySt :=
  faultyStart (tableOf [⟨net8, .blackhole⟩])
    (Function.update (fun _ => none) ⟨net8.pref, 8⟩ (some .blackhole))

/-- The route gets a gateway, and there is a second one. -/
def twoRoutes : Table := tableOf [⟨net16, .blackhole⟩, ⟨net8, .nh 10 gw1⟩]

/-- The create of the second route is refused. -/
def refuseSecond : Op → Bool := fun op => op != .routeCreate ⟨net16.pref, 16⟩ .blackhole

def refused : RouteTry := ⟨twoRoutes, refuseSecond⟩

def granted (r : Table) : RouteTry := ⟨r, fun _ => true⟩

theorem distinct_refused {r : Table} (h : DistinctPrefixes r.arr) :
    ∀ c ∈ [refused, granted r], DistinctPrefixes c.table.arr := by
  have htwo : DistinctPrefixes twoRoutes.arr := by
    unfold DistinctPrefixes
    decide
  simp only [List.mem_cons, List.not_mem_nil, or_false, forall_eq_or_imp, forall_eq]
  exact ⟨htwo, h⟩

theorem removesAbsent_refused (s : FaultySt) (r : Table) :
    EveryStep (tryCall insertionQsort) RemovesAbsent s [refused, granted r] := by
  simp only [everyStep_cons, RemovesAbsent]
  exact ⟨fun p _ => rfl, fun p _ => rfl, everyStep_nil _⟩

/-- The call fails with the first route changed; the same configuration again heals. -/
theorem granted_call_heals_after_failure :
    (tryRoutes insertionQsort oneRoute refused).1 = .error (-1) ∧
    Carries (tryRun insertionQsort oneRoute ([refused] ++ [granted twoRoutes])).state.dev.tbl
      twoRoutes.arr := by
  have hone : DistinctPrefixes oneRoute.state.cache.router.arr := by
    unfold DistinctPrefixes
    decide
  have hcarries : Carries oneRoute.state.dev.tbl oneRoute.state.cache.router.arr := by
    rw [carries_iff_attrAt hone (by decide)]
    intro p
    have htbl : oneRoute.state.dev.tbl =
        Function.update (fun _ => none) ⟨net8.pref, 8⟩ (some .blackhole) := rfl
    by_cases hp : p = ⟨net8.pref, 8⟩
    · rw [hp]
      rfl
    · have hnone : routeAt oneRoute.state.cache.router p = none := by
        refine routeAt_eq_none_iff.mpr fun n hn hk => hp ?_
        rw [← (gpref_eq_iff n p).mpr hk, List.mem_singleton.mp hn]
        rfl
      rw [htbl, Function.update_of_ne hp, attrAt, hnone, Option.bind_none]
  refine ⟨by decide, ?_⟩
  refine (granted_call_heals_iff_touches insertionQsort oneRoute [refused, granted twoRoutes]
    hone hcarries (distinct_refused (by unfold DistinctPrefixes; decide))
    (removesAbsent_refused _ _) [refused] (granted twoRoutes) (by simp) (by decide)
    (by decide)).mpr ?_
  intro p hdam
  -- what the failed call has changed, the same table touches again
  have hkept : inForce oneRoute.state.cache.router [refused] = oneRoute.state.cache.router := by
    rw [inForce, List.foldl_cons, nextInForce, if_neg (by decide)]
    rfl
  rw [hkept]
  rcases (since_concat _ [] refused).mp hdam with h | ⟨h, -⟩
  · exact h.1
  · exact absurd h (not_since_nil _)

/-- Nothing is cached, and nothing is on the switch. -/
def noRoutes : FaultySt := faultyStart (fibDbAlloc 0) fun _ => none

/-- The second create fails and the next configuration has no routes: its call sends nothing,
    returns 0, and leaves the first route on the switch. -/
theorem failed_create_leaves_stray :
    DistinctPrefixes noRoutes.state.cache.router.arr ∧
    Carries noRoutes.state.dev.tbl noRoutes.state.cache.router.arr ∧
    (∀ c ∈ [refused, granted (tableOf [])], DistinctPrefixes c.table.arr) ∧
    EveryStep (tryCall insertionQsort) RemovesAbsent noRoutes [refused, granted (tableOf [])] ∧
    (tryRoutes insertionQsort (tryRun insertionQsort noRoutes [refused])
      (granted (tableOf []))).1 = .ok () ∧
    (∀ x ∈ (tryRun insertionQsort noRoutes [refused, granted (tableOf [])]).log.drop
      (tryRun insertionQsort noRoutes [refused]).log.length, x.2 = true) ∧
    ¬ Carries (tryRun insertionQsort noRoutes
      [refused, granted (tableOf [])]).state.dev.tbl (tableOf []).arr := by
  refine ⟨List.nodup_nil, ?_, distinct_refused List.nodup_nil, removesAbsent_refused _ _,
    by decide, by decide, ?_⟩
  · simp [Carries, noRoutes, faultyStart, fibDbAlloc]
  · intro h
    have hc := h.1 ⟨net8.pref, 8⟩
    revert hc
    decide

end Ucentral.Router
