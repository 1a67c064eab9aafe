import Ucentral.Router.Walk

/-! A call of `config_router_apply` in which requests fail.

    A refused create ends the call: the entries before it in key order are on the switch, those behind
    it are not, and the cached table stays the old one. A refused remove goes unnoticed. Seen at one
    prefix, a call that comes to it does this:

        cached   configured   sent               on the switch afterwards
        -        n            create n           n, unless refused
        o        n            remove, create n   n, unless refused
        o        -            remove             nothing, unless refused
        o        o            nothing            what was there -/

namespace Ucentral.Router
open Inet Merge Effect Plat

/-! ### The switch -/

/-- A map of routes, and which requests are granted for the time being. -/
structure FaultyDev where
  tbl : IpPrefix → Option RouteAttrs
  grants : Op → Bool

def faultyRequest (op : Op) (d : FaultyDev) : Bool × FaultyDev :=
  (d.grants op, if d.grants op then { d with tbl := routeEffect d.tbl op } else d)

/-- The switch of these runs; the route stage puts no queries to it. -/
def faultyDev : Dev FaultyDev where
  request := faultyRequest
  vlanList d := (none, d)
  vlanMembers d := (none, d)
  vlanErif _ d := (none, d)
  portList d := (none, d)
  dacHosts d := (none, d)
  radiusHosts d := (none, d)

theorem faultyRequest_grants (op : Op) (d : FaultyDev) :
    (faultyRequest op d).2.grants = d.grants := by
  unfold faultyRequest
  split <;> rfl

theorem faultyRequest_tbl (op : Op) (d : FaultyDev) :
    (faultyRequest op d).2.tbl = if d.grants op then routeEffect d.tbl op else d.tbl := by
  unfold faultyRequest
  split <;> rfl

/-- This switch keeps routes; it is willing while it grants everything. -/
def faultySwitch : RouteSwitch FaultyDev where
  dev := faultyDev
  tbl d := d.tbl
  willing d := ∀ op, d.grants op = true
  effect op d h := (faultyRequest_tbl op d).trans (if_pos h)
  willing_granted op _ h := h op
  willing_step op d h := by
    intro op'
    exact (congrFun (faultyRequest_grants op d) op').trans (h op')

abbrev FaultySt := St FaultyDev

/-- One call: the table of its configuration, and which of its requests are granted. No request is made
    twice in a call if no prefix is repeated (`CallLeaves.once`). -/
structure RouteTry where
  table : Table
  grants : Op → Bool

/-- The switch as the call meets it. -/
def meet (s : FaultySt) (c : RouteTry) : FaultySt :=
  { s with state := { s.state with dev := { s.state.dev with grants := c.grants } } }

/-- What the call returns, and what it leaves. -/
def tryRoutes (qs : Qsort) (s : FaultySt) (c : RouteTry) : Except ℤ Unit × FaultySt :=
  configRouterApply qs faultyDev { router := c.table } (meet s c)

/-! ### One edit -/

/-- The route of a node is of a kind that can be created, and its create is granted. -/
def Creates (grants : Op → Bool) (n : FibNode) : Bool :=
  n.gattr.any fun a => grants (.routeCreate n.gpref a)

/-- The edit does not end the call. -/
def Passes (grants : Op → Bool) : Edit FibNode → Prop
  | .upd n o => n.info = o.info ∨ Creates grants n = true
  | .add n => Creates grants n = true
  | .del _ => True

/-- What a remove leaves of what was there, and what a create leaves. -/
def removed (grants : Op → Bool) (p : IpPrefix) (cur : Option RouteAttrs) : Option RouteAttrs :=
  if grants (.routeRemove p) then none else cur

def created (grants : Op → Bool) (n : FibNode) (cur : Option RouteAttrs) : Option RouteAttrs :=
  if Creates grants n then n.gattr else cur

/-- What an edit leaves at its prefix, also if it ends the call. -/
def leaves (grants : Op → Bool) (cur : Option RouteAttrs) : Edit FibNode → Option RouteAttrs
  | .upd n o => if n.info = o.info then cur else created grants n (removed grants n.gpref cur)
  | .add n => created grants n cur
  | .del o => removed grants o.gpref cur

/-- The prefix that a request of the route stage is about. -/
def prefixOf : Op → Option IpPrefix
  | .routeCreate p _ => some p
  | .routeRemove p => some p
  | _ => none

/-- What the walk through `es` does: it ends at `t` with result `r`, having recorded `l`. An edit is
    reached if no edit that ends the call comes before it. -/
structure Tried (es : List (Edit FibNode)) (s : FaultySt) (r : Except ℤ Unit) (t : FaultySt)
    (l : List (Op × Bool)) : Prop where
  log : t.log = s.log ++ l
  cache : t.state.cache = s.state.cache
  grants : t.state.dev.grants = s.state.dev.grants
  result : r = .ok () ↔ ∀ e ∈ es, Passes s.state.dev.grants e
  reached : ∀ e ∈ es, (∀ e' ∈ es, ¬ Passes s.state.dev.grants e' → e.entry.rank ≤ e'.entry.rank) →
    t.state.dev.tbl e.entry.gpref = leaves s.state.dev.grants (s.state.dev.tbl e.entry.gpref) e
  beyond : ∀ p, (∀ e ∈ es, e.entry.gpref = p →
      ∃ e' ∈ es, ¬ Passes s.state.dev.grants e' ∧ e'.entry.rank < e.entry.rank) →
    t.state.dev.tbl p = s.state.dev.tbl p
  asked : ∀ x ∈ l, x.2 = s.state.dev.grants x.1
  about : ∀ x ∈ l, ∃ e ∈ es, prefixOf x.1 = some e.entry.gpref
  once : (l.map Prod.fst).Nodup
  sent : r = .ok () → ∀ o, .del o ∈ es → (.routeRemove o.gpref) ∈ l.map Prod.fst

theorem exists_gattr_of_creates {grants : Op → Bool} {n : FibNode}
    (h : Creates grants n = true) : ∃ a, n.gattr = some a := by
  rw [Creates, Option.any_eq_true] at h
  exact h.imp fun _ ha => ha.1

theorem creates_of_gattr {grants : Op → Bool} {n : FibNode} {a : RouteAttrs}
    (h : n.gattr = some a) : Creates grants n = grants (.routeCreate n.gpref a) := by
  rw [Creates, h, Option.any_some]

/-- A piece of the walk that puts `v` at the prefix `p` and ends well if `ok`. -/
structure Puts (p : IpPrefix) (v : Option RouteAttrs) (ok : Prop) (s : FaultySt)
    (r : Except ℤ Unit) (t : FaultySt) (l : List (Op × Bool)) : Prop where
  log : t.log = s.log ++ l
  cache : t.state.cache = s.state.cache
  grants : t.state.dev.grants = s.state.dev.grants
  result : r = .ok () ↔ ok
  tbl : t.state.dev.tbl = Function.update s.state.dev.tbl p v
  asked : ∀ x ∈ l, x.2 = s.state.dev.grants x.1
  about : ∀ x ∈ l, prefixOf x.1 = some p
  once : (l.map Prod.fst).Nodup

theorem nodup_append_fst {l l' : List (Op × Bool)} (h : (l.map Prod.fst).Nodup)
    (h' : (l'.map Prod.fst).Nodup) (hne : ∀ x ∈ l, ∀ y ∈ l', x.1 ≠ y.1) :
    ((l ++ l').map Prod.fst).Nodup := by
  rw [List.map_append, List.nodup_append]
  refine ⟨h, h', fun op hop op' hop' => ?_⟩
  obtain ⟨x, hx, rfl⟩ := List.mem_map.mp hop
  obtain ⟨y, hy, rfl⟩ := List.mem_map.mp hop'
  exact hne x hx y hy

theorem Puts.at {p : IpPrefix} {v : Option RouteAttrs} {ok : Prop} {s t : FaultySt}
    {r : Except ℤ Unit} {l : List (Op × Bool)} (h : Puts p v ok s r t l) :
    t.state.dev.tbl p = v := by
  rw [h.tbl, Function.update_self]

theorem Puts.andThen {p : IpPrefix} {v w : Option RouteAttrs} {ok ok' : Prop} {s t u : FaultySt}
    {r : Except ℤ Unit} {l l' : List (Op × Bool)} (h : Puts p v ok s (.ok ()) t l)
    (h' : Puts p w ok' t r u l') (hne : ∀ x ∈ l, ∀ y ∈ l', x.1 ≠ y.1) :
    Puts p w ok' s r u (l ++ l') where
  log := by rw [h'.log, h.log, List.append_assoc]
  cache := h'.cache.trans h.cache
  grants := h'.grants.trans h.grants
  result := h'.result
  tbl := by rw [h'.tbl, h.tbl, Function.update_idem]
  asked := by
    intro x hx
    rcases List.mem_append.mp hx with hx | hx
    · exact h.asked x hx
    · rw [← h.grants]
      exact h'.asked x hx
  about := by
    intro x hx
    exact (List.mem_append.mp hx).elim (h.about x) (h'.about x)
  once := nodup_append_fst h.once h'.once hne

/-- Nothing is done at a prefix that stays as it is. -/
theorem puts_nothing (p : IpPrefix) (s : FaultySt) {r : Except ℤ Unit} {ok : Prop}
    (h : r = .ok () ↔ ok) : Puts p (s.state.dev.tbl p) ok s r s [] where
  log := (List.append_nil _).symm
  cache := rfl
  grants := rfl
  result := h
  tbl := (Function.update_eq_self p _).symm
  asked := fun _ hx => absurd hx List.not_mem_nil
  about := fun _ hx => absurd hx List.not_mem_nil
  once := List.nodup_nil

/-- A request that concerns the prefix `p`. -/
theorem puts_request {op : Op} {p : IpPrefix} {s : FaultySt} {v : Option RouteAttrs} {ok : Prop}
    {r : Except ℤ Unit} (hp : prefixOf op = some p) (hr : r = .ok () ↔ ok)
    (hv : (if s.state.dev.grants op then routeEffect s.state.dev.tbl op else s.state.dev.tbl) =
      Function.update s.state.dev.tbl p v) :
    Puts p v ok s r (afterRequest faultySwitch op s) [(op, s.state.dev.grants op)] where
  log := rfl
  cache := rfl
  grants := faultyRequest_grants op s.state.dev
  result := hr
  tbl := (faultyRequest_tbl op s.state.dev).trans hv
  asked := by simp
  about := by simp [hp]
  once := List.nodup_singleton _

theorem puts_remove (p : IpPrefix) (s : FaultySt) :
    Puts p (removed s.state.dev.grants p (s.state.dev.tbl p)) True s (.ok ())
      (afterRequest faultySwitch (.routeRemove p) s)
      [(.routeRemove p, s.state.dev.grants (.routeRemove p))] := by
  refine puts_request rfl (iff_of_true rfl trivial) ?_
  unfold removed
  split
  · rfl
  · exact (Function.update_eq_self p _).symm

theorem puts_create (n : FibNode) (s : FaultySt) :
    ∃ l, Puts n.gpref (created s.state.dev.grants n (s.state.dev.tbl n.gpref))
      (Creates s.state.dev.grants n = true) s (createNode faultyDev n s).1
      (createNode faultyDev n s).2 l ∧ ∀ x ∈ l, ∃ a, x.1 = .routeCreate n.gpref a := by
  rw [show createNode faultyDev n s = _ from createNode_run faultySwitch n s]
  cases ha : n.gattr with
  | none =>
    have hno : Creates s.state.dev.grants n = false := by rw [Creates, ha, Option.any_none]
    rw [created, hno]
    exact ⟨[], puts_nothing n.gpref s (by simp), by simp⟩
  | some a =>
    rw [created, creates_of_gattr ha, ha]
    refine ⟨_, puts_request rfl ?_ ?_, by simp⟩
    · change (if s.state.dev.grants _ = true then _ else _) = _ ↔ _
      by_cases hg : s.state.dev.grants (.routeCreate n.gpref a) = true <;> simp [hg]
    · by_cases hg : s.state.dev.grants (.routeCreate n.gpref a) = true
      · rw [if_pos hg, if_pos hg]
        rfl
      · rw [if_neg hg, if_neg hg, Function.update_eq_self]

theorem puts_applyEdit (e : Edit FibNode) (s : FaultySt) :
    ∃ l, Puts e.entry.gpref (leaves s.state.dev.grants (s.state.dev.tbl e.entry.gpref) e)
        (Passes s.state.dev.grants e) s (applyEdit faultyDev e s).1 (applyEdit faultyDev e s).2 l ∧
      ∀ o, e = .del o → .routeRemove o.gpref ∈ l.map Prod.fst := by
  cases e with
  | del o =>
    have hrun : applyEdit faultyDev (.del o) s = _ := ignore_remove_run faultySwitch o.gpref s
    rw [hrun]
    refine ⟨_, puts_remove o.gpref s, ?_⟩
    rintro o' ⟨⟩
    simp
  | add n =>
    obtain ⟨l, hl, -⟩ := puts_create n s
    exact ⟨l, hl, by simp⟩
  | upd n o =>
    rw [applyEdit]
    by_cases h : n.info = o.info
    · rw [if_pos ((fibInfoCmp_eq_zero_iff _ _).mpr h), leaves, if_pos h]
      exact ⟨[], puts_nothing _ s (iff_of_true rfl (Or.inl h)), by simp⟩
    · rw [if_neg (fun hc => h ((fibInfoCmp_eq_zero_iff _ _).mp hc)), leaves, if_neg h]
      have hrun : Prog.ignore (gnmaRouteRemove faultyDev 0 (routerFibKey2gnmaPrefix n.key)) s =
          (.ok (), afterRequest faultySwitch (.routeRemove n.gpref) s) :=
        ignore_remove_run faultySwitch n.gpref s
      rw [Prog.bind_run_ok hrun]
      have hrem := puts_remove n.gpref s
      obtain ⟨l, hl, hcreate⟩ :=
        puts_create n (afterRequest faultySwitch (.routeRemove n.gpref) s)
      rw [hrem.at, hrem.grants] at hl
      have hpass : Passes s.state.dev.grants (.upd n o) ↔ Creates s.state.dev.grants n = true :=
        or_iff_right h
      rw [hpass]
      refine ⟨_, hrem.andThen hl fun x hx y hy => ?_, by simp⟩
      obtain ⟨a, ha⟩ := hcreate y hy
      rw [List.mem_singleton.mp hx, ha]
      simp

/-! ### The walk -/

/-- The edits come in key order, each for a prefix of its own. -/
abbrev InOrder (es : List (Edit FibNode)) : Prop := Strict (Edit.keyOf FibNode.rank) es

theorem gpref_ne_of_lt {e e' : Edit FibNode} (h : e.entry.rank < e'.entry.rank) :
    e.entry.gpref ≠ e'.entry.gpref :=
  fun he => h.ne ((FibNode.gpref_eq_iff _ _).mp he)

theorem tried_nil (s : FaultySt) : Tried [] s (.ok ()) s [] where
  log := (List.append_nil _).symm
  cache := rfl
  grants := rfl
  result := by simp
  reached := by simp
  beyond := fun _ _ => rfl
  asked := by simp
  about := by simp
  once := List.nodup_nil
  sent := by simp

/-- An edit that ends the call: those behind it are not reached. -/
theorem tried_stop {e : Edit FibNode} {es : List (Edit FibNode)} (ho : InOrder (e :: es))
    {s t : FaultySt} {c : ℤ} {l : List (Op × Bool)}
    (h : Puts e.entry.gpref (leaves s.state.dev.grants (s.state.dev.tbl e.entry.gpref) e)
      (Passes s.state.dev.grants e) s (.error c) t l) : Tried (e :: es) s (.error c) t l := by
  have hlt : ∀ e' ∈ es, e.entry.rank < e'.entry.rank := (List.pairwise_cons.mp ho).1
  have hstop : ¬ Passes s.state.dev.grants e := by simpa using h.result.not
  refine ⟨h.log, h.cache, h.grants, ?_, ?_, ?_, h.asked, ?_, h.once, by simp⟩
  · exact iff_of_false (by simp) fun hall => hstop (hall e (List.mem_cons_self ..))
  · intro e' he' hfirst
    rcases List.mem_cons.mp he' with rfl | he'
    · exact h.at
    · exact absurd (hfirst e (List.mem_cons_self ..) hstop) (hlt e' he').not_ge
  · intro p hp
    rw [h.tbl, Function.update_of_ne]
    rintro rfl
    obtain ⟨e', he', -, hbefore⟩ := hp e (List.mem_cons_self ..) rfl
    rcases List.mem_cons.mp he' with rfl | he'
    · exact lt_irrefl _ hbefore
    · exact lt_asymm (hlt e' he') hbefore
  · exact fun x hx => ⟨e, List.mem_cons_self .., h.about x hx⟩

/-- An edit that does not end the call, and the walk after it. -/
theorem tried_cons {e : Edit FibNode} {es : List (Edit FibNode)} (ho : InOrder (e :: es))
    {s t u : FaultySt} {r : Except ℤ Unit} {l l' : List (Op × Bool)}
    (h : Puts e.entry.gpref (leaves s.state.dev.grants (s.state.dev.tbl e.entry.gpref) e)
      (Passes s.state.dev.grants e) s (.ok ()) t l)
    (hdel : ∀ o, e = .del o → .routeRemove o.gpref ∈ l.map Prod.fst)
    (h' : Tried es t r u l') : Tried (e :: es) s r u (l ++ l') := by
  have hlt : ∀ e' ∈ es, e.entry.rank < e'.entry.rank := (List.pairwise_cons.mp ho).1
  have hpass : Passes s.state.dev.grants e := h.result.mp rfl
  have hresult := h'.result
  have hreached := h'.reached
  have hbeyond := h'.beyond
  have hasked := h'.asked
  rw [h.grants] at hresult hreached hbeyond hasked
  refine ⟨by rw [h'.log, h.log, List.append_assoc], h'.cache.trans h.cache,
    h'.grants.trans h.grants, ?_, ?_, ?_, ?_, ?_, ?_, ?_⟩
  · rw [hresult, List.forall_mem_cons]
    exact (and_iff_right hpass).symm
  · intro e' he' hfirst
    rcases List.mem_cons.mp he' with rfl | he'
    · -- the rest of the walk is about other prefixes
      rw [hbeyond, h.at]
      intro e'' he'' hp
      exact absurd hp (gpref_ne_of_lt (hlt e'' he'')).symm
    · rw [hreached e' he' fun e'' he'' => hfirst e'' (List.mem_cons_of_mem _ he''), h.tbl,
        Function.update_of_ne (gpref_ne_of_lt (hlt e' he')).symm]
  · intro p hp
    have hne : e.entry.gpref ≠ p := by
      rintro rfl
      obtain ⟨e', he', hstop, hbefore⟩ := hp e (List.mem_cons_self ..) rfl
      rcases List.mem_cons.mp he' with rfl | he'
      · exact lt_irrefl _ hbefore
      · exact lt_asymm (hlt e' he') hbefore
    rw [hbeyond, h.tbl, Function.update_of_ne hne.symm]
    intro e' he' hpe
    obtain ⟨e'', he'', hstop, hbefore⟩ := hp e' (List.mem_cons_of_mem _ he') hpe
    rcases List.mem_cons.mp he'' with rfl | he''
    · exact absurd hpass hstop
    · exact ⟨e'', he'', hstop, hbefore⟩
  · intro x hx
    exact (List.mem_append.mp hx).elim (h.asked x) (hasked x)
  · intro x hx
    rcases List.mem_append.mp hx with hx | hx
    · exact ⟨e, List.mem_cons_self .., h.about x hx⟩
    · obtain ⟨e', he', hp⟩ := h'.about x hx
      exact ⟨e', List.mem_cons_of_mem _ he', hp⟩
  · -- the requests of the rest are about other prefixes
    refine nodup_append_fst h.once h'.once fun x hx y hy hxy => ?_
    obtain ⟨e', he', hp⟩ := h'.about y hy
    rw [← hxy, h.about x hx] at hp
    exact gpref_ne_of_lt (hlt e' he') (Option.some.inj hp)
  · intro hr o hmem
    rw [List.map_append, List.mem_append]
    rcases List.mem_cons.mp hmem with he | hmem
    · exact Or.inl (hdel o he.symm)
    · exact Or.inr (h'.sent hr o hmem)

/-- The loop over the edits: by induction along the walk. -/
theorem tried_forM : ∀ (es : List (Edit FibNode)), InOrder es → ∀ s : FaultySt,
    ∃ l, Tried es s (forM es (applyEdit faultyDev) s).1 (forM es (applyEdit faultyDev) s).2 l
  | [], _, s => ⟨[], tried_nil s⟩
  | e :: es, ho, s => by
      obtain ⟨l, hl, hdel⟩ := puts_applyEdit e s
      rw [List.forM_cons]
      rcases he : applyEdit faultyDev e s with ⟨c | _, t⟩
      · rw [he] at hl
        rw [Prog.bind_run_error he]
        exact ⟨l, tried_stop ho hl⟩
      · rw [he] at hl
        rw [Prog.bind_run_ok he]
        obtain ⟨l', hl'⟩ := tried_forM es (List.pairwise_cons.mp ho).2 t
        exact ⟨l ++ l', tried_cons ho hl hdel hl'⟩

/-! ### What a call does at one prefix -/

/-- No prefix occurs twice. -/
def DistinctPrefixes (ns : List FibNode) : Prop := (ns.map FibNode.gpref).Nodup

/-- The route of a table for a prefix. -/
def routeAt (r : Table) (p : IpPrefix) : Option FibNode := r.arr.find? (·.gpref = p)

/-- The call has something to do at the prefix. -/
def Touches (old new : Table) (p : IpPrefix) : Prop := routeAt new p ≠ routeAt old p

/-- Each entry that the table in force does not have can be created. -/
def Completes (old : Table) (c : RouteTry) : Prop :=
  ∀ n ∈ c.table.arr, n ∉ old.arr → Creates c.grants n = true

instance (old : Table) (c : RouteTry) : Decidable (Completes old c) :=
  inferInstanceAs (Decidable (∀ n ∈ c.table.arr, n ∉ old.arr → Creates c.grants n = true))

/-- An entry before the prefix in key order cannot be created, so the call does not come to it. -/
def Stops (old : Table) (c : RouteTry) (p : IpPrefix) : Prop :=
  ∃ n ∈ c.table.arr, n ∉ old.arr ∧ Creates c.grants n = false ∧ n.rank < prefixRank p

/-- The table in force after the call. -/
def nextInForce (old : Table) (c : RouteTry) : Table := if Completes old c then c.table else old

/-- What the call leaves at a prefix it comes to. -/
def settled (grants : Op → Bool) (p : IpPrefix) (new old : Option FibNode)
    (cur : Option RouteAttrs) : Option RouteAttrs :=
  let cur := if old.isSome then removed grants p cur else cur
  new.elim cur fun n => created grants n cur

theorem DistinctPrefixes.perm {ns ms : List FibNode} (h : DistinctPrefixes ns) (hp : ms.Perm ns) :
    DistinctPrefixes ms :=
  (hp.map FibNode.gpref).nodup_iff.mpr h

theorem DistinctPrefixes.eq {ns : List FibNode} (h : DistinctPrefixes ns) {m n : FibNode}
    (hm : m ∈ ns) (hn : n ∈ ns) (he : m.rank = n.rank) : m = n :=
  List.inj_on_of_nodup_map h hm hn ((FibNode.gpref_eq_iff m n).mpr he)

theorem DistinctPrefixes.strict {ns : List FibNode} (h : DistinctPrefixes ns)
    (hs : Sorted FibNode.rank ns) : Strict FibNode.rank ns := by
  have hne : ns.Pairwise fun m n => m.gpref ≠ n.gpref := List.pairwise_map.mp h
  refine (hs.and hne).imp fun {m n} hmn => lt_of_le_of_ne hmn.1 fun he => ?_
  exact hmn.2 ((FibNode.gpref_eq_iff m n).mpr he)

theorem routeAt_eq_none_iff {r : Table} {p : IpPrefix} :
    routeAt r p = none ↔ ∀ n ∈ r.arr, n.rank ≠ prefixRank p := by
  simp [routeAt, gpref_eq_iff]

theorem routeAt_eq_some_iff {r : Table} (h : DistinctPrefixes r.arr) {p : IpPrefix} {n : FibNode} :
    routeAt r p = some n ↔ n ∈ r.arr ∧ n.rank = prefixRank p := by
  constructor
  · intro hr
    have hp : n.gpref = p := by simpa using List.find?_some hr
    exact ⟨List.mem_of_find?_eq_some hr, (gpref_eq_iff n p).mp hp⟩
  · rintro ⟨hn, hp⟩
    cases hr : routeAt r p with
    | none => exact absurd hp (routeAt_eq_none_iff.mp hr n hn)
    | some m =>
      have hm : m.gpref = p := by simpa using List.find?_some hr
      rw [h.eq (List.mem_of_find?_eq_some hr) hn (((gpref_eq_iff m p).mp hm).trans hp.symm)]

/-- The entries of a table in key order, no prefix twice. -/
structure Ordered (r : Table) (ns : List FibNode) : Prop where
  perm : ns.Perm r.arr
  strict : Strict FibNode.rank ns
  distinct : DistinctPrefixes r.arr

theorem ordered_of_sorted {r : Table} {ns : List FibNode} (hp : ns.Perm r.arr)
    (hs : Sorted FibNode.rank ns) (hd : DistinctPrefixes r.arr) : Ordered r ns :=
  ⟨hp, (hd.perm hp).strict hs, hd⟩

theorem Ordered.mem_iff {r : Table} {ns : List FibNode} (h : Ordered r ns) {n : FibNode} :
    n ∈ ns ↔ n ∈ r.arr :=
  h.perm.mem_iff

theorem Ordered.eq {r : Table} {ns : List FibNode} (h : Ordered r ns) {m n : FibNode} (hm : m ∈ ns)
    (hn : n ∈ ns) (he : m.rank = n.rank) : m = n :=
  h.distinct.eq (h.mem_iff.mp hm) (h.mem_iff.mp hn) he

theorem Ordered.routeAt_some {r : Table} {ns : List FibNode} (h : Ordered r ns) {n : FibNode}
    {p : IpPrefix} (hn : n ∈ ns) (hk : n.rank = prefixRank p) : routeAt r p = some n :=
  (routeAt_eq_some_iff h.distinct).mpr ⟨h.mem_iff.mp hn, hk⟩

theorem Ordered.routeAt_none {r : Table} {ns : List FibNode} (h : Ordered r ns) {p : IpPrefix}
    (hne : ∀ n ∈ ns, n.rank ≠ prefixRank p) : routeAt r p = none :=
  routeAt_eq_none_iff.mpr fun n hn => hne n (h.mem_iff.mpr hn)

theorem FibNode.eq_of_rank {m n : FibNode} (hk : m.rank = n.rank) (hi : m.info = n.info) :
    m = n := by
  rcases m with ⟨k, i⟩
  rcases n with ⟨l, j⟩
  rw [FibKey.rank_injective (show k.rank = l.rank from hk), show i = j from hi]

section OneCall

variable {old : Table} {c : RouteTry} {news olds : List FibNode}

/-- The edits that end a call are those of the entries that are new and cannot be created. -/
theorem stop_iff (hn : Ordered c.table news) (ho : Ordered old olds) (Q : ℤ ×ₗ ℕ → Prop) :
    (∃ e ∈ diff fibNodeKeyCmpCb news olds, ¬ Passes c.grants e ∧ Q e.entry.rank) ↔
      ∃ n ∈ c.table.arr, n ∉ old.arr ∧ Creates c.grants n = false ∧ Q n.rank := by
  simp only [← hn.mem_iff, ← ho.mem_iff]
  constructor
  · rintro ⟨e, he, hstop, hq⟩
    have hfits := fits_of_mem_diff fibNodeKeyCmpCb_reflects hn.strict ho.strict he
    cases e with
    | upd n o =>
      obtain ⟨hmem, hmem', hkey⟩ := hfits
      obtain ⟨hinfo, hno⟩ := not_or.mp hstop
      refine ⟨n, hmem, fun h => hinfo ?_, by simpa using hno, hq⟩
      rw [ho.eq h hmem' hkey]
    | add n => exact ⟨n, hfits.1, fun h => hfits.2 n h rfl, by simpa [Passes] using hstop, hq⟩
    | del o => exact absurd trivial hstop
  · rintro ⟨n, hmem, hnot, hno, hq⟩
    rcases filter_diff fibNodeKeyCmpCb_reflects hn.strict ho.strict n.rank with
      ⟨hnone, -, -⟩ | ⟨e, hk, hfits, hone⟩
    · exact absurd rfl (hnone n hmem)
    · have he : e ∈ diff fibNodeKeyCmpCb news olds :=
        List.mem_of_mem_filter (hone ▸ List.mem_singleton_self e)
      cases e with
      | upd m o =>
        obtain ⟨hm, ho', hkey⟩ := hfits
        obtain rfl := hn.eq hm hmem hk
        refine ⟨_, he, ?_, hq⟩
        rintro (hinfo | hyes)
        · exact hnot (FibNode.eq_of_rank hkey hinfo ▸ ho')
        · rw [hno] at hyes
          cases hyes
      | add m =>
        obtain rfl := hn.eq hfits.1 hmem hk
        exact ⟨_, he, by simp [Passes, hno], hq⟩
      | del o => exact absurd hk.symm (hfits.2 n hmem)

/-- The edits at a prefix: none if no table has a route for it, else one, which leaves what is
    settled where the tables differ and what was there where they agree. -/
theorem edit_at (hn : Ordered c.table news) (ho : Ordered old olds) (p : IpPrefix)
    (cur : Option RouteAttrs) :
    (¬ Touches old c.table p ∧ ∀ e ∈ diff fibNodeKeyCmpCb news olds, e.entry.gpref ≠ p) ∨
    ∃ e ∈ diff fibNodeKeyCmpCb news olds, e.entry.gpref = p ∧
      (¬ Touches old c.table p → leaves c.grants cur e = cur) ∧
      (Touches old c.table p →
        leaves c.grants cur e = settled c.grants p (routeAt c.table p) (routeAt old p) cur ∧
        (routeAt c.table p = none → ∃ o, e = .del o)) := by
  rcases filter_diff fibNodeKeyCmpCb_reflects hn.strict ho.strict (prefixRank p) with
    ⟨hnews, holds, hnil⟩ | ⟨e, hk, hfits, hone⟩
  · refine Or.inl ⟨fun h => h ?_, fun e he hp => ?_⟩
    · rw [hn.routeAt_none hnews, ho.routeAt_none holds]
    · exact filter_eq_nil hnil e he ((gpref_eq_iff e.entry p).mp hp)
  · have hp : e.entry.gpref = p := (gpref_eq_iff e.entry p).mpr hk
    refine Or.inr ⟨e, List.mem_of_mem_filter (hone ▸ List.mem_singleton_self e), hp, ?_⟩
    cases e with
    | upd n o =>
      obtain ⟨hmem, hmem', hkey⟩ := hfits
      rw [Touches, hn.routeAt_some hmem hk, ho.routeAt_some hmem' (hkey.symm.trans hk)]
      refine ⟨fun h => ?_, fun h => ⟨?_, by simp⟩⟩
      · have hno : n = o := by simpa using h
        rw [leaves, if_pos (by rw [hno])]
      · have hinfo : n.info ≠ o.info := fun hi => h (by rw [FibNode.eq_of_rank hkey hi])
        rw [leaves, if_neg hinfo, show n.gpref = p from hp]
        rfl
    | add n =>
      have hro := ho.routeAt_none fun o hmem he => hfits.2 o hmem (he.trans hk.symm)
      rw [Touches, hn.routeAt_some hfits.1 hk, hro]
      exact ⟨fun h => absurd (by simp) h, fun _ => ⟨rfl, by simp⟩⟩
    | del o =>
      have hrn := hn.routeAt_none fun n hmem he => hfits.2 n hmem (he.trans hk.symm)
      rw [Touches, hrn, ho.routeAt_some hfits.1 hk]
      refine ⟨fun h => absurd (by simp) h, fun _ => ⟨?_, fun _ => ⟨o, rfl⟩⟩⟩
      rw [leaves, show o.gpref = p from hp]
      rfl

variable {s t : FaultySt} {r : Except ℤ Unit} {l : List (Op × Bool)}

theorem tried_returns (hn : Ordered c.table news) (ho : Ordered old olds)
    (hg : s.state.dev.grants = c.grants)
    (h : Tried (diff fibNodeKeyCmpCb news olds) s r t l) : r = .ok () ↔ Completes old c := by
  have hany := (stop_iff hn ho fun _ => True).not
  simp only [and_true, not_exists, not_and, not_not, Bool.not_eq_false] at hany
  rw [h.result, hg]
  exact hany

/-- An edit is reached if the call does not stop before its prefix. -/
theorem le_of_not_stops (hn : Ordered c.table news) (ho : Ordered old olds) {e : Edit FibNode}
    (hno : ¬ Stops old c e.entry.gpref) :
    ∀ e' ∈ diff fibNodeKeyCmpCb news olds, ¬ Passes c.grants e' → e.entry.rank ≤ e'.entry.rank := by
  intro e' he' hfail
  rw [(gpref_eq_iff e.entry _).mp rfl]
  by_contra hlt
  exact hno ((stop_iff hn ho (· < prefixRank e.entry.gpref)).mp ⟨e', he', hfail, not_le.mp hlt⟩)

theorem tried_kept (hn : Ordered c.table news) (ho : Ordered old olds)
    (hg : s.state.dev.grants = c.grants) (h : Tried (diff fibNodeKeyCmpCb news olds) s r t l)
    {p : IpPrefix} (hp : Touches old c.table p → Stops old c p) :
    t.state.dev.tbl p = s.state.dev.tbl p := by
  have hbeyond := h.beyond p
  have hreached := h.reached
  rw [hg] at hbeyond hreached
  by_cases hstops : Stops old c p
  · refine hbeyond fun e _ hpe => ?_
    obtain ⟨e', he', hfail, hlt⟩ := (stop_iff hn ho (· < prefixRank p)).mpr hstops
    exact ⟨e', he', hfail, (gpref_eq_iff e.entry p).mp hpe ▸ hlt⟩
  · have hsame : ¬ Touches old c.table p := fun ht => hstops (hp ht)
    rcases edit_at hn ho p (s.state.dev.tbl p) with ⟨-, hnone⟩ | ⟨e, he, rfl, hkeep, -⟩
    · exact hbeyond fun e he hpe => absurd hpe (hnone e he)
    · exact (hreached e he (le_of_not_stops hn ho hstops)).trans (hkeep hsame)

theorem tried_changed (hn : Ordered c.table news) (ho : Ordered old olds)
    (hg : s.state.dev.grants = c.grants) (h : Tried (diff fibNodeKeyCmpCb news olds) s r t l)
    {p : IpPrefix} (hp : Touches old c.table p) (hno : ¬ Stops old c p) :
    t.state.dev.tbl p =
      settled c.grants p (routeAt c.table p) (routeAt old p) (s.state.dev.tbl p) := by
  have hreached := h.reached
  rw [hg] at hreached
  rcases edit_at hn ho p (s.state.dev.tbl p) with ⟨hsame, -⟩ | ⟨e, he, rfl, -, hset⟩
  · exact absurd hp hsame
  · exact (hreached e he (le_of_not_stops hn ho hno)).trans (hset hp).1

theorem tried_removes (hn : Ordered c.table news) (ho : Ordered old olds)
    (hg : s.state.dev.grants = c.grants) (h : Tried (diff fibNodeKeyCmpCb news olds) s r t l)
    (hr : r = .ok ()) (hl : ∀ x ∈ l, x.2 = true) {p : IpPrefix} (hp : Touches old c.table p)
    (hnil : routeAt c.table p = none) : c.grants (.routeRemove p) = true := by
  rcases edit_at hn ho p none with ⟨hsame, -⟩ | ⟨e, he, rfl, -, hset⟩
  · exact absurd hp hsame
  · obtain ⟨o, rfl⟩ := (hset hp).2 hnil
    obtain ⟨x, hx, hop⟩ := List.mem_map.mp (h.sent hr o he)
    have hgrant := h.asked x hx
    rw [hl x hx, hop, hg] at hgrant
    exact hgrant.symm

end OneCall

/-- One call, against the table in force before it. -/
structure CallLeaves (old : Table) (s : FaultySt) (c : RouteTry) (r : Except ℤ Unit)
    (t : FaultySt) : Prop where
  returns : r = .ok () ↔ Completes old c
  cache : t.state.cache.router.arr.Perm (nextInForce old c).arr
  kept : ∀ p, (Touches old c.table p → Stops old c p) → t.state.dev.tbl p = s.state.dev.tbl p
  changed : ∀ p, Touches old c.table p → ¬ Stops old c p → t.state.dev.tbl p =
    settled c.grants p (routeAt c.table p) (routeAt old p) (s.state.dev.tbl p)
  removes : r = .ok () → (∀ x ∈ t.log.drop s.log.length, x.2 = true) → ∀ p,
    Touches old c.table p → routeAt c.table p = none → c.grants (.routeRemove p) = true
  once : ((t.log.drop s.log.length).map Prod.fst).Nodup

theorem callLeaves_tryRoutes (qs : Qsort) {old : Table} {s : FaultySt} {c : RouteTry}
    (hcache : s.state.cache.router.arr.Perm old.arr) (hdo : DistinctPrefixes old.arr)
    (hdn : DistinctPrefixes c.table.arr) :
    CallLeaves old s c (tryRoutes qs s c).1 (tryRoutes qs s c).2 := by
  have hn : Ordered c.table (ensureSorted qs (fibDbCopy c.table)).arr :=
    ordered_of_sorted (ensureSorted_perm qs (fibDbCopy c.table)) (ensureSorted_sorted qs _) hdn
  have ho : Ordered old (ensureSorted qs s.state.cache.router).arr :=
    ordered_of_sorted ((ensureSorted_perm qs _).trans hcache) (ensureSorted_sorted qs _) hdo
  rw [show tryRoutes qs s c = _ from configRouterApply_run faultySwitch qs (meet s c) c.table]
  set s' : FaultySt := { meet s c with state := { (meet s c).state with cache :=
    { (meet s c).state.cache with
      router := sortShared qs (meet s c).state.cache.router } } } with hs'
  have hin : InOrder (callEdits qs (meet s c) c.table) :=
    strict_diff fibNodeKeyCmpCb_reflects _ _ hn.strict ho.strict
  obtain ⟨l, hl⟩ := tried_forM _ hin s'
  have hret := tried_returns hn ho rfl hl
  have hdrop : ∀ {t : FaultySt}, t.log = s.log ++ l → t.log.drop s.log.length = l := by
    intro t ht
    rw [ht]
    exact List.drop_left
  rcases hw : forM (callEdits qs (meet s c) c.table) (applyEdit faultyDev) s' with ⟨e | _, t⟩
  · rw [hw] at hl hret
    rw [show faultySwitch.dev = faultyDev from rfl, Prog.bind_run_error hw]
    have hno : ¬ Completes old c := fun h => by simpa using hret.mpr h
    have hlog : t.log.drop s.log.length = l := hdrop hl.log
    refine ⟨hret, ?_, fun _ => tried_kept hn ho rfl hl, fun _ => tried_changed hn ho rfl hl,
      by simp, hlog ▸ hl.once⟩
    rw [nextInForce, if_neg hno, hl.cache]
    exact (ensureSorted_perm qs _).trans hcache
  · rw [hw] at hl hret
    rw [show faultySwitch.dev = faultyDev from rfl, Prog.bind_run_ok hw]
    have hlog : t.log.drop s.log.length = l := hdrop hl.log
    refine ⟨hret, ?_, fun _ => tried_kept hn ho rfl hl, fun _ => tried_changed hn ho rfl hl,
      fun _ hx p => tried_removes hn ho rfl hl rfl (hlog ▸ hx), ?_⟩
    · rw [nextInForce, if_pos (hret.mp rfl)]
      exact hn.perm
    · exact (congrArg (fun l => (l.map Prod.fst).Nodup) hlog).mpr hl.once

end Ucentral.Router
