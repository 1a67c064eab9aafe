import Ucentral.Router.Apply
import Mathlib.Data.List.Count

/-! The route stage against a switch that keeps static routes.

    Such a switch maps prefixes to attributes: a granted create overwrites, a granted remove deletes,
    and the other requests leave the map alone. A call that returns 0 with all its requests granted
    leaves on the switch what the edits of its walk say. Seen at one prefix, the edits are those of
    the entries of that prefix, paired up in order:

        entries of p in the new table:   n1  n2
        entries of p in the cache:       o1  o2  o3      edits at p:  upd, upd, del -/

namespace Ucentral.Router
open Inet Merge Effect Plat

variable {δ : Type}

/-- A cache and a switch, and the requests made so far. -/
abbrev St (δ : Type) := Traced (Env δ) (Op × Bool)

/-- What a granted request does to the map. -/
def routeEffect (tbl : IpPrefix → Option RouteAttrs) : Op → IpPrefix → Option RouteAttrs
  | .routeCreate p a => Function.update tbl p (some a)
  | .routeRemove p => Function.update tbl p none
  | _ => tbl

/-- A switch that keeps routes. A willing one grants every request from now on. -/
structure RouteSwitch (δ : Type) where
  dev : Dev δ
  tbl : δ → IpPrefix → Option RouteAttrs
  willing : δ → Prop
  effect : ∀ op d, (dev.request op d).1 = true → tbl (dev.request op d).2 = routeEffect (tbl d) op
  willing_granted : ∀ op d, willing d → (dev.request op d).1 = true
  willing_step : ∀ op d, willing d → willing (dev.request op d).2

/-- The prefix of a node, and the attribute it asks for. -/
def FibNode.gpref (n : FibNode) : IpPrefix := routerFibKey2gnmaPrefix n.key

def FibNode.gattr (n : FibNode) : Option RouteAttrs := routerFibInfo2gnmaAttr n.info

/-- The switch holds exactly the prefixes of the table, each with the attribute of an entry. -/
def Carries (tbl : IpPrefix → Option RouteAttrs) (ns : List FibNode) : Prop :=
  (∀ p, (tbl p).isSome ↔ p ∈ ns.map FibNode.gpref) ∧
  ∀ p a, tbl p = some a → ∃ n ∈ ns, n.gpref = p ∧ n.gattr = some a

theorem FibNode.gpref_eq_iff (m n : FibNode) : m.gpref = n.gpref ↔ m.rank = n.rank := by
  rw [FibNode.rank, FibNode.rank, FibKey.rank_injective.eq_iff]
  rcases m with ⟨⟨p, l⟩, i⟩
  rcases n with ⟨⟨q, k⟩, j⟩
  simp [FibNode.gpref, routerFibKey2gnmaPrefix]

/-! ### What the edits of a walk leave on the switch -/

/-- One edit, at the prefix it is about. -/
def editAt (cur : Option RouteAttrs) : Edit FibNode → Option RouteAttrs
  | .upd n o => if n.info = o.info then cur else n.gattr
  | .add n => n.gattr
  | .del _ => none

/-- One edit on the whole map. -/
def editEffect (tbl : IpPrefix → Option RouteAttrs) (e : Edit FibNode) :
    IpPrefix → Option RouteAttrs :=
  Function.update tbl e.entry.gpref (editAt (tbl e.entry.gpref) e)

/-- The edit does not ask for a kind of route that cannot be created. -/
def Supported : Edit FibNode → Prop
  | .upd n o => n.info = o.info ∨ n.gattr.isSome
  | .add n => n.gattr.isSome
  | .del _ => True

/-- Edits between two tables are supported if the new entries can be created. -/
theorem supported_of_gattr {news olds : List FibNode} (h : ∀ n ∈ news, n.gattr.isSome) :
    ∀ e ∈ diff fibNodeKeyCmpCb news olds, Supported e := by
  intro e he
  rcases mem_diff _ news olds he with ⟨n, hn, rfl⟩ | ⟨n, hn, o, _, rfl⟩ | ⟨o, _, rfl⟩
  · exact h n hn
  · exact Or.inr (h n hn)
  · exact trivial

variable (sw : RouteSwitch δ)

/-- What walking through `es` from `s` does: it ends at `t` with result `r`, having recorded `l`. -/
structure Walk (es : List (Edit FibNode)) (s : St δ) (r : Except ℤ Unit) (t : St δ)
    (l : List (Op × Bool)) : Prop where
  log : t.log = s.log ++ l
  cache : t.state.cache = s.state.cache
  willing : sw.willing s.state.dev → sw.willing t.state.dev
  done : r = .ok () → (∀ x ∈ l, x.2 = true) →
    sw.tbl t.state.dev = es.foldl editEffect (sw.tbl s.state.dev) ∧ ∀ e ∈ es, Supported e
  granted : sw.willing s.state.dev → ∀ x ∈ l, x.2 = true
  succeeds : sw.willing s.state.dev → (∀ e ∈ es, Supported e) → r = .ok ()

/-- The state after one request. -/
def afterRequest (op : Op) (s : St δ) : St δ :=
  ⟨{ s.state with dev := (sw.dev.request op s.state.dev).2 },
    s.log ++ [(op, (sw.dev.request op s.state.dev).1)]⟩

theorem ignore_remove_run (p : IpPrefix) (s : St δ) :
    Prog.ignore (gnmaRouteRemove sw.dev 0 p) s = (.ok (), afterRequest sw (.routeRemove p) s) := by
  rw [Prog.ignore_run, gnmaRouteRemove, if_neg (by simp), gnmiRequest_run]
  rfl

theorem createNode_run (n : FibNode) (s : St δ) :
    createNode sw.dev n s = match n.gattr with
      | none => (.error (-1), s)
      | some a =>
        (if (sw.dev.request (.routeCreate n.gpref a) s.state.dev).1 then .ok () else .error (-1),
          afterRequest sw (.routeCreate n.gpref a) s) := by
  unfold createNode FibNode.gattr
  cases routerFibInfo2gnmaAttr n.info with
  | none => rfl
  | some a =>
    simp only [gnmaRouteCreate, ne_eq, not_true_eq_false, if_false, orFail_gnmiRequest]
    exact gnmiRequest_run sw.dev _ s

theorem walk_remove (o : FibNode) (s : St δ) :
    Walk sw [.del o] s (.ok ()) (afterRequest sw (.routeRemove o.gpref) s)
      [(.routeRemove o.gpref, (sw.dev.request (.routeRemove o.gpref) s.state.dev).1)] where
  log := rfl
  cache := rfl
  willing := sw.willing_step _ _
  done := by
    intro _ hl
    have hreq := hl _ (List.mem_singleton_self _)
    exact ⟨sw.effect _ _ hreq, by simp [Supported]⟩
  granted := by
    intro hg
    simpa using sw.willing_granted _ _ hg
  succeeds := fun _ _ => rfl

theorem walk_create (n : FibNode) (s : St δ) :
    ∃ l, Walk sw [.add n] s (createNode sw.dev n s).1 (createNode sw.dev n s).2 l := by
  rw [createNode_run]
  cases ha : n.gattr with
  | none =>
    refine ⟨[], by simp, rfl, fun hg => hg, by simp, by simp, ?_⟩
    intro _ hs
    simpa [Supported, ha] using hs (.add n)
  | some a =>
    have hgrant : sw.willing s.state.dev →
        (sw.dev.request (.routeCreate n.gpref a) s.state.dev).1 = true := sw.willing_granted _ _
    refine ⟨_, rfl, rfl, sw.willing_step _ _, ?_, ?_, ?_⟩
    · intro _ hl
      have hreq := hl _ (List.mem_singleton_self _)
      refine ⟨?_, by simp [Supported, ha]⟩
      have ht := sw.effect _ _ hreq
      simp only [afterRequest, ht, routeEffect, List.foldl_cons, List.foldl_nil, editEffect,
        Edit.entry, editAt, ha]
    · intro hg
      simp [hgrant hg]
    · intro hg _
      simp [hgrant hg]

variable {sw}

/-- Two walks in a row, unless the first one fails. -/
theorem Walk.append {es es' : List (Edit FibNode)} {s t u : St δ} {r : Except ℤ Unit}
    {l l' : List (Op × Bool)} (h : Walk sw es s (.ok ()) t l) (h' : Walk sw es' t r u l') :
    Walk sw (es ++ es') s r u (l ++ l') where
  log := by rw [h'.log, h.log, List.append_assoc]
  cache := h'.cache.trans h.cache
  willing := fun hg => h'.willing (h.willing hg)
  done := by
    intro hr hl
    have hl1 : ∀ x ∈ l, x.2 = true := fun x hx => hl x (List.mem_append_left _ hx)
    have hl2 : ∀ x ∈ l', x.2 = true := fun x hx => hl x (List.mem_append_right _ hx)
    obtain ⟨ht, hs⟩ := h.done rfl hl1
    obtain ⟨hu, hs'⟩ := h'.done hr hl2
    refine ⟨by rw [hu, ht, List.foldl_append], fun e he => ?_⟩
    exact (List.mem_append.mp he).elim (hs e) (hs' e)
  granted := by
    intro hg x hx
    exact (List.mem_append.mp hx).elim (h.granted hg x) (h'.granted (h.willing hg) x)
  succeeds := by
    intro hg hs
    exact h'.succeeds (h.willing hg) (fun e he => hs e (List.mem_append_right _ he))

theorem Walk.append_error {es es' : List (Edit FibNode)} {s t : St δ} {c : ℤ}
    {l : List (Op × Bool)} (h : Walk sw es s (.error c) t l) :
    Walk sw (es ++ es') s (.error c) t l where
  log := h.log
  cache := h.cache
  willing := h.willing
  done := by simp
  granted := h.granted
  succeeds := by
    intro hg hs
    exact h.succeeds hg (fun e he => hs e (List.mem_append_left _ he))

/-- Removing and creating a route again is what an update of changed attributes does. -/
theorem Walk.update {n o : FibNode} (hne : n.info ≠ o.info) {s t : St δ} {r : Except ℤ Unit}
    {l : List (Op × Bool)} (h : Walk sw [.del n, .add n] s r t l) : Walk sw [.upd n o] s r t l where
  log := h.log
  cache := h.cache
  willing := h.willing
  done := by
    intro hr hl
    obtain ⟨ht, hs⟩ := h.done hr hl
    have hadd : n.gattr.isSome := hs (.add n) (by simp)
    refine ⟨?_, by simpa [Supported] using Or.inr hadd⟩
    rw [ht]
    simp [editEffect, editAt, Edit.entry, hne]
  granted := h.granted
  succeeds := by
    intro hg hs
    refine h.succeeds hg ?_
    have hsup : n.info = o.info ∨ n.gattr.isSome := hs (.upd n o) (List.mem_singleton_self _)
    intro e he
    rcases List.mem_cons.mp he with rfl | he
    · exact trivial
    · rw [List.mem_singleton.mp he]
      exact hsup.resolve_left hne

variable (sw)

theorem walk_applyEdit (e : Edit FibNode) (s : St δ) :
    ∃ l, Walk sw [e] s (applyEdit sw.dev e s).1 (applyEdit sw.dev e s).2 l := by
  cases e with
  | del o => exact ⟨_, by rw [applyEdit, ignore_remove_run]; exact walk_remove sw o s⟩
  | add n => exact walk_create sw n s
  | upd n o =>
    rw [applyEdit]
    by_cases h : n.info = o.info
    · rw [if_pos ((fibInfoCmp_eq_zero_iff _ _).mpr h)]
      refine ⟨[], by simp, rfl, fun hg => hg, ?_, by simp, fun _ _ => rfl⟩
      intro _ _
      refine ⟨?_, by simpa [Supported] using Or.inl h⟩
      simp [editEffect, editAt, Edit.entry, h]
    · rw [if_neg (fun hc => h ((fibInfoCmp_eq_zero_iff _ _).mp hc))]
      rw [Prog.bind_run_ok (ignore_remove_run sw _ s)]
      obtain ⟨l, hl⟩ := walk_create sw n (afterRequest sw (.routeRemove n.gpref) s)
      exact ⟨_, ((walk_remove sw n s).append hl).update h⟩

/-- The loop over the edits of a walk. -/
theorem walk_forM : ∀ (es : List (Edit FibNode)) (s : St δ),
    ∃ l, Walk sw es s (forM es (applyEdit sw.dev) s).1 (forM es (applyEdit sw.dev) s).2 l
  | [], s => ⟨[], by simp, rfl, fun hg => hg, by simp, by simp, fun _ _ => rfl⟩
  | e :: es, s => by
      obtain ⟨l, hl⟩ := walk_applyEdit sw e s
      rw [List.forM_cons]
      rcases he : applyEdit sw.dev e s with ⟨c | _, t⟩
      · rw [he] at hl
        rw [Prog.bind_run_error he]
        exact ⟨l, hl.append_error⟩
      · rw [he] at hl
        rw [Prog.bind_run_ok he]
        obtain ⟨l', hl'⟩ := walk_forM es t
        exact ⟨l ++ l', hl.append hl'⟩

/-! ### One call -/

/-- The edits a call from `s` walks through. -/
def callEdits (qs : Qsort) (s : St δ) (r : Table) : List (Edit FibNode) :=
  routerDbDiff (ensureSorted qs (fibDbCopy r)) (ensureSorted qs s.state.cache.router)

/-- What a call does. It walks through its edits; on success the new table becomes the cached one,
    on failure the cached entries stay, in key order. -/
structure Call (qs : Qsort) (s : St δ) (r : Table) (res : Except ℤ Unit) (t : St δ)
    (l : List (Op × Bool)) : Prop where
  log : t.log = s.log ++ l
  willing : sw.willing s.state.dev → sw.willing t.state.dev
  done : res = .ok () → (∀ x ∈ l, x.2 = true) →
    sw.tbl t.state.dev = (callEdits qs s r).foldl editEffect (sw.tbl s.state.dev) ∧
    ∀ e ∈ callEdits qs s r, Supported e
  granted : sw.willing s.state.dev → ∀ x ∈ l, x.2 = true
  succeeds : sw.willing s.state.dev → (∀ e ∈ callEdits qs s r, Supported e) → res = .ok ()
  cached : res = .ok () → t.state.cache.router.arr.Perm r.arr
  kept : res ≠ .ok () → t.state.cache.router.arr.Perm s.state.cache.router.arr

/-- The call, unfolded: the walk runs from the state with the cached array sorted. -/
theorem configRouterApply_run (qs : Qsort) (s : St δ) (r : Table) :
    configRouterApply qs sw.dev { router := r } s =
      (do forM (callEdits qs s r) (applyEdit sw.dev)
          modifyCache fun c => { c with router := ensureSorted qs (fibDbCopy r) } :
        ApplyM δ Unit)
      { s with state := { s.state with cache :=
          { s.state.cache with router := sortShared qs s.state.cache.router } } } := rfl

theorem call_configRouterApply (qs : Qsort) (s : St δ) (r : Table) :
    ∃ l, Call sw qs s r (configRouterApply qs sw.dev { router := r } s).1
      (configRouterApply qs sw.dev { router := r } s).2 l := by
  rw [configRouterApply_run]
  set s' : St δ := { s with state := { s.state with cache :=
    { s.state.cache with router := sortShared qs s.state.cache.router } } } with hs'
  obtain ⟨l, hl⟩ := walk_forM sw (callEdits qs s r) s'
  rcases hw : forM (callEdits qs s r) (applyEdit sw.dev) s' with ⟨c | _, t⟩
  · rw [hw] at hl
    rw [Prog.bind_run_error hw]
    refine ⟨l, hl.log, hl.willing, hl.done, hl.granted, ?_, by simp, ?_⟩
    · exact hl.succeeds
    · intro _
      rw [hl.cache]
      exact ensureSorted_perm qs _
  · rw [hw] at hl
    rw [Prog.bind_run_ok hw]
    refine ⟨l, hl.log, hl.willing, hl.done, hl.granted, fun _ _ => rfl, ?_,
      fun h => absurd rfl h⟩
    intro _
    exact ensureSorted_perm qs (fibDbCopy r)

/-! ### The edits at one prefix -/

/-- The entries of a table for one prefix. -/
def entriesAt (ns : List FibNode) (p : IpPrefix) : List FibNode := ns.filter (·.gpref = p)

/-- The place of a prefix in the key order. -/
def prefixRank (p : IpPrefix) : ℤ ×ₗ ℕ := toLex (p.prefixLen, p.ip.sAddr)

theorem gpref_eq_iff (n : FibNode) (p : IpPrefix) : n.gpref = p ↔ n.rank = prefixRank p := by
  have h := FibNode.gpref_eq_iff n ⟨⟨p.ip, p.prefixLen⟩, .blackhole⟩
  exact h

theorem filter_rank_eq (ns : List FibNode) (p : IpPrefix) :
    ns.filter (FibNode.rank · = prefixRank p) = entriesAt ns p := by
  exact List.filter_congr (fun n _ => decide_eq_decide.mpr (gpref_eq_iff n p).symm)

theorem filter_keyOf_eq (es : List (Edit FibNode)) (p : IpPrefix) :
    es.filter (Edit.keyOf FibNode.rank · = prefixRank p) = es.filter (·.entry.gpref = p) := by
  exact List.filter_congr (fun e _ => decide_eq_decide.mpr (gpref_eq_iff e.entry p).symm)

theorem mem_entriesAt {ns : List FibNode} {p : IpPrefix} {n : FibNode} :
    n ∈ entriesAt ns p ↔ n ∈ ns ∧ n.gpref = p := by
  simp [entriesAt]

/-- The edits of one prefix pair up the entries of that prefix. -/
theorem diff_at {news olds : List FibNode} (hn : Sorted FibNode.rank news)
    (ho : Sorted FibNode.rank olds) (p : IpPrefix) :
    (diff fibNodeKeyCmpCb news olds).filter (·.entry.gpref = p) =
      pair (entriesAt news p) (entriesAt olds p) := by
  rw [← filter_keyOf_eq, diff_filter fibNodeKeyCmpCb_reflects _ _ _ hn ho, filter_rank_eq,
    filter_rank_eq]
  refine diff_eq_pair fibNodeKeyCmpCb_reflects (prefixRank p) _ _ ?_ ?_
  · intro n h
    exact (gpref_eq_iff n p).mp (mem_entriesAt.mp h).2
  · intro n h
    exact (gpref_eq_iff n p).mp (mem_entriesAt.mp h).2

/-- So what a walk leaves at a prefix only depends on the entries of that prefix. -/
theorem diff_foldl_at {news olds : List FibNode} (hn : Sorted FibNode.rank news)
    (ho : Sorted FibNode.rank olds) (tbl : IpPrefix → Option RouteAttrs) (p : IpPrefix) :
    (diff fibNodeKeyCmpCb news olds).foldl editEffect tbl p =
      (pair (entriesAt news p) (entriesAt olds p)).foldl editAt (tbl p) := by
  have hloc : ∀ (t : IpPrefix → Option RouteAttrs) (e : Edit FibNode) (q : IpPrefix),
      editEffect t e q = if e.entry.gpref = q then editAt (t q) e else t q := by
    intro t e q
    by_cases h : e.entry.gpref = q
    · rw [if_pos h, editEffect, ← h, Function.update_self]
    · rw [if_neg h, editEffect, Function.update_of_ne (Ne.symm h)]
  rw [foldl_at (fun e : Edit FibNode => e.entry.gpref) editEffect editAt hloc, diff_at hn ho]

/-- With no fewer new entries than old ones, the last edit that changed anything decides; if none
    did, the entries are the same. -/
theorem pair_foldl_of_le : ∀ (ns os : List FibNode) (cur : Option RouteAttrs),
    os.length ≤ ns.length →
    (∃ n ∈ ns, (pair ns os).foldl editAt cur = n.gattr) ∨
    ((pair ns os).foldl editAt cur = cur ∧ ns.map FibNode.info = os.map FibNode.info)
  | [], [], cur, _ => Or.inr ⟨rfl, rfl⟩
  | [], o :: os, _, h => by simp at h
  | n :: ns, [], cur, _ => by
      -- all of them are added: the last one stays
      have hlast : ∀ (l : List FibNode) (m : FibNode) (c : Option RouteAttrs),
          ∃ n ∈ m :: l, ((m :: l).map Edit.add).foldl editAt c = n.gattr := by
        intro l
        induction l with
        | nil => exact fun m c => ⟨m, by simp, rfl⟩
        | cons k l ih =>
          intro m c
          obtain ⟨n, hn, he⟩ := ih k m.gattr
          exact ⟨n, List.mem_cons_of_mem _ hn, he⟩
      exact Or.inl (hlast ns n cur)
  | n :: ns, o :: os, cur, h => by
      have hle : os.length ≤ ns.length := by simpa using h
      rcases pair_foldl_of_le ns os (editAt cur (.upd n o)) hle with ⟨m, hm, he⟩ | ⟨he, hmap⟩
      · exact Or.inl ⟨m, List.mem_cons_of_mem _ hm, he⟩
      · by_cases hi : n.info = o.info
        · refine Or.inr ⟨?_, by simp [hi, hmap]⟩
          rw [pair, List.foldl_cons, he, editAt, if_pos hi]
        · refine Or.inl ⟨n, List.mem_cons_self .., ?_⟩
          rw [pair, List.foldl_cons, he, editAt, if_neg hi]

/-- With more old entries than new ones, the last edit is a delete. -/
theorem pair_foldl_of_lt : ∀ (ns os : List FibNode) (cur : Option RouteAttrs),
    ns.length < os.length → (pair ns os).foldl editAt cur = none
  | _, [], _, h => by simp at h
  | [], o :: os, cur, _ => by
      have hdel : ∀ (l : List FibNode), (l.map Edit.del).foldl editAt none = none := by
        intro l
        induction l with
        | nil => rfl
        | cons k l ih => simpa [editAt] using ih
      exact hdel os
  | n :: ns, o :: os, cur, h => by
      rw [pair, List.foldl_cons]
      exact pair_foldl_of_lt ns os _ (by simpa using h)

theorem mem_map_gpref {ns : List FibNode} {p : IpPrefix} :
    p ∈ ns.map FibNode.gpref ↔ entriesAt ns p ≠ [] := by
  simp [entriesAt, List.filter_eq_nil_iff]

theorem count_eq_length_entriesAt (ns : List FibNode) (p : IpPrefix) :
    (ns.map FibNode.gpref).count p = (entriesAt ns p).length := by
  rw [List.count, List.countP_map, List.countP_eq_length_filter, entriesAt]
  rfl

theorem carries_perm {tbl : IpPrefix → Option RouteAttrs} {ns ms : List FibNode} (h : ns.Perm ms) :
    Carries tbl ns ↔ Carries tbl ms := by
  simp only [Carries, h.mem_iff, (h.map FibNode.gpref).mem_iff]

/-- A cached prefix that the new table lacks is removed. -/
theorem Call.removes {qs : Qsort} {s t : St δ} {r : Table} {res : Except ℤ Unit}
    {l : List (Op × Bool)} (h : Call sw qs s r res t l) (hok : res = .ok ())
    (hl : ∀ x ∈ l, x.2 = true) {p : IpPrefix}
    (hc : p ∈ s.state.cache.router.arr.map FibNode.gpref) (hr : p ∉ r.arr.map FibNode.gpref) :
    sw.tbl t.state.dev p = none := by
  have hpn : (ensureSorted qs (fibDbCopy r)).arr.Perm r.arr := ensureSorted_perm qs (fibDbCopy r)
  have hpo := ensureSorted_perm qs s.state.cache.router
  rw [← (hpo.map FibNode.gpref).mem_iff, mem_map_gpref] at hc
  rw [← (hpn.map FibNode.gpref).mem_iff, mem_map_gpref, not_not] at hr
  rw [(h.done hok hl).1, callEdits, routerDbDiff,
    diff_foldl_at (ensureSorted_sorted qs _) (ensureSorted_sorted qs _)]
  refine pair_foldl_of_lt _ _ _ ?_
  rw [hr]
  exact List.length_pos_iff.mpr hc

end Ucentral.Router
