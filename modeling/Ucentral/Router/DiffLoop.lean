import Ucentral.Router.Apply

/-! `for_router_db_diff`: the loop over the indices of two tables.

    The body computes `diff` at the two indices, and the third part of the `for`, to which a
    `continue` comes as well, moves the one index or the other or both:

        diff   case     moves
        0      update   ni, oi
        > 0    delete   oi
        < 0    add      ni

    A table that is used up counts as greater than the other. -/

namespace Ucentral.Router
open Merge Effect Plat

/-! ### The model -/

/-- `router_db_diff_get`; nothing for a read beyond `len`. -/
def routerDbDiffGet (newr oldr : Table) (ni oi : ℕ) : Option ℤ :=
  if oi = oldr.arr.length then some (-1)
  else if ni = newr.arr.length then some 1
  else do
    let n ← newr.arr[ni]?
    let o ← oldr.arr[oi]?
    return fibKeyCmp n.key o.key

/-- The third part of the `for`; `++ni` is not 0. -/
def moveOn (diff : ℤ) (ni oi : ℕ) : ℕ × ℕ :=
  let i := if diff = 0 then (ni + 1, oi + 1) else (ni, oi)
  let i := if diff > 0 then (i.1, i.2 + 1) else i
  if diff < 0 then (i.1 + 1, i.2) else i

/-- What the body of the loop finds. -/
structure Visit where
  ni : ℕ
  oi : ℕ
  diff : ℤ
  deriving DecidableEq

/-- `for_router_db_diff` from the indices `ni` and `oi` on, with a body that does not leave it. -/
def forRouterDbDiff (newr oldr : Table) : ℕ → ℕ → ℕ → Option (List Visit)
  | 0, _, _ => none
  | fuel + 1, ni, oi =>
    if oi ≠ oldr.arr.length ∨ ni ≠ newr.arr.length then do
      let diff ← routerDbDiffGet newr oldr ni oi
      let i := moveOn diff ni oi
      let rest ← forRouterDbDiff newr oldr fuel i.1 i.2
      return ⟨ni, oi, diff⟩ :: rest
    else some []

/-- What the body reads by `router_db_get`: nothing where that gives a null pointer. -/
def Visit.edit (newr oldr : Table) (v : Visit) : Option (Edit FibNode) :=
  if v.diff = 0 then do
    let n ← newr.arr[v.ni]?
    let o ← oldr.arr[v.oi]?
    return .upd n o
  else if v.diff > 0 then (oldr.arr[v.oi]?).map .del
  else (newr.arr[v.ni]?).map .add

/-! ### The loop is the walk -/

variable {newr oldr : Table} {ni oi : ℕ}

/-- From the indices `ni` and `oi` on the loop does these edits, in less than `turns` turns. -/
def Walks (newr oldr : Table) (turns ni oi : ℕ) (es : List (Edit FibNode)) : Prop :=
  ∃ vs, (∀ fuel, turns ≤ fuel → forRouterDbDiff newr oldr fuel ni oi = some vs) ∧
    vs.map (Visit.edit newr oldr) = es.map some

theorem walks_nil (turns : ℕ) :
    Walks newr oldr (turns + 1) newr.arr.length oldr.arr.length [] := by
  refine ⟨[], fun fuel hfuel => ?_, rfl⟩
  cases fuel with
  | zero => omega
  | succ fuel => simp [forRouterDbDiff]

/-- A turn of the loop, and the turns after it. -/
theorem walks_cons {turns : ℕ} {d : ℤ} {e : Edit FibNode} {es : List (Edit FibNode)}
    (hgo : oi ≠ oldr.arr.length ∨ ni ≠ newr.arr.length)
    (hget : routerDbDiffGet newr oldr ni oi = some d)
    (he : Visit.edit newr oldr ⟨ni, oi, d⟩ = some e)
    (h : Walks newr oldr turns (moveOn d ni oi).1 (moveOn d ni oi).2 es) :
    Walks newr oldr (turns + 1) ni oi (e :: es) := by
  obtain ⟨vs, hvs, hmap⟩ := h
  refine ⟨⟨ni, oi, d⟩ :: vs, fun fuel hfuel => ?_, ?_⟩
  · cases fuel with
    | zero => omega
    | succ fuel =>
      rw [forRouterDbDiff, if_pos hgo, hget]
      simp only [Option.bind_eq_bind, Option.bind_some, hvs fuel (Nat.le_of_succ_le_succ hfuel)]
      rfl
  · rw [List.map_cons, List.map_cons, he, hmap]

theorem drop_cons {l : List FibNode} {i : ℕ} {x : FibNode} {xs : List FibNode}
    (h : l.drop i = x :: xs) :
    i ≠ l.length ∧ i + 1 ≤ l.length ∧ l[i]? = some x ∧ l.drop (i + 1) = xs := by
  have hlt : i < l.length := by
    by_contra hge
    rw [List.drop_eq_nil_of_le (Nat.le_of_not_lt hge)] at h
    cases h
  rw [List.drop_eq_getElem_cons hlt, List.cons.injEq] at h
  exact ⟨hlt.ne, hlt, by rw [List.getElem?_eq_getElem hlt, h.1], h.2⟩

theorem drop_nil {l : List FibNode} {i : ℕ} (hi : i ≤ l.length) (h : l.drop i = []) :
    i = l.length :=
  Nat.le_antisymm hi (List.drop_eq_nil_iff.mp h)

/-- The loop goes on as the walk does over what is left of the tables. -/
theorem walks_drop : ∀ (news olds : List FibNode) {turns ni oi : ℕ},
    newr.arr.drop ni = news → oldr.arr.drop oi = olds → ni ≤ newr.arr.length →
    oi ≤ oldr.arr.length → news.length + olds.length + 1 ≤ turns →
    Walks newr oldr turns ni oi (diff fibNodeKeyCmpCb news olds)
  | [], [], turns + 1, ni, oi, hn, ho, hni, hoi, _ => by
      rw [drop_nil hni hn, drop_nil hoi ho]
      exact walks_nil turns
  | [], old :: olds, turns + 1, ni, oi, hn, ho, hni, hoi, hturns => by
      obtain ⟨hne, hle, hget, hdrop⟩ := drop_cons ho
      have hend := drop_nil hni hn
      refine walks_cons (d := 1) (Or.inl hne) ?_ ?_ ?_
      · rw [routerDbDiffGet, if_neg hne, if_pos hend]
      · simp [Visit.edit, hget]
      · exact walks_drop [] olds hn hdrop hni hle (by simpa using hturns)
  | new :: news, [], turns + 1, ni, oi, hn, ho, hni, hoi, hturns => by
      obtain ⟨hne, hle, hget, hdrop⟩ := drop_cons hn
      have hend := drop_nil hoi ho
      refine walks_cons (d := -1) (Or.inr hne) ?_ ?_ ?_
      · rw [routerDbDiffGet, if_pos hend]
      · simp [Visit.edit, hget]
      · exact walks_drop news [] hdrop ho hle hoi (by simpa using hturns)
  | new :: news, old :: olds, turns + 1, ni, oi, hn, ho, hni, hoi, hturns => by
      obtain ⟨hne, hle, hget, hdrop⟩ := drop_cons hn
      obtain ⟨hne', hle', hget', hdrop'⟩ := drop_cons ho
      have hcmp : routerDbDiffGet newr oldr ni oi = some (fibNodeKeyCmpCb new old) := by
        rw [routerDbDiffGet, if_neg hne', if_neg hne, hget, hget']
        rfl
      simp only [List.length_cons] at hturns
      rw [diff_cons_cons]
      by_cases hzero : fibNodeKeyCmpCb new old = 0
      · rw [if_pos hzero]
        refine walks_cons (Or.inl hne') (hcmp.trans (congrArg some hzero)) ?_ ?_
        · simp [Visit.edit, hget, hget']
        · exact walks_drop news olds hdrop hdrop' hle hle' (by omega)
      · rw [if_neg hzero]
        by_cases hpos : 0 < fibNodeKeyCmpCb new old
        · have hmove : moveOn (fibNodeKeyCmpCb new old) ni oi = (ni, oi + 1) := by
            simp [moveOn, hzero, hpos, hpos.le]
          rw [if_pos hpos]
          refine walks_cons (Or.inl hne') hcmp ?_ ?_
          · simp [Visit.edit, hzero, hpos, hget']
          · rw [hmove]
            exact walks_drop (new :: news) olds hn hdrop' hni hle' (by simp; omega)
        · have hmove : moveOn (fibNodeKeyCmpCb new old) ni oi = (ni + 1, oi) := by
            have hneg : fibNodeKeyCmpCb new old < 0 := by omega
            simp [moveOn, hzero, hpos, hneg]
          rw [if_neg hpos]
          refine walks_cons (Or.inl hne') hcmp ?_ ?_
          · simp [Visit.edit, hzero, hpos, hget]
          · rw [hmove]
            exact walks_drop news (old :: olds) hdrop ho hle hoi (by simp; omega)
  termination_by news olds => news.length + olds.length

/-- Whatever the tables, the loop ends, reads nothing beyond `len`, and does the edits of the walk. -/
theorem walks_routerDbDiff (newr oldr : Table) :
    Walks newr oldr (newr.arr.length + oldr.arr.length + 1) 0 0 (routerDbDiff newr oldr) :=
  walks_drop newr.arr oldr.arr rfl rfl (Nat.zero_le _) (Nat.zero_le _) (Nat.le_refl _)

/-- The loop of `config_router_apply` over the indices is the one over the edits. -/
theorem forM_visits {δ : Type} {dv : Dev δ} {stuck : ApplyM δ Unit} {turns ni oi : ℕ}
    {es : List (Edit FibNode)} (h : Walks newr oldr turns ni oi es) :
    ∃ vs, forRouterDbDiff newr oldr turns ni oi = some vs ∧
      forM vs (fun v => (v.edit newr oldr).elim stuck (applyEdit dv)) = forM es (applyEdit dv) := by
  obtain ⟨vs, hvs, hmap⟩ := h
  refine ⟨vs, hvs turns (Nat.le_refl _), ?_⟩
  clear hvs
  induction vs generalizing es with
  | nil =>
    cases es with
    | nil => rfl
    | cons e es => cases hmap
  | cons v vs ih =>
    cases es with
    | nil => cases hmap
    | cons e es =>
      rw [List.map_cons, List.map_cons, List.cons.injEq] at hmap
      rw [List.forM_cons, List.forM_cons, hmap.1, ih hmap.2]
      rfl

theorem forM_routerDbDiff {δ : Type} (dv : Dev δ) (stuck : ApplyM δ Unit) (newr oldr : Table) :
    ∃ vs, forRouterDbDiff newr oldr (newr.arr.length + oldr.arr.length + 1) 0 0 = some vs ∧
      forM vs (fun v => (v.edit newr oldr).elim stuck (applyEdit dv)) =
        forM (routerDbDiff newr oldr) (applyEdit dv) :=
  forM_visits (walks_routerDbDiff newr oldr)

/-! ### Tables in key order -/

/-- The keys of a table. -/
def Table.keys (r : Table) : List FibKey := r.arr.map FibNode.key

/-- Strictly increasing under `ucentral_router_fib_key_cmp`. -/
def Table.Increasing (r : Table) : Prop := r.arr.Pairwise fun a b => fibKeyCmp a.key b.key < 0

theorem Table.Increasing.strict {r : Table} (h : r.Increasing) : Strict FibNode.rank r.arr :=
  List.Pairwise.imp (fun {a b} hab => (fibNodeKeyCmpCb_reflects.neg_iff a b).mp hab) h

theorem mem_keys_iff {r : Table} {k : FibKey} :
    k ∈ r.keys ↔ ∃ n ∈ r.arr, n.key = k := by
  rw [Table.keys, List.mem_map]

/-- What a visit says of its key: the case is that of the tables that hold the key, and in these the
    index is that of its entry. -/
structure VisitsKey (newr oldr : Table) (v : Visit) (k : FibKey) : Prop where
  add : v.diff < 0 ↔ k ∈ newr.keys ∧ k ∉ oldr.keys
  del : 0 < v.diff ↔ k ∉ newr.keys ∧ k ∈ oldr.keys
  upd : v.diff = 0 ↔ k ∈ newr.keys ∧ k ∈ oldr.keys
  new : k ∈ newr.keys → (newr.arr[v.ni]?).map FibNode.key = some k
  old : k ∈ oldr.keys → (oldr.arr[v.oi]?).map FibNode.key = some k

/-- The entries of an edit are those at the indices of the visit. -/
def Visit.Points (newr oldr : Table) (v : Visit) : Edit FibNode → Prop
  | .upd n o => v.diff = 0 ∧ newr.arr[v.ni]? = some n ∧ oldr.arr[v.oi]? = some o
  | .add n => v.diff < 0 ∧ newr.arr[v.ni]? = some n
  | .del o => 0 < v.diff ∧ oldr.arr[v.oi]? = some o

theorem points_of_edit {v : Visit} {e : Edit FibNode} (h : v.edit newr oldr = some e) :
    v.Points newr oldr e := by
  unfold Visit.edit at h
  split_ifs at h with hzero hpos
  · cases hn : newr.arr[v.ni]? with
    | none => simp [hn] at h
    | some n =>
      cases ho : oldr.arr[v.oi]? with
      | none => simp [ho] at h
      | some o =>
        simp only [hn, ho, Option.bind_eq_bind, Option.bind_some, Option.pure_def,
          Option.some.injEq] at h
        rw [← h]
        exact ⟨hzero, hn, ho⟩
  · obtain ⟨o, ho, rfl⟩ := Option.map_eq_some_iff.mp h
    exact ⟨hpos, ho⟩
  · obtain ⟨n, hn, rfl⟩ := Option.map_eq_some_iff.mp h
    exact ⟨by omega, hn⟩

theorem visitsKey_of_fits {v : Visit} {e : Edit FibNode} (hv : v.Points newr oldr e)
    (he : e.Fits FibNode.rank newr.arr oldr.arr) : VisitsKey newr oldr v e.entry.key := by
  have hmem : ∀ {r : Table} {n : FibNode}, n ∈ r.arr → n.key ∈ r.keys :=
    fun hn => List.mem_map_of_mem hn
  have hnot : ∀ {r : Table} {n : FibNode}, (∀ m ∈ r.arr, m.rank ≠ n.rank) → n.key ∉ r.keys := by
    intro r n hne hk
    obtain ⟨m, hm, hkey⟩ := mem_keys_iff.mp hk
    exact hne m hm (congrArg FibKey.rank hkey)
  cases e with
  | upd n o =>
    obtain ⟨hdiff, hn, ho⟩ := hv
    obtain ⟨hn', ho', hrank⟩ := he
    have hkey : o.key = n.key := FibKey.rank_injective hrank.symm
    have hnew : n.key ∈ newr.keys := hmem hn'
    have hold : n.key ∈ oldr.keys := hkey ▸ hmem ho'
    exact {
      add := iff_of_false (by omega) fun h => h.2 hold
      del := iff_of_false (by omega) fun h => h.1 hnew
      upd := iff_of_true hdiff ⟨hnew, hold⟩
      new := fun _ => by rw [hn]; rfl
      old := fun _ => by rw [ho, Option.map_some, hkey]; rfl }
  | add n =>
    obtain ⟨hdiff, hn⟩ := hv
    have hnew : n.key ∈ newr.keys := hmem he.1
    have hold : n.key ∉ oldr.keys := hnot he.2
    exact {
      add := iff_of_true hdiff ⟨hnew, hold⟩
      del := iff_of_false (by omega) fun h => h.1 hnew
      upd := iff_of_false (by omega) fun h => hold h.2
      new := fun _ => by rw [hn]; rfl
      old := fun h => absurd h hold }
  | del o =>
    obtain ⟨hdiff, ho⟩ := hv
    have hold : o.key ∈ oldr.keys := hmem he.1
    have hnew : o.key ∉ newr.keys := hnot he.2
    exact {
      add := iff_of_false (by omega) fun h => hnew h.1
      del := iff_of_true hdiff ⟨hnew, hold⟩
      upd := iff_of_false (by omega) fun h => hnew h.1
      new := fun h => absurd h hnew
      old := fun _ => by rw [ho]; rfl }

theorem forall₂_visitsKey : ∀ {vs : List Visit} {es : List (Edit FibNode)},
    vs.map (Visit.edit newr oldr) = es.map some →
    (∀ e ∈ es, e.Fits FibNode.rank newr.arr oldr.arr) →
    List.Forall₂ (VisitsKey newr oldr) vs (es.map fun e => e.entry.key)
  | [], [], _, _ => .nil
  | v :: vs, e :: es, h, hfits => by
      rw [List.map_cons, List.map_cons, List.cons.injEq] at h
      obtain ⟨hfit, hfits⟩ := List.forall_mem_cons.mp hfits
      exact .cons (visitsKey_of_fits (points_of_edit h.1) hfit) (forall₂_visitsKey h.2 hfits)

theorem mem_keys_routerDbDiff (hn : newr.Increasing) (ho : oldr.Increasing) (k : FibKey) :
    k ∈ (routerDbDiff newr oldr).map (fun e => e.entry.key) ↔ k ∈ newr.keys ∨ k ∈ oldr.keys := by
  have hmem := mem_keys_diff fibNodeKeyCmpCb_reflects hn.strict ho.strict k.rank
  have hrank : ∀ r : Table, r.arr.map FibNode.rank = r.keys.map FibKey.rank := by
    intro r
    rw [Table.keys, List.map_map]
    rfl
  have hwalk : (routerDbDiff newr oldr).map (Edit.keyOf FibNode.rank) =
      ((routerDbDiff newr oldr).map fun e => e.entry.key).map FibKey.rank := by
    rw [List.map_map]
    rfl
  rw [← routerDbDiff, hwalk, hrank, hrank] at hmem
  simpa only [List.mem_map_of_injective FibKey.rank_injective] using hmem

/-- The loop over two tables in key order ends, reads nothing beyond `len`, and visits every key of the
    two tables once, in increasing order and as the tables that hold it tell. -/
theorem forRouterDbDiff_visits (newr oldr : Table) (hn : newr.Increasing) (ho : oldr.Increasing) :
    ∃ visits keys,
      (∀ fuel, newr.arr.length + oldr.arr.length + 1 ≤ fuel →
        forRouterDbDiff newr oldr fuel 0 0 = some visits) ∧
      List.Forall₂ (VisitsKey newr oldr) visits keys ∧
      keys.Pairwise (fun a b => fibKeyCmp a b < 0) ∧
      ∀ k, k ∈ keys ↔ k ∈ newr.keys ∨ k ∈ oldr.keys := by
  obtain ⟨visits, hloop, hmap⟩ := walks_routerDbDiff newr oldr
  refine ⟨visits, (routerDbDiff newr oldr).map fun e => e.entry.key, hloop, ?_, ?_,
    mem_keys_routerDbDiff hn ho⟩
  · refine forall₂_visitsKey hmap fun e he => ?_
    exact fits_of_mem_diff fibNodeKeyCmpCb_reflects hn.strict ho.strict he
  · have hstrict := strict_diff fibNodeKeyCmpCb_reflects newr.arr oldr.arr hn.strict ho.strict
    rw [List.pairwise_map]
    exact hstrict.imp fun {a b} hab => (fibNodeKeyCmpCb_reflects.neg_iff a.entry b.entry).mpr hab

/-- A table of routes that lead nowhere. -/
def deadEnds (ks : List FibKey) : Table where
  arr := ks.map fun k => ⟨k, .blackhole⟩
  max := ks.length
  sorted := false
  len_le_max := by simp
  sorted_spec := fun h => by simp at h

def newRoutes : Table := deadEnds [⟨⟨10, 0, 0, 0⟩, 8⟩, ⟨⟨10, 1, 0, 0⟩, 16⟩]

def oldRoutes : Table := deadEnds [⟨⟨10, 0, 0, 0⟩, 8⟩, ⟨⟨10, 2, 0, 0⟩, 16⟩]

/-- A route that stays, one that comes and one that goes. -/
theorem forRouterDbDiff_visits_three :
    ∃ visits keys, forRouterDbDiff newRoutes oldRoutes 5 0 0 = some visits ∧
      List.Forall₂ (VisitsKey newRoutes oldRoutes) visits keys ∧
      keys.Pairwise (fun a b => fibKeyCmp a b < 0) := by
  have hnew : newRoutes.Increasing := by
    unfold Table.Increasing
    decide
  have hold : oldRoutes.Increasing := by
    unfold Table.Increasing
    decide
  obtain ⟨visits, keys, hloop, hkeys, hincr, -⟩ :=
    forRouterDbDiff_visits newRoutes oldRoutes hnew hold
  exact ⟨visits, keys, hloop 5 (by decide), hkeys, hincr⟩

end Ucentral.Router
