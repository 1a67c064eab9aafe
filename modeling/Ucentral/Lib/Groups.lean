import Mathlib.Data.List.Nodup
import Mathlib.Tactic.Common

/-! Values in groups.

    A list of groups has one for each key, in the order in which the keys came up. In a table the groups
    have groups of their own, so that a value is filed under two keys:

        put a 1 x, put b 1 y, put a 2 z, put a 1 w        a: 1: x w        b: 1: y
                                                             2: z

    Under two keys there is exactly what was put there, in that order (`under_fill`). -/

namespace Groups

variable {κ κ' β β' γ : Type}

/-! ### Groups -/

/-- No key has two groups. -/
def KeysOnce (l : List (κ × β)) : Prop := (l.map Prod.fst).Nodup

theorem keysOnce_nil : KeysOnce ([] : List (κ × β)) := List.nodup_nil

section Upsert

variable [DecidableEq κ]

/-- Change the first group of a key; if it has none, add a new one at the end, and change that. -/
def upsert (k : κ) (new : β) (f : β → β) : List (κ × β) → List (κ × β)
  | [] => [(k, f new)]
  | (k', b) :: l => if k' = k then (k', f b) :: l else (k', b) :: upsert k new f l

theorem mem_keys_upsert {k k' : κ} {new : β} {f : β → β} : ∀ {l : List (κ × β)},
    k' ∈ (upsert k new f l).map Prod.fst ↔ k' = k ∨ k' ∈ l.map Prod.fst
  | [] => by simp [upsert]
  | (j, b) :: l => by
      rw [upsert]
      split
      · rename_i hj
        simp [hj]
      · rw [List.map_cons, List.mem_cons, mem_keys_upsert, List.map_cons, List.mem_cons, or_left_comm]

/-- No key gets a second group. -/
theorem keysOnce_upsert {k : κ} {new : β} {f : β → β} : ∀ {l : List (κ × β)},
    KeysOnce l → KeysOnce (upsert k new f l)
  | [], _ => List.nodup_singleton k
  | (j, b) :: l, h => by
      rw [upsert]
      split
      · exact h
      · rename_i hj
        obtain ⟨hfresh, hl⟩ := List.nodup_cons.mp h
        refine List.nodup_cons.mpr ⟨fun hmem => ?_, keysOnce_upsert hl⟩
        rcases mem_keys_upsert.mp hmem with hk | hmem
        · exact hj hk
        · exact hfresh hmem

/-- What holds of all groups and is not lost by a change. -/
theorem forall_upsert {P : β → Prop} {k : κ} {new : β} {f : β → β} (hnew : P new)
    (hf : ∀ b, P b → P (f b)) : ∀ {l : List (κ × β)}, (∀ g ∈ l, P g.2) → ∀ g ∈ upsert k new f l, P g.2
  | [], _ => List.forall_mem_singleton.mpr (hf new hnew)
  | (j, b) :: l, h => by
      obtain ⟨hb, hl⟩ := List.forall_mem_cons.mp h
      rw [upsert]
      split
      · exact List.forall_mem_cons.mpr ⟨hf b hb, hl⟩
      · exact List.forall_mem_cons.mpr ⟨hb, forall_upsert hnew hf hl⟩

theorem lookup_cons_eq (k j : κ) (b : β) (l : List (κ × β)) :
    ((j, b) :: l).lookup k = if k = j then some b else l.lookup k := by
  rw [List.lookup_cons]
  by_cases h : k = j
  · rw [if_pos h, h, beq_self_eq_true]
  · rw [if_neg h, beq_eq_false_iff_ne.mpr h]

theorem lookup_upsert (k k' : κ) (new : β) (f : β → β) : ∀ l : List (κ × β),
    (upsert k new f l).lookup k' =
      if k' = k then some (f ((l.lookup k).getD new)) else l.lookup k'
  | [] => by
      rw [upsert, lookup_cons_eq]
      rfl
  | (j, b) :: l => by
      rw [upsert, lookup_cons_eq k j, lookup_cons_eq k' j]
      by_cases hj : j = k
      · subst hj
        rw [if_pos rfl, if_pos rfl, lookup_cons_eq, Option.getD_some]
        by_cases hk : k' = j
        · rw [if_pos hk, if_pos hk]
        · rw [if_neg hk, if_neg hk, if_neg hk]
      · rw [if_neg hj, if_neg (Ne.symm hj), lookup_cons_eq, lookup_upsert k k' new f l]
        by_cases hk : k' = j
        · rw [if_pos hk, if_neg fun h => hj (hk.symm.trans h), if_pos hk]
        · rw [if_neg hk, if_neg hk]

/-- The groups may have another form, with names for the keys. -/
theorem upsert_map [DecidableEq κ'] {name : κ → κ'} (hname : Function.Injective name) (form : β → β')
    {k : κ} (new : β) {f : β → β} {f' : β' → β'} (hf : ∀ b, f' (form b) = form (f b)) :
    ∀ l : List (κ × β), upsert (name k) (form new) f' (l.map (Prod.map name form)) =
      (upsert k new f l).map (Prod.map name form)
  | [] => congrArg (fun b => [(name k, b)]) (hf new)
  | (j, b) :: l => by
      rw [List.map_cons, Prod.map_apply, upsert, upsert]
      by_cases hj : j = k
      · rw [if_pos (congrArg name hj), if_pos hj, hf]
        rfl
      · rw [if_neg fun h => hj (hname h), if_neg hj, upsert_map hname form new hf l]
        rfl

/-- Where one key only has something to give, that is what all groups give. -/
theorem flatMap_eq_lookup {r : κ × β → List γ} {k : κ} : ∀ {l : List (κ × β)},
    KeysOnce l → (∀ g ∈ l, g.1 ≠ k → r g = []) →
    l.flatMap r = ((l.lookup k).map fun b => r (k, b)).getD []
  | [], _, _ => rfl
  | (j, b) :: l, honce, hother => by
      obtain ⟨hfresh, honce⟩ := List.nodup_cons.mp honce
      obtain ⟨hj, hl⟩ := List.forall_mem_cons.mp hother
      rw [List.flatMap_cons, lookup_cons_eq]
      by_cases hk : k = j
      · have hrest : l.flatMap r = [] := List.flatMap_eq_nil_iff.mpr fun g hg =>
          hl g hg fun heq => hfresh (List.mem_map.mpr ⟨g, hg, heq.trans hk⟩)
        rw [hrest, List.append_nil, if_pos hk, hk]
        rfl
      · rw [if_neg hk, hj (Ne.symm hk), List.nil_append, flatMap_eq_lookup honce hl]

end Upsert

/-! ### Tables -/

/-- Groups of groups, no key having two. -/
structure Table (κ κ' γ : Type) where
  groups : List (κ × List (κ' × List γ))
  once : KeysOnce groups
  once_inner : ∀ g ∈ groups, KeysOnce g.2

namespace Table

def empty : Table κ κ' γ := ⟨[], keysOnce_nil, List.forall_mem_nil _⟩

/-- All values with their keys. -/
def rows (t : Table κ κ' γ) : List (κ × κ' × γ) :=
  t.groups.flatMap fun g => g.2.flatMap fun h => h.2.map fun x => (g.1, h.1, x)

variable [DecidableEq κ] [DecidableEq κ']

/-- File a value under two keys. -/
def put (t : Table κ κ' γ) (row : κ × κ' × γ) : Table κ κ' γ where
  groups := upsert row.1 [] (upsert row.2.1 [] (· ++ [row.2.2])) t.groups
  once := keysOnce_upsert t.once
  once_inner := forall_upsert (P := KeysOnce) keysOnce_nil (fun _ => keysOnce_upsert) t.once_inner

def fill (t : Table κ κ' γ) (rows : List (κ × κ' × γ)) : Table κ κ' γ := rows.foldl put t

end Table

variable [DecidableEq κ] [DecidableEq κ']

/-- The values of the rows that have these keys. -/
def under (k : κ) (k' : κ') (rows : List (κ × κ' × γ)) : List γ :=
  (rows.filter fun row => decide (row.1 = k ∧ row.2.1 = k')).map fun row => row.2.2

theorem under_append (k : κ) (k' : κ') (rows rows' : List (κ × κ' × γ)) :
    under k k' (rows ++ rows') = under k k' rows ++ under k k' rows' := by
  rw [under, List.filter_append, List.map_append]
  rfl

theorem under_flatMap (k : κ) (k' : κ') (r : β → List (κ × κ' × γ)) : ∀ l : List β,
    under k k' (l.flatMap r) = l.flatMap fun b => under k k' (r b)
  | [] => rfl
  | b :: l => by rw [List.flatMap_cons, List.flatMap_cons, under_append, under_flatMap k k' r l]

theorem under_group (k j : κ) (k' j' : κ') (xs : List γ) :
    under k k' (xs.map fun x => (j, j', x)) = if j = k ∧ j' = k' then xs else [] := by
  unfold under
  rw [List.filter_map, List.map_map]
  split
  · rename_i h
    exact (congrArg _ (List.filter_eq_self.mpr fun x _ => decide_eq_true h)).trans (List.map_id xs)
  · rename_i h
    exact congrArg _ (List.filter_eq_nil_iff.mpr fun x _ => by simpa using h)

namespace Table

/-- The group of the two keys is where their values are. -/
theorem under_rows (t : Table κ κ' γ) (k : κ) (k' : κ') :
    under k k' t.rows = (((t.groups.lookup k).getD []).lookup k').getD [] := by
  unfold rows
  rw [under_flatMap, flatMap_eq_lookup t.once]
  · cases hg : t.groups.lookup k with
    | none => rfl
    | some inner =>
      obtain ⟨pre, post, hgroups, -⟩ := List.lookup_eq_some_iff.mp hg
      have hmem : (k, inner) ∈ t.groups := by
        rw [hgroups]
        exact List.mem_append_right _ (List.mem_cons_self ..)
      rw [Option.map_some, Option.getD_some, Option.getD_some, under_flatMap,
        flatMap_eq_lookup (t.once_inner _ hmem)]
      · cases inner.lookup k' with
        | none => rfl
        | some xs =>
          rw [Option.map_some, Option.getD_some, under_group, if_pos ⟨rfl, rfl⟩]
          rfl
      · intro h _ hne
        rw [under_group, if_neg fun heq => hne heq.2]
  · intro g _ hne
    rw [under_flatMap, List.flatMap_eq_nil_iff]
    intro h _
    rw [under_group, if_neg fun heq => hne heq.1]

theorem under_put (t : Table κ κ' γ) (row : κ × κ' × γ) (k : κ) (k' : κ') :
    under k k' (t.put row).rows = under k k' t.rows ++ under k k' [row] := by
  obtain ⟨j, j', x⟩ := row
  have hrow : under k k' [(j, j', x)] = if j = k ∧ j' = k' then [x] else [] := under_group k j k' j' [x]
  rw [under_rows, under_rows, hrow]
  unfold put
  rw [lookup_upsert]
  by_cases hk : k = j
  · subst hk
    rw [if_pos rfl, Option.getD_some, lookup_upsert]
    by_cases hk' : k' = j'
    · subst hk'
      rw [if_pos rfl, if_pos ⟨rfl, rfl⟩]
      rfl
    · rw [if_neg hk', if_neg fun h => hk' h.2.symm, List.append_nil]
  · rw [if_neg hk, if_neg fun h => hk h.1.symm, List.append_nil]

/-- A table has groups for the keys of its values only. -/
theorem mem_keys_fill {k : κ} : ∀ {rows : List (κ × κ' × γ)} {t : Table κ κ' γ},
    k ∈ (t.fill rows).groups.map Prod.fst → k ∈ t.groups.map Prod.fst ∨ k ∈ rows.map Prod.fst
  | [], _, h => Or.inl h
  | row :: rows, t, h => by
      rw [List.map_cons, List.mem_cons]
      rcases mem_keys_fill (t := t.put row) h with hput | hrows
      · rcases mem_keys_upsert.mp hput with hk | ht
        · exact Or.inr (Or.inl hk)
        · exact Or.inl ht
      · exact Or.inr (Or.inr hrows)

/-- Under two keys there is what was put there. -/
theorem under_fill (k : κ) (k' : κ') : ∀ (rows : List (κ × κ' × γ)) (t : Table κ κ' γ),
    under k k' (t.fill rows).rows = under k k' t.rows ++ under k k' rows
  | [], t => (List.append_nil _).symm
  | row :: rows, t => by
      have hrow : under k k' (row :: rows) = under k k' [row] ++ under k k' rows :=
        under_append k k' [row] rows
      rw [fill, List.foldl_cons, hrow, ← List.append_assoc, ← under_put]
      exact under_fill k k' rows (t.put row)

/-- Each value that a table has was put there, under its keys. -/
theorem mem_of_mem_fill {rows : List (κ × κ' × γ)} {row : κ × κ' × γ}
    (h : row ∈ (Table.empty.fill rows).rows) : row ∈ rows := by
  have hunder : row.2.2 ∈ under row.1 row.2.1 (Table.empty.fill rows).rows :=
    List.mem_map.mpr ⟨row, List.mem_filter.mpr ⟨h, decide_eq_true ⟨rfl, rfl⟩⟩, rfl⟩
  rw [under_fill] at hunder
  obtain ⟨row', hrow', hx⟩ := List.mem_map.mp hunder
  obtain ⟨hmem, hkeys⟩ := List.mem_filter.mp hrow'
  obtain ⟨hk, hk'⟩ := of_decide_eq_true hkeys
  have heq : row' = row := Prod.ext hk (Prod.ext hk' hx)
  rwa [← heq]

end Table

end Groups
