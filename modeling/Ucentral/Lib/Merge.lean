import Mathlib.Data.List.Basic
import Mathlib.Data.Int.Notation
import Mathlib.Order.Lattice

/-! The difference of two sorted tables, as a list of edits.

    Two tables are walked together. Where the heads have the same key the step is an update, where
    the old head comes first it is deleted, and where the new head comes first it is added:

        new:  1     3  4            edits:  upd 1 1, del 2, add 3, upd 4 4
        old:  1  2     4

    A table may hold a key several times. What the edits do to one key only depends on the entries
    of that key (`diff_filter`), and there the walk pairs them up in order (`diff_eq_pair`). -/

namespace Merge

variable {α κ τ : Type}

/-- One step of the walk. -/
inductive Edit (α : Type)
  | upd (new old : α)
  | add (new : α)
  | del (old : α)
  deriving Repr, DecidableEq

/-- The entry whose key the step is about. -/
def Edit.entry : Edit α → α
  | .upd new _ => new
  | .add new => new
  | .del old => old

variable (cmp : α → α → ℤ)

/-- Walk the old table with `new` at the head of the new one; `rest` goes on after `new`. -/
def diffInto (new : α) (rest : List α → List (Edit α)) : List α → List (Edit α)
  | [] => .add new :: rest []
  | old :: olds =>
    if cmp new old = 0 then .upd new old :: rest olds
    else if 0 < cmp new old then .del old :: diffInto new rest olds
    else .add new :: rest (old :: olds)

/-- The edits that lead from the second table to the first, in the order of the walk. -/
def diff : List α → List α → List (Edit α)
  | [], olds => olds.map .del
  | new :: news, olds => diffInto cmp new (fun os => diff news os) olds

/-- Pair up two lists; what is left over is added or deleted. -/
def pair : List α → List α → List (Edit α)
  | [], olds => olds.map .del
  | news, [] => news.map .add
  | new :: news, old :: olds => .upd new old :: pair news olds

@[simp] theorem diff_nil (olds : List α) : diff cmp [] olds = olds.map .del := by
  cases olds <;> rfl

@[simp] theorem diff_cons_nil (new : α) (news : List α) :
    diff cmp (new :: news) [] = .add new :: diff cmp news [] := rfl

theorem diff_cons_cons (new old : α) (news olds : List α) :
    diff cmp (new :: news) (old :: olds) =
      if cmp new old = 0 then .upd new old :: diff cmp news olds
      else if 0 < cmp new old then .del old :: diff cmp (new :: news) olds
      else .add new :: diff cmp news (old :: olds) := rfl

/-- Every edit is about entries of the two tables. -/
theorem mem_diff : ∀ (news olds : List α) {e : Edit α}, e ∈ diff cmp news olds →
    (∃ n ∈ news, e = .add n) ∨ (∃ n ∈ news, ∃ o ∈ olds, e = .upd n o) ∨ ∃ o ∈ olds, e = .del o
  | [], olds, e, h => by
      rw [diff_nil, List.mem_map] at h
      obtain ⟨o, ho, rfl⟩ := h
      exact Or.inr (Or.inr ⟨o, ho, rfl⟩)
  | new :: news, [], e, h => by
      rw [diff_cons_nil] at h
      rcases List.mem_cons.mp h with rfl | h
      · exact Or.inl ⟨new, by simp, rfl⟩
      · have ih := mem_diff news [] h
        simp only [List.mem_cons, List.not_mem_nil, false_and, exists_false, or_false,
          and_false] at ih ⊢
        obtain ⟨n, hn, he⟩ := ih
        exact ⟨n, Or.inr hn, he⟩
  | new :: news, old :: olds, e, h => by
      have grow : ∀ {ns os : List α}, ns ⊆ new :: news → os ⊆ old :: olds →
          ((∃ n ∈ ns, e = .add n) ∨ (∃ n ∈ ns, ∃ o ∈ os, e = .upd n o) ∨ ∃ o ∈ os, e = .del o) →
          (∃ n ∈ new :: news, e = .add n) ∨
          (∃ n ∈ new :: news, ∃ o ∈ old :: olds, e = .upd n o) ∨
          ∃ o ∈ old :: olds, e = .del o := by
        rintro ns os hn ho (⟨n, hm, he⟩ | ⟨n, hm, o, hm', he⟩ | ⟨o, hm, he⟩)
        · exact Or.inl ⟨n, hn hm, he⟩
        · exact Or.inr (Or.inl ⟨n, hn hm, o, ho hm', he⟩)
        · exact Or.inr (Or.inr ⟨o, ho hm, he⟩)
      rw [diff_cons_cons] at h
      split_ifs at h
      · rcases List.mem_cons.mp h with rfl | h
        · exact Or.inr (Or.inl ⟨new, by simp, old, by simp, rfl⟩)
        · exact grow (List.subset_cons_self ..) (List.subset_cons_self ..) (mem_diff news olds h)
      · rcases List.mem_cons.mp h with rfl | h
        · exact Or.inr (Or.inr ⟨old, by simp, rfl⟩)
        · exact grow (List.Subset.refl _) (List.subset_cons_self ..) (mem_diff (new :: news) olds h)
      · rcases List.mem_cons.mp h with rfl | h
        · exact Or.inl ⟨new, by simp, rfl⟩
        · exact grow (List.subset_cons_self ..) (List.Subset.refl _) (mem_diff news (old :: olds) h)
  termination_by news olds => news.length + olds.length

/-- The comparison tells the order of the keys. -/
structure Reflects [LinearOrder κ] (key : α → κ) : Prop where
  eq_iff : ∀ a b, cmp a b = 0 ↔ key a = key b
  pos_iff : ∀ a b, 0 < cmp a b ↔ key b < key a

section Keyed

variable [LinearOrder κ] {cmp} {key : α → κ}

theorem Reflects.neg_iff (hc : Reflects cmp key) (a b : α) : cmp a b < 0 ↔ key a < key b := by
  have hneg : cmp a b < 0 ↔ ¬ 0 < cmp a b ∧ ¬ cmp a b = 0 := by omega
  rw [hneg, hc.pos_iff, hc.eq_iff, not_lt, lt_iff_le_and_ne]

/-- Sorted by key, repeated keys allowed. -/
def Sorted (key : α → κ) (l : List α) : Prop := l.Pairwise (fun a b => key a ≤ key b)

theorem Sorted.tail {a : α} {l : List α} (h : Sorted key (a :: l)) : Sorted key l :=
  (List.pairwise_cons.mp h).2

theorem Sorted.filter_eq_nil {a : α} {l : List α} (h : Sorted key (a :: l)) {k : κ}
    (hk : k < key a) : (a :: l).filter (key · = k) = [] := by
  rw [List.filter_eq_nil_iff]
  intro b hb
  rcases List.mem_cons.mp hb with rfl | hb
  · simpa using hk.ne'
  · have := (List.pairwise_cons.mp h).1 b hb
    simpa using (hk.trans_le this).ne'

/-- The three ways the walk can go on when neither table is used up. -/
theorem diff_cases (hc : Reflects cmp key) (new old : α) (news olds : List α) :
    (key new = key old ∧
      diff cmp (new :: news) (old :: olds) = .upd new old :: diff cmp news olds) ∨
    (key old < key new ∧
      diff cmp (new :: news) (old :: olds) = .del old :: diff cmp (new :: news) olds) ∨
    (key new < key old ∧
      diff cmp (new :: news) (old :: olds) = .add new :: diff cmp news (old :: olds)) := by
  rw [diff_cons_cons]
  rcases lt_trichotomy (key new) (key old) with h | h | h
  · have h0 : ¬ cmp new old = 0 := fun he => h.ne ((hc.eq_iff _ _).mp he)
    have h1 : ¬ 0 < cmp new old := fun hp => lt_asymm h ((hc.pos_iff _ _).mp hp)
    exact Or.inr (Or.inr ⟨h, by rw [if_neg h0, if_neg h1]⟩)
  · exact Or.inl ⟨h, by rw [if_pos ((hc.eq_iff _ _).mpr h)]⟩
  · have h0 : ¬ cmp new old = 0 := fun he => h.ne' ((hc.eq_iff _ _).mp he)
    exact Or.inr (Or.inl ⟨h, by rw [if_neg h0, if_pos ((hc.pos_iff _ _).mpr h)]⟩)

theorem filter_keep {γ : Type} (f : γ → κ) (a : γ) {k : κ} (h : f a = k) (l : List γ) :
    (a :: l).filter (f · = k) = a :: l.filter (f · = k) :=
  List.filter_cons_of_pos (decide_eq_true h)

theorem filter_drop {γ : Type} (f : γ → κ) (a : γ) {k : κ} (h : f a ≠ k) (l : List γ) :
    (a :: l).filter (f · = k) = l.filter (f · = k) :=
  List.filter_cons_of_neg (fun hd => h (of_decide_eq_true hd))

/-- The key of a step. -/
def Edit.keyOf (key : α → κ) (e : Edit α) : κ := key e.entry

/-- The edits of one key are the edits of the two tables cut down to that key. -/
theorem diff_filter (hc : Reflects cmp key) (k : κ) : ∀ (news olds : List α),
    Sorted key news → Sorted key olds →
    (diff cmp news olds).filter (Edit.keyOf key · = k) =
      diff cmp (news.filter (key · = k)) (olds.filter (key · = k))
  | [], olds, _, _ => by
      simp only [diff_nil, List.filter_nil, List.filter_map]
      rfl
  | new :: news, [], hn, ho => by
      have ih := diff_filter hc k news [] hn.tail ho
      rw [diff_cons_nil]
      by_cases h : key new = k
      · rw [filter_keep (Edit.keyOf key) (.add new) h, filter_keep key new h, ih]
        rfl
      · rw [filter_drop (Edit.keyOf key) (.add new) h, filter_drop key new h, ih]
  | new :: news, old :: olds, hn, ho => by
      rcases diff_cases hc new old news olds with ⟨he, hd⟩ | ⟨hlt, hd⟩ | ⟨hlt, hd⟩
      · -- same key: both heads are kept or both are dropped
        have ih := diff_filter hc k news olds hn.tail ho.tail
        rw [hd]
        by_cases h : key new = k
        · rw [filter_keep (Edit.keyOf key) (.upd new old) h, filter_keep key new h, filter_keep key old (he ▸ h), ih,
            diff_cons_cons, if_pos ((hc.eq_iff _ _).mpr he)]
        · rw [filter_drop (Edit.keyOf key) (.upd new old) h, filter_drop key new h, filter_drop key old (he ▸ h), ih]
      · -- the old head comes first: the new table holds no such key
        have ih := diff_filter hc k (new :: news) olds hn ho.tail
        rw [hd]
        by_cases h : key old = k
        · have hnil : (new :: news).filter (key · = k) = [] := hn.filter_eq_nil (h ▸ hlt)
          rw [filter_keep (Edit.keyOf key) (.del old) h, filter_keep key old h, ih, hnil]
          simp
        · rw [filter_drop (Edit.keyOf key) (.del old) h, filter_drop key old h, ih]
      · -- the new head comes first: the old table holds no such key
        have ih := diff_filter hc k news (old :: olds) hn.tail ho
        rw [hd]
        by_cases h : key new = k
        · have hnil : (old :: olds).filter (key · = k) = [] := ho.filter_eq_nil (h ▸ hlt)
          rw [filter_keep (Edit.keyOf key) (.add new) h, filter_keep key new h, ih, hnil, diff_cons_nil]
        · rw [filter_drop (Edit.keyOf key) (.add new) h, filter_drop key new h, ih]
  termination_by news olds => news.length + olds.length

/-- On entries of a single key the walk just pairs them up. -/
theorem diff_eq_pair (hc : Reflects cmp key) (k : κ) : ∀ (news olds : List α),
    (∀ a ∈ news, key a = k) → (∀ a ∈ olds, key a = k) → diff cmp news olds = pair news olds
  | [], olds, _, _ => by cases olds <;> rfl
  | new :: news, [], hn, ho => by
      have ih := diff_eq_pair hc k news [] (fun a ha => hn a (List.mem_cons_of_mem _ ha)) ho
      rw [diff_cons_nil, ih]
      cases news <;> rfl
  | new :: news, old :: olds, hn, ho => by
      have he : key new = key old :=
        (hn new (List.mem_cons_self ..)).trans (ho old (List.mem_cons_self ..)).symm
      rw [diff_cons_cons, if_pos ((hc.eq_iff _ _).mpr he),
        diff_eq_pair hc k news olds (fun a ha => hn a (List.mem_cons_of_mem _ ha))
          (fun a ha => ho a (List.mem_cons_of_mem _ ha))]
      rfl

/-! ### Tables without repeated keys -/

/-- Sorted by key, no key twice. -/
def Strict (key : α → κ) (l : List α) : Prop := l.Pairwise (fun a b => key a < key b)

theorem Strict.sorted {l : List α} (h : Strict key l) : Sorted key l :=
  List.Pairwise.imp le_of_lt h

/-- The entries of one key are at most one. -/
theorem Strict.filter {l : List α} (h : Strict key l) (k : κ) :
    l.filter (key · = k) = [] ∨ ∃ a ∈ l, key a = k ∧ l.filter (key · = k) = [a] := by
  induction l with
  | nil => exact Or.inl rfl
  | cons a l ih =>
    obtain ⟨hlt, hl⟩ := List.pairwise_cons.mp h
    by_cases hk : key a = k
    · have hnil : l.filter (key · = k) = [] := by
        rw [List.filter_eq_nil_iff]
        intro b hb
        simpa using (hk ▸ hlt b hb).ne'
      exact Or.inr ⟨a, List.mem_cons_self .., hk, by rw [filter_keep key a hk, hnil]⟩
    · rw [filter_drop key a hk]
      rcases ih hl with hnil | ⟨b, hb, hkb, hone⟩
      · exact Or.inl hnil
      · exact Or.inr ⟨b, List.mem_cons_of_mem a hb, hkb, hone⟩

/-- The edit of a key fits what the tables hold of it. -/
def Edit.Fits (key : α → κ) (news olds : List α) : Edit α → Prop
  | .upd n o => n ∈ news ∧ o ∈ olds ∧ key n = key o
  | .add n => n ∈ news ∧ ∀ o ∈ olds, key o ≠ key n
  | .del o => o ∈ olds ∧ ∀ n ∈ news, key n ≠ key o

theorem filter_eq_nil {l : List α} {k : κ} (h : l.filter (key · = k) = []) : ∀ a ∈ l, key a ≠ k := by
  rw [List.filter_eq_nil_iff] at h
  intro a ha hk
  exact h a ha (decide_eq_true hk)

/-- What the walk does to a key: nothing, if neither table holds it, and else the one edit that fits. -/
theorem filter_diff (hc : Reflects cmp key) {news olds : List α} (hn : Strict key news)
    (ho : Strict key olds) (k : κ) :
    ((∀ n ∈ news, key n ≠ k) ∧ (∀ o ∈ olds, key o ≠ k) ∧
      (diff cmp news olds).filter (Edit.keyOf key · = k) = []) ∨
    ∃ e : Edit α, e.keyOf key = k ∧ e.Fits key news olds ∧
      (diff cmp news olds).filter (Edit.keyOf key · = k) = [e] := by
  have hkey : ∀ l : List α, ∀ a ∈ l.filter (key · = k), key a = k :=
    fun l a ha => of_decide_eq_true (List.mem_filter.mp ha).2
  rw [diff_filter hc k news olds hn.sorted ho.sorted,
    diff_eq_pair hc k _ _ (hkey news) (hkey olds)]
  rcases hn.filter k with hnil | ⟨n, hmem, hkn, hone⟩
  · rcases ho.filter k with hnil' | ⟨o, hmem', hko, hone'⟩
    · rw [hnil, hnil']
      exact Or.inl ⟨filter_eq_nil hnil, filter_eq_nil hnil', rfl⟩
    · rw [hnil, hone']
      exact Or.inr ⟨.del o, hko, ⟨hmem', hko ▸ filter_eq_nil hnil⟩, rfl⟩
  · rcases ho.filter k with hnil' | ⟨o, hmem', hko, hone'⟩
    · rw [hone, hnil']
      exact Or.inr ⟨.add n, hkn, ⟨hmem, hkn ▸ filter_eq_nil hnil'⟩, rfl⟩
    · rw [hone, hone']
      exact Or.inr ⟨.upd n o, hkn, ⟨hmem, hmem', hkn.trans hko.symm⟩, rfl⟩

/-- Every edit of the walk fits. -/
theorem fits_of_mem_diff (hc : Reflects cmp key) {news olds : List α} (hn : Strict key news)
    (ho : Strict key olds) {e : Edit α} (he : e ∈ diff cmp news olds) : e.Fits key news olds := by
  have hmem : e ∈ (diff cmp news olds).filter (Edit.keyOf key · = e.keyOf key) :=
    List.mem_filter.mpr ⟨he, decide_eq_true rfl⟩
  rcases filter_diff hc hn ho (e.keyOf key) with ⟨-, -, hnil⟩ | ⟨e', -, hfits, hone⟩
  · rw [hnil] at hmem
    exact absurd hmem List.not_mem_nil
  · rw [hone, List.mem_singleton] at hmem
    rwa [hmem]

/-- The walk comes to the keys of both tables, and to no others. -/
theorem mem_keys_diff (hc : Reflects cmp key) {news olds : List α} (hn : Strict key news)
    (ho : Strict key olds) (k : κ) :
    k ∈ (diff cmp news olds).map (Edit.keyOf key) ↔ k ∈ news.map key ∨ k ∈ olds.map key := by
  have hiff : k ∈ (diff cmp news olds).map (Edit.keyOf key) ↔
      (diff cmp news olds).filter (Edit.keyOf key · = k) ≠ [] := by
    rw [Ne, List.filter_eq_nil_iff, List.mem_map]
    simp
  rw [hiff]
  rcases filter_diff hc hn ho k with ⟨hnews, holds, hnil⟩ | ⟨e, hk, hfits, hone⟩
  · refine iff_of_false (fun h => h hnil) ?_
    rintro (h | h)
    · obtain ⟨n, hn', hk⟩ := List.mem_map.mp h
      exact hnews n hn' hk
    · obtain ⟨o, ho', hk⟩ := List.mem_map.mp h
      exact holds o ho' hk
  · refine iff_of_true (by rw [hone]; exact List.cons_ne_nil _ _) ?_
    rw [← hk]
    cases e with
    | upd n o => exact Or.inl (List.mem_map_of_mem hfits.1)
    | add n => exact Or.inl (List.mem_map_of_mem hfits.1)
    | del o => exact Or.inr (List.mem_map_of_mem hfits.1)

/-- What is less than all the keys of the tables is less than the keys of the walk. -/
theorem lt_keyOf_diff (hc : Reflects cmp key) {news olds : List α} (hn : Strict key news)
    (ho : Strict key olds) {k : κ} (hltn : ∀ n ∈ news, k < key n) (hlto : ∀ o ∈ olds, k < key o) :
    ∀ e ∈ diff cmp news olds, k < e.keyOf key := by
  intro e he
  rcases (mem_keys_diff hc hn ho (e.keyOf key)).mp (List.mem_map_of_mem he) with hk | hk
  · obtain ⟨n, hmem, hkn⟩ := List.mem_map.mp hk
    exact hkn ▸ hltn n hmem
  · obtain ⟨o, hmem, hko⟩ := List.mem_map.mp hk
    exact hko ▸ hlto o hmem

/-- The walk comes to the keys in increasing order. -/
theorem strict_diff (hc : Reflects cmp key) : ∀ (news olds : List α), Strict key news →
    Strict key olds → Strict (Edit.keyOf key) (diff cmp news olds)
  | [], olds, _, ho => by
      rw [diff_nil]
      exact List.pairwise_map.mpr ho
  | new :: news, [], hn, ho => by
      obtain ⟨hlt, hn'⟩ := List.pairwise_cons.mp hn
      rw [diff_cons_nil]
      refine List.pairwise_cons.mpr ⟨?_, strict_diff hc news [] hn' ho⟩
      exact lt_keyOf_diff hc hn' ho hlt (fun _ h => absurd h List.not_mem_nil)
  | new :: news, old :: olds, hn, ho => by
      obtain ⟨hltn, hn'⟩ := List.pairwise_cons.mp hn
      obtain ⟨hlto, ho'⟩ := List.pairwise_cons.mp ho
      rcases diff_cases hc new old news olds with ⟨he, hd⟩ | ⟨hlt, hd⟩ | ⟨hlt, hd⟩
      · rw [hd]
        refine List.pairwise_cons.mpr ⟨?_, strict_diff hc news olds hn' ho'⟩
        exact lt_keyOf_diff hc hn' ho' hltn (fun o h => he.trans_lt (hlto o h))
      · rw [hd]
        refine List.pairwise_cons.mpr ⟨?_, strict_diff hc (new :: news) olds hn ho'⟩
        refine lt_keyOf_diff hc hn ho' (List.forall_mem_cons.mpr ⟨hlt, fun n h => ?_⟩) hlto
        exact hlt.trans (hltn n h)
      · rw [hd]
        refine List.pairwise_cons.mpr ⟨?_, strict_diff hc news (old :: olds) hn' ho⟩
        refine lt_keyOf_diff hc hn' ho hltn (List.forall_mem_cons.mpr ⟨hlt, fun o h => ?_⟩)
        exact hlt.trans (hlto o h)
  termination_by news olds => news.length + olds.length

end Keyed

/-- A fold of local effects, seen at one key, is the fold of the edits of that key. -/
theorem foldl_at [DecidableEq κ] {ε : Type} (key : ε → κ) (eff : (κ → τ) → ε → κ → τ)
    (loc : τ → ε → τ) (h : ∀ t e k, eff t e k = if key e = k then loc (t k) e else t k) :
    ∀ (es : List ε) (t : κ → τ) (k : κ),
      es.foldl eff t k = (es.filter (key · = k)).foldl loc (t k)
  | [], _, _ => rfl
  | e :: es, t, k => by
      rw [List.foldl_cons, foldl_at key eff loc h es (eff t e) k, h]
      by_cases hk : key e = k
      · rw [if_pos hk, List.filter_cons_of_pos (by simpa using hk), List.foldl_cons]
      · rw [if_neg hk, List.filter_cons_of_neg (by simpa using hk)]

end Merge
