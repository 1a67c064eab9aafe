import Mathlib.Algebra.Group.Submonoid.Basic
import Mathlib.Algebra.Group.End
import Mathlib.Data.List.Pairwise
import Ucentral.Lib.Parser

/-! Structures made of cells, and parsers each of which writes one of them.

    What is written to a cell may depend on what is in it, not on the others. Writes to different cells
    commute, so a list of them, each with a cell of its own, does the same in any order, and what a cell
    holds in the end is due to its own write. -/

/-- The cells of a structure, each with its own type. -/
structure Cells (τ κ : Type) (α : κ → Type) where
  get : (k : κ) → τ → α k
  set : (k : κ) → α k → τ → τ
  get_set : ∀ k a t, get k (set k a t) = a
  set_get : ∀ k t, set k (get k t) t = t
  set_set : ∀ k a b t, set k a (set k b t) = set k a t
  get_set_ne : ∀ {k l}, k ≠ l → ∀ a t, get k (set l a t) = get k t
  set_comm : ∀ {k l}, k ≠ l → ∀ a b t, set k a (set l b t) = set l b (set k a t)

namespace Cells

variable {τ κ ι : Type} {α : κ → Type} (C : Cells τ κ α)

/-- The writes to a cell. -/
def writes (k : κ) : Submonoid (Function.End τ) where
  carrier := {f | ∃ g : α k → α k, ∀ t, f t = C.set k (g (C.get k t)) t}
  one_mem' := ⟨id, fun t => (C.set_get k t).symm⟩
  mul_mem' := by
    rintro f f' ⟨g, hg⟩ ⟨g', hg'⟩
    refine ⟨g ∘ g', fun t => ?_⟩
    change f (f' t) = _
    rw [hg, hg', C.get_set, C.set_set]
    rfl

theorem commute {k l : κ} (hkl : k ≠ l) {f f' : Function.End τ} (hf : f ∈ C.writes k)
    (hf' : f' ∈ C.writes l) (t : τ) : f (f' t) = f' (f t) := by
  obtain ⟨g, hg⟩ := hf
  obtain ⟨g', hg'⟩ := hf'
  rw [hg, hg', hg', hg, C.get_set_ne hkl, C.get_set_ne hkl.symm, C.set_comm hkl]

theorem get_of_ne {k l : κ} (hkl : k ≠ l) {f : Function.End τ} (hf : f ∈ C.writes l) (t : τ) :
    C.get k (f t) = C.get k t := by
  obtain ⟨g, hg⟩ := hf
  rw [hg, C.get_set_ne hkl]

variable {key : ι → κ} {f : ι → Function.End τ}

/-- Writes to different cells may be done in any order. -/
theorem foldl_perm {xs ys : List ι} (hp : xs.Perm ys) (hf : ∀ x ∈ xs, f x ∈ C.writes (key x))
    (hkey : xs.Pairwise fun x y => key x ≠ key y) (t : τ) :
    xs.foldl (fun t x => f x t) t = ys.foldl (fun t x => f x t) t := by
  refine hp.foldl_eq' (fun x hx y hy t => ?_) t
  by_cases hxy : x = y
  · rw [hxy]
  · have hsymm : Std.Symm fun x y => key x ≠ key y := ⟨fun _ _ h => h.symm⟩
    have hne : key x ≠ key y := hkey.forall hx hy hxy
    exact (C.commute hne (hf x hx) (hf y hy) t).symm

theorem get_foldl_of_ne {k : κ} : ∀ (xs : List ι) (t : τ), (∀ x ∈ xs, f x ∈ C.writes (key x)) →
    (∀ x ∈ xs, k ≠ key x) → C.get k (xs.foldl (fun t x => f x t) t) = C.get k t
  | [], _, _, _ => rfl
  | x :: xs, t, hf, hk => by
      have ih := get_foldl_of_ne xs (f x t) (fun y hy => hf y (List.mem_cons_of_mem _ hy))
        fun y hy => hk y (List.mem_cons_of_mem _ hy)
      rw [List.foldl_cons, ih]
      exact C.get_of_ne (hk x List.mem_cons_self) (hf x List.mem_cons_self) t

/-- In the end each cell holds what its own write makes of the first structure. -/
theorem get_foldl {xs : List ι} (hf : ∀ x ∈ xs, f x ∈ C.writes (key x))
    (hkey : xs.Pairwise fun x y => key x ≠ key y) {x : ι} (hx : x ∈ xs) (t : τ) :
    C.get (key x) (xs.foldl (fun t x => f x t) t) = C.get (key x) (f x t) := by
  obtain ⟨pre, post, rfl⟩ := List.append_of_mem hx
  have hp : (pre ++ x :: post).Perm (x :: (pre ++ post)) := List.perm_middle
  have hne : ∀ y ∈ pre ++ post, key x ≠ key y :=
    (List.pairwise_cons.mp ((hp.pairwise_iff fun h => h.symm).mp hkey)).1
  rw [C.foldl_perm hp hf hkey, List.foldl_cons]
  refine C.get_foldl_of_ne _ _ (fun y hy => hf y ?_) hne
  exact hp.mem_iff.mpr (List.mem_cons_of_mem _ hy)

end Cells

namespace Parse

variable {σ τ β : Type} {part : σ → τ} {F : Submonoid (Function.End τ)} {A B : Prop}

/-- Whatever the structure is so far, the parser accepts exactly if `A` holds, and then does one of the
    writes to the part. -/
structure Acts (part : σ → τ) (F : Submonoid (Function.End τ)) (A : Prop) (x : Parser σ Unit) :
    Prop where
  accepts : ∀ s, (x s).1 = .ok () ↔ A
  writes : ∃ f ∈ F, ∀ s, (x s).1 = .ok () → part (x s).2 = f (part s)

theorem acts_pure : Acts part F True (pure ()) :=
  ⟨fun _ => iff_of_true rfl trivial, 1, F.one_mem, fun _ _ => rfl⟩

theorem acts_fill {f : σ → σ} {g : Function.End τ} (hg : g ∈ F) (h : ∀ s, part (f s) = g (part s)) :
    Acts part F True (Parser.fill f) :=
  ⟨fun _ => iff_of_true rfl trivial, g, hg, fun s _ => h s⟩

theorem acts_pass (c : Check) : Acts part F (c.holds = true) c.pass := by
  refine ⟨fun s => ?_, 1, F.one_mem, fun s _ => by rw [pass_snd]; rfl⟩
  unfold Check.pass
  by_cases hc : c.holds = true
  · rw [if_pos hc]
    exact iff_of_true rfl hc
  · rw [if_neg hc]
    exact iff_of_false nofun hc

theorem acts_need (b : Bool) : Acts part F (b = true) (need b) := acts_pass (.need b)

theorem acts_text (v : Option String) : Acts part F (v.isSome = true) (text v) := by
  cases v with
  | none => exact acts_pass (.text none none)
  | some s => exact acts_pass (.text (some s) none)

/-- Two strings that are tested together. -/
theorem acts_shown (v w : Option String) :
    Acts part F (v.isSome = true ∧ w.isSome = true) (shown [v, w]) := by
  have h : Acts part F ((Check.shown [v, w]).holds = true) (shown [v, w]) :=
    acts_pass (.shown [v, w])
  rwa [show (Check.shown [v, w]).holds = (v.isSome && w.isSome) by simp [Check.holds],
    Bool.and_eq_true] at h

theorem Acts.congr {x : Parser σ Unit} (hx : Acts part F A x) (h : A ↔ B) : Acts part F B x :=
  ⟨fun s => (hx.accepts s).trans h, hx.writes⟩

/-- The sequence rule. -/
theorem acts_bind {x y : Parser σ Unit} (hx : Acts part F A x) (hy : Acts part F B y) :
    Acts part F (A ∧ B) (x >>= fun _ => y) := by
  obtain ⟨f, hf, hxf⟩ := hx.writes
  obtain ⟨g, hg, hyg⟩ := hy.writes
  refine ⟨fun s => ⟨fun h => ?_, fun h => ?_⟩, g * f, F.mul_mem hg hf, fun s h => ?_⟩
  · obtain ⟨_, hs, heq⟩ := Parser.bind_ok h
    rw [heq] at h
    exact ⟨(hx.accepts s).mp hs, (hy.accepts _).mp h⟩
  · have hs : x s = (.ok (), (x s).2) := Prod.ext ((hx.accepts s).mpr h.1) rfl
    rw [Parser.bind_of_ok hs]
    exact (hy.accepts _).mpr h.2
  · obtain ⟨_, hs, heq⟩ := Parser.bind_ok h
    rw [heq] at h ⊢
    exact (hyg _ h).trans (congrArg g (hxf s hs))

/-- A local structure, and what is done with it once it is filled. -/
theorem acts_scratch_bind {ρ : Type} {init : ρ} {x : Parser ρ Unit} {y : ρ → Parser σ Unit}
    (hy : (x init).1 = .ok () → Acts part F B (y (x init).2)) :
    Acts part F ((x init).1 = .ok () ∧ B) (Parser.scratch init x >>= y) := by
  by_cases hok : (x init).1 = .ok ()
  · have hrun : ∀ s, (Parser.scratch init x >>= y) s = y (x init).2 s := by
      intro s
      refine Parser.bind_of_ok ?_
      unfold Parser.scratch
      cases hx : x init with
      | mk r t =>
        rw [hx] at hok
        obtain rfl : r = .ok () := hok
        rfl
    obtain ⟨haccepts, f, hf, hwrites⟩ := hy hok
    refine ⟨fun s => ?_, f, hf, fun s h => ?_⟩
    · rw [hrun s, haccepts s]
      exact (and_iff_right hok).symm
    · rw [hrun s] at h ⊢
      exact hwrites s h
  · have hrun : ∀ s, ¬ ((Parser.scratch init x >>= y) s).1 = .ok () :=
      fun s h => hok (scratch_bind_ok h).1
    exact ⟨fun s => iff_of_false (hrun s) fun h => hok h.1, 1, F.one_mem, fun s h => absurd h (hrun s)⟩

theorem acts_when {b : Bool} {x : Parser σ Unit} (hx : b = true → Acts part F A x) :
    Acts part F (b = true → A) (Parser.when b x) := by
  cases b with
  | false => exact acts_pure.congr (iff_of_true trivial nofun)
  | true => exact (hx rfl).congr ⟨fun h _ => h, fun h => h rfl⟩

/-- The loop rule. -/
theorem acts_forM {f : β → Parser σ Unit} {A : β → Prop} : ∀ (xs : List β),
    (∀ x ∈ xs, Acts part F (A x) (f x)) → Acts part F (∀ x ∈ xs, A x) (forM xs f)
  | [], _ => acts_pure.congr (iff_of_true trivial nofun)
  | x :: xs, h => by
      have ih := acts_forM xs fun y hy => h y (List.mem_cons_of_mem _ hy)
      rw [List.forM_cons]
      exact (acts_bind (h x List.mem_cons_self) ih).congr List.forall_mem_cons.symm

theorem acts_within {ρ : Type} {get : σ → ρ} {set : ρ → σ → σ} {x : Parser ρ Unit}
    {g : Function.End τ} (hx : ∀ s, (x s).1 = .ok () ↔ A) (hg : g ∈ F)
    (h : ∀ s, part (set (x (get s)).2 s) = g (part s)) : Acts part F A (Parser.within get set x) :=
  ⟨fun s => hx (get s), g, hg, fun s _ => h s⟩

/-- The second try always rejects. -/
theorem acts_orElse_left {x y : Parser σ Unit} (hx : Acts part F A x)
    (hy : ∀ s, (y s).1 = .error .reject) : Acts part F A (Parser.orElse x y) := by
  have hcases : ∀ s, (x s).1 = .ok () ∧ Parser.orElse x y s = x s ∨
      (x s).1 ≠ .ok () ∧ (Parser.orElse x y s).1 ≠ .ok () := by
    intro s
    unfold Parser.orElse
    cases hs : x s with
    | mk r t =>
      cases r with
      | ok u => exact Or.inl ⟨rfl, rfl⟩
      | error e =>
        refine Or.inr ⟨nofun, ?_⟩
        cases e with
        | reject =>
          dsimp only
          rw [hy t]
          nofun
        | format | fault => nofun
  obtain ⟨haccepts, f, hf, hwrites⟩ := hx
  refine ⟨fun s => ?_, f, hf, fun s h => ?_⟩
  · rw [← haccepts s]
    rcases hcases s with ⟨-, heq⟩ | ⟨hs, hno⟩
    · rw [heq]
    · exact iff_of_false hno hs
  · rcases hcases s with ⟨hs, heq⟩ | ⟨-, hno⟩
    · rw [heq]
      exact hwrites s hs
    · exact absurd h hno

/-- The first try always rejects, and fills nothing in. -/
theorem acts_orElse_right {x y : Parser σ Unit} (hx : ∀ s, x s = (.error .reject, s))
    (hy : Acts part F A y) : Acts part F A (Parser.orElse x y) := by
  have heq : Parser.orElse x y = y := by
    funext s
    unfold Parser.orElse
    rw [hx s]
  rw [heq]
  exact hy

/-! ### Only the verdict -/

/-- Whatever the structure is so far, the parser accepts exactly if `A` holds. -/
abbrev Judges (A : Prop) (x : Parser σ Unit) : Prop := Acts (fun _ : σ => ()) ⊤ A x

theorem judges_of_accepts {x : Parser σ Unit} (h : ∀ s, (x s).1 = .ok () ↔ A) : Judges A x :=
  ⟨h, 1, Submonoid.mem_top _, fun _ _ => rfl⟩

theorem judges_fill (f : σ → σ) : Judges True (Parser.fill f) :=
  judges_of_accepts fun _ => iff_of_true rfl trivial

theorem Acts.judges {x : Parser σ Unit} (hx : Acts part F A x) : Judges A x :=
  judges_of_accepts hx.accepts

/-! ### Loops whose turns write different cells -/

theorem forM_congr {f g : β → Parser σ Unit} : ∀ (xs : List β), (∀ x ∈ xs, f x = g x) →
    forM xs f = forM xs g
  | [], _ => rfl
  | x :: xs, h => by
      rw [List.forM_cons, List.forM_cons, h x List.mem_cons_self,
        forM_congr xs fun y hy => h y (List.mem_cons_of_mem _ hy)]

/-- A loop that counts its turns and does not use the count. -/
theorem forM_zipIdx {f : β × ℕ → Parser σ Unit} {g : β → Parser σ Unit} (xs : List β)
    (h : ∀ e ∈ xs.zipIdx, f e = g e.1) : forM xs.zipIdx f = forM xs g := by
  rw [forM_congr _ h, ← List.forM_map, List.zipIdx_map_fst]

section Loop

variable {ι κ : Type} {α : κ → Type} {C : Cells τ κ α} {key : ι → κ} {turn : ι → Parser σ Unit}
  {A : ι → Prop}

/-- An accepted loop is the writes of its turns, one after another. -/
theorem part_forM {f : ι → Function.End τ} : ∀ (xs : List ι) (s : σ),
    (∀ x ∈ xs, ∀ s, (turn x s).1 = .ok () → part (turn x s).2 = f x (part s)) →
    (forM xs turn s).1 = .ok () →
    part (forM xs turn s).2 = xs.foldl (fun t x => f x t) (part s)
  | [], _, _, _ => rfl
  | x :: xs, s, hf, h => by
      rw [List.forM_cons] at h ⊢
      obtain ⟨_, hx, heq⟩ := Parser.bind_ok h
      rw [heq] at h ⊢
      rw [part_forM xs _ (fun y hy => hf y (List.mem_cons_of_mem _ hy)) h,
        hf x List.mem_cons_self s hx, List.foldl_cons]

/-- The turns may be taken in any order, and each cell is what its own turn alone makes of it. -/
theorem forM_apart {xs : List ι} (hacts : ∀ x ∈ xs, Acts part (C.writes (key x)) (A x) (turn x))
    (hkey : xs.Pairwise fun x y => key x ≠ key y) {s : σ} (hok : (forM xs turn s).1 = .ok ()) :
    (∀ ys, xs.Perm ys → (forM ys turn s).1 = .ok () ∧
      part (forM ys turn s).2 = part (forM xs turn s).2) ∧
    ∀ x ∈ xs, C.get (key x) (part (forM xs turn s).2) = C.get (key x) (part (turn x s).2) := by
  classical
  have hwrites : ∀ x, ∃ f : Function.End τ, x ∈ xs → f ∈ C.writes (key x) ∧
      ∀ s, (turn x s).1 = .ok () → part (turn x s).2 = f (part s) := by
    intro x
    by_cases hx : x ∈ xs
    · obtain ⟨f, hf⟩ := (hacts x hx).writes
      exact ⟨f, fun _ => hf⟩
    · exact ⟨1, fun h => absurd h hx⟩
  choose f hf using hwrites
  have hmem : ∀ x ∈ xs, f x ∈ C.writes (key x) := fun x hx => (hf x hx).1
  have hrun : ∀ ys, xs.Perm ys → (forM ys turn s).1 = .ok () →
      part (forM ys turn s).2 = ys.foldl (fun t x => f x t) (part s) := fun ys hp h =>
    part_forM ys s (fun x hx => (hf x (hp.mem_iff.mpr hx)).2) h
  have hjudges : ∀ ys, xs.Perm ys → Judges (∀ x ∈ ys, A x) (forM ys turn) := fun ys hp =>
    acts_forM ys fun x hx => (hacts x (hp.mem_iff.mpr hx)).judges
  have hA : ∀ x ∈ xs, A x := ((hjudges xs (List.Perm.refl _)).accepts s).mp hok
  constructor
  · intro ys hp
    have hok' : (forM ys turn s).1 = .ok () :=
      ((hjudges ys hp).accepts s).mpr fun x hx => hA x (hp.mem_iff.mpr hx)
    refine ⟨hok', ?_⟩
    rw [hrun ys hp hok', hrun xs (List.Perm.refl _) hok]
    exact (C.foldl_perm hp hmem hkey _).symm
  · intro x hx
    have hone : (turn x s).1 = .ok () := ((hacts x hx).accepts s).mpr (hA x hx)
    rw [hrun xs (List.Perm.refl _) hok, (hf x hx).2 s hone]
    exact C.get_foldl hmem hkey hx _

end Loop

end Parse
