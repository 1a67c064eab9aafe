import Mathlib.Tactic.Common

/-! Properties of the steps of a run.

    A run folds inputs over a state. `EveryStep f P s is` says that each input of the run meets `P` in
    the state it arrives at. The same definition serves for what a run guarantees and for what it
    assumes about its inputs; the simulation rule derives the first from the second.

    A machine that answers each input has the list of its answers as its behaviour. Two machines
    that stay related while they give the same answers behave alike. -/

namespace Run

variable {σ τ ι : Type}

/-- Every input of the run from `s` meets `P` in the state before it. -/
def EveryStep (f : σ → ι → σ) (P : σ → ι → Prop) (s : σ) (is : List ι) : Prop :=
  ∀ pre i, pre ++ [i] <+: is → P (pre.foldl f s) i

variable {f : σ → ι → σ} {P : σ → ι → Prop}

theorem everyStep_nil (s : σ) : EveryStep f P s [] := by
  intro pre i hp
  simp at hp

theorem everyStep_cons (s : σ) (i : ι) (is : List ι) :
    EveryStep f P s (i :: is) ↔ P s i ∧ EveryStep f P (f s i) is := by
  constructor
  · intro h
    refine ⟨h [] i (by simp), fun pre j hp => ?_⟩
    exact h (i :: pre) j (by simpa using hp)
  · rintro ⟨h0, h⟩ pre j hp
    cases pre with
    | nil =>
      have hj : j = i := by simpa using hp
      rw [hj]
      exact h0
    | cons k pre =>
      simp only [List.cons_append, List.cons_prefix_cons] at hp
      obtain ⟨rfl, hp⟩ := hp
      exact h pre j hp

instance decidableEveryStep [∀ s i, Decidable (P s i)] :
    ∀ (is : List ι) (s : σ), Decidable (EveryStep f P s is)
  | [], s => isTrue (everyStep_nil s)
  | i :: is, s =>
    have := decidableEveryStep is (f s i)
    decidable_of_iff (P s i ∧ EveryStep f P (f s i) is) (everyStep_cons s i is).symm

/-- If related states stay related along inputs that meet `Q`, and then meet `P`, every run whose
    steps meet `Q` is one whose steps meet `P`. -/
theorem everyStep_of_simulation {g : τ → ι → τ} {Q : τ → ι → Prop} {R : τ → σ → Prop}
    (hstep : ∀ t s i, R t s → Q t i → R (g t i) (f s i) ∧ P s i) :
    ∀ (is : List ι) (t : τ) (s : σ), R t s → EveryStep g Q t is → EveryStep f P s is
  | [], _, s, _, _ => everyStep_nil s
  | i :: is, t, s, hr, hq => by
      rw [everyStep_cons] at hq ⊢
      obtain ⟨hr', hp⟩ := hstep t s i hr hq.1
      exact ⟨hp, everyStep_of_simulation hstep is (g t i) (f s i) hr' hq.2⟩

/-- If steps that meet `C` keep an invariant and then meet `P`, so do the steps of a run. -/
theorem everyStep_of_invariant {I : σ → Prop} {C : σ → ι → Prop}
    (hstep : ∀ s i, I s → C s i → I (f s i) ∧ P s i) (is : List ι) {s : σ} (hs : I s)
    (h : EveryStep f C s is) : EveryStep f P s is := by
  refine everyStep_of_simulation (R := fun t s => t = s ∧ I s) ?_ is s s ⟨rfl, hs⟩ h
  rintro t s i ⟨rfl, hi⟩ hc
  exact ⟨⟨rfl, (hstep t i hi hc).1⟩, (hstep t i hi hc).2⟩

/-- An invariant that the steps keep holds at the end of the run. -/
theorem foldl_of_invariant {I : σ → Prop} (hstep : ∀ s i, I s → P s i → I (f s i))
    (is : List ι) {s : σ} (hs : I s) (h : EveryStep f P s is) : I (is.foldl f s) := by
  induction is generalizing s with
  | nil => exact hs
  | cons i is ih =>
    rw [everyStep_cons] at h
    exact ih (hstep s i hs h.1) h.2

/-- An invariant of the inputs so far and the state they lead to, kept by each further input, holds of
    the whole run. -/
theorem foldl_of_history {I : List ι → σ → Prop}
    (hstep : ∀ pre s i, I pre s → I (pre ++ [i]) (f s i)) :
    ∀ (is pre : List ι) (s : σ), I pre s → I (pre ++ is) (is.foldl f s)
  | [], pre, s, h => by rwa [List.append_nil]
  | i :: is, pre, s, h => by
      have ih := foldl_of_history hstep is (pre ++ [i]) (f s i) (hstep pre s i h)
      rwa [List.append_assoc] at ih

/-- If from the states of an invariant a step meets `P` exactly if it meets `C`, and then keeps the
    invariant, the steps of a run all meet `P` exactly if they all meet `C`. -/
theorem everyStep_iff {I : σ → Prop} {C : σ → ι → Prop} (hiff : ∀ s i, I s → (P s i ↔ C s i))
    (hkeep : ∀ s i, I s → P s i → I (f s i)) :
    ∀ (is : List ι) (s : σ), I s → (EveryStep f P s is ↔ EveryStep f C s is)
  | [], s, _ => iff_of_true (everyStep_nil s) (everyStep_nil s)
  | i :: is, s, hs => by
      rw [everyStep_cons, everyStep_cons, ← hiff s i hs]
      refine and_congr_right (fun hp => ?_)
      exact everyStep_iff hiff hkeep is (f s i) (hkeep s i hs hp)

/-! ### What has happened and was not undone -/

theorem everyStep_concat (s : σ) (is : List ι) (i : ι) :
    EveryStep f P s (is ++ [i]) ↔ EveryStep f P s is ∧ P (is.foldl f s) i := by
  constructor
  · intro h
    exact ⟨fun pre j hp => h pre j (hp.trans (List.prefix_append is [i])),
      h is i (List.prefix_refl _)⟩
  · rintro ⟨h, hi⟩ pre j hp
    rcases List.prefix_concat_iff.mp hp with he | hp
    · obtain ⟨rfl, hj⟩ := List.append_inj' he rfl
      rw [List.singleton_inj.mp hj]
      exact hi
    · exact h pre j hp

/-- Some input of the run met `D`, and none after it met `R`. -/
def Since (f : σ → ι → σ) (D R : σ → ι → Prop) (s : σ) (is : List ι) : Prop :=
  ∃ pre i post, is = pre ++ i :: post ∧ D (pre.foldl f s) i ∧
    EveryStep f (fun s i => ¬ R s i) ((pre ++ [i]).foldl f s) post

variable {D R : σ → ι → Prop}

theorem not_since_nil (s : σ) : ¬ Since f D R s [] := by
  rintro ⟨pre, i, post, h, -, -⟩
  simp at h

/-- A last input brings it about, or leaves it. -/
theorem since_concat (s : σ) (is : List ι) (i : ι) :
    Since f D R s (is ++ [i]) ↔ D (is.foldl f s) i ∨ Since f D R s is ∧ ¬ R (is.foldl f s) i := by
  constructor
  · rintro ⟨pre, j, post, h, hd, hr⟩
    rcases List.eq_nil_or_concat post with rfl | ⟨mid, k, rfl⟩
    · obtain ⟨rfl, hj⟩ := List.append_inj' h rfl
      rw [List.singleton_inj.mp hj]
      exact Or.inl hd
    · rw [List.concat_eq_append] at h hr
      have h' : is ++ [i] = (pre ++ j :: mid) ++ [k] := by simpa using h
      obtain ⟨rfl, hk⟩ := List.append_inj' h' rfl
      rw [everyStep_concat, ← List.foldl_append, List.append_assoc] at hr
      rw [List.singleton_inj.mp hk]
      exact Or.inr ⟨⟨pre, j, mid, rfl, hd, hr.1⟩, hr.2⟩
  · rintro (hd | ⟨⟨pre, j, post, rfl, hd, hr⟩, hi⟩)
    · exact ⟨is, i, [], rfl, hd, everyStep_nil _⟩
    · refine ⟨pre, j, post ++ [i], by simp, hd, (everyStep_concat _ _ _).mpr ⟨hr, ?_⟩⟩
      rwa [← List.foldl_append, List.append_assoc]

/-! ### What a run answers -/

section Outputs

variable {ω : Type}

/-- The answers of a machine to the inputs, from the state `s` on. -/
def outputs (step : σ → ι → ω × σ) : σ → List ι → List ω
  | _, [] => []
  | s, i :: is => (step s i).1 :: outputs step (step s i).2 is

/-- The state of a machine after the inputs. -/
def after (step : σ → ι → ω × σ) (s : σ) (is : List ι) : σ := is.foldl (fun s i => (step s i).2) s

theorem after_append (step : σ → ι → ω × σ) (s : σ) (is js : List ι) :
    after step s (is ++ js) = after step (after step s is) js :=
  List.foldl_append

theorem outputs_append (step : σ → ι → ω × σ) :
    ∀ (is js : List ι) (s : σ),
      outputs step s (is ++ js) = outputs step s is ++ outputs step (after step s is) js
  | [], _, _ => rfl
  | i :: is, js, s => by
      simp only [List.cons_append, outputs]
      rw [outputs_append step is js]
      rfl

theorem length_outputs (step : σ → ι → ω × σ) :
    ∀ (is : List ι) (s : σ), (outputs step s is).length = is.length
  | [], _ => rfl
  | i :: is, s => by rw [outputs, List.length_cons, length_outputs step is, List.length_cons]

/-- Machines that stay related while they give the same answers behave alike. -/
theorem outputs_eq_of_simulation {f : σ → ι → ω × σ} {g : τ → ι → ω × τ} {R : σ → τ → Prop}
    (hstep : ∀ s t i, R s t → (f s i).1 = (g t i).1 ∧ R (f s i).2 (g t i).2) :
    ∀ (is : List ι) (s : σ) (t : τ), R s t → outputs f s is = outputs g t is
  | [], _, _, _ => rfl
  | i :: is, s, t, hr => by
      obtain ⟨hout, hr'⟩ := hstep s t i hr
      rw [outputs, outputs, hout, outputs_eq_of_simulation hstep is _ _ hr']

/-- If two machines behave alike on a run, they do at each of its inputs. -/
theorem outputs_eq_at {f : σ → ι → ω × σ} {g : τ → ι → ω × τ} {s : σ} {t : τ} {pre post : List ι}
    {i : ι} (h : outputs f s (pre ++ i :: post) = outputs g t (pre ++ i :: post)) :
    (f (after f s pre) i).1 = (g (after g t pre) i).1 := by
  rw [outputs_append, outputs_append] at h
  have hlen : (outputs f s pre).length = (outputs g t pre).length := by
    rw [length_outputs, length_outputs]
  have htail := (List.append_inj h hlen).2
  simp only [outputs, List.cons.injEq] at htail
  exact htail.1

end Outputs

end Run
