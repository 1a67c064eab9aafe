import Ucentral.Lib.Effect

/-! Pre- and postconditions of programs that may fail.

    `Triple P x Q E` says that `x`, started in `P`, ends with a value in `Q` or fails in `E`. A
    program that fails leaves behind what it has done so far, so the failures have a condition of
    their own. A loop keeps an invariant that may speak of the part of the list it has been through. -/

namespace Effect

variable {σ ε α β : Type} {P P' : Traced σ ε → Prop} {E E' : Traced σ ε → Prop}

/-- Started in `P`, the program ends with a value in `Q`, or it fails in `E`. -/
def Triple (P : Traced σ ε → Prop) (x : Prog σ ε α) (Q : α → Traced σ ε → Prop)
    (E : Traced σ ε → Prop) : Prop :=
  ∀ s, P s →
    match x s with
    | (.ok a, t) => Q a t
    | (.error _, t) => E t

/-- The same condition before and after, whatever the outcome. -/
def Keeps (I : Traced σ ε → Prop) (x : Prog σ ε α) : Prop := Triple I x (fun _ => I) I

section Rules

variable {x : Prog σ ε α} {Q Q' : α → Traced σ ε → Prop}

theorem Triple.ok (h : Triple P x Q E) {s t : Traced σ ε} {a : α} (hp : P s)
    (hrun : x s = (.ok a, t)) : Q a t := by
  have hpost := h s hp
  rwa [hrun] at hpost

theorem Triple.error (h : Triple P x Q E) {s t : Traced σ ε} {c : ℤ} (hp : P s)
    (hrun : x s = (.error c, t)) : E t := by
  have hpost := h s hp
  rwa [hrun] at hpost

/-- What holds after a success, and after the failures that can happen here. -/
theorem Triple.final {Q : Traced σ ε → Prop} (h : Triple P x (fun _ => Q) E) {s : Traced σ ε}
    (hp : P s) (he : E (x s).2 → Q (x s).2) : Q (x s).2 := by
  have hpost := h s hp
  rcases hrun : x s with ⟨c | a, t⟩
  · rw [hrun] at hpost he
    exact he hpost
  · rw [hrun] at hpost
    exact hpost

theorem triple_of_cases (hok : ∀ s a t, P s → x s = (.ok a, t) → Q a t)
    (herror : ∀ s c t, P s → x s = (.error c, t) → E t) : Triple P x Q E := by
  intro s hp
  rcases hrun : x s with ⟨c | a, t⟩
  · exact herror s c t hp hrun
  · exact hok s a t hp hrun

theorem Triple.imp (h : Triple P x Q E) (hp : ∀ s, P' s → P s) (hq : ∀ a s, Q a s → Q' a s)
    (he : ∀ s, E s → E' s) : Triple P' x Q' E' :=
  triple_of_cases (fun s a t hs hrun => hq a t (h.ok (hp s hs) hrun))
    (fun s _ t hs hrun => he t (h.error (hp s hs) hrun))

theorem Triple.pre (h : Triple P x Q E) (hp : ∀ s, P' s → P s) : Triple P' x Q E :=
  h.imp hp (fun _ _ h => h) (fun _ h => h)

theorem Triple.post (h : Triple P x Q E) (hq : ∀ a s, Q a s → Q' a s) : Triple P x Q' E :=
  h.imp (fun _ h => h) hq (fun _ h => h)

/-- Two accounts of the same program. -/
theorem Triple.and (h : Triple P x Q E) (h' : Triple P' x Q' E') :
    Triple (fun s => P s ∧ P' s) x (fun a s => Q a s ∧ Q' a s) (fun s => E s ∧ E' s) :=
  triple_of_cases (fun _ _ _ hs hrun => ⟨h.ok hs.1 hrun, h'.ok hs.2 hrun⟩)
    (fun _ _ _ hs hrun => ⟨h.error hs.1 hrun, h'.error hs.2 hrun⟩)

/-- A precondition may be used as a fact about the state the program starts from. -/
theorem triple_at (h : ∀ s, P s → Triple (· = s) x Q E) : Triple P x Q E :=
  fun s hp => h s hp s rfl

theorem triple_fail (c : ℤ) : Triple E (Prog.fail c : Prog σ ε α) Q E := fun _ h => h

theorem triple_bind {R : β → Traced σ ε → Prop} {f : α → Prog σ ε β} (hx : Triple P x Q E)
    (hf : ∀ a, Triple (Q a) (f a) R E) : Triple P (x >>= f) R E := by
  intro s hp
  rcases hrun : x s with ⟨c | a, t⟩
  · rw [Prog.bind_run_error hrun]
    exact hx.error hp hrun
  · rw [Prog.bind_run_ok hrun]
    exact hf a t (hx.ok hp hrun)

theorem triple_ite {p : Prop} [Decidable p] {y : Prog σ ε α} (hx : p → Triple P x Q E)
    (hy : ¬ p → Triple P y Q E) : Triple P (if p then x else y) Q E := by
  by_cases h : p
  · rw [if_pos h]
    exact hx h
  · rw [if_neg h]
    exact hy h

theorem triple_when {Q : Traced σ ε → Prop} {b : Bool} {x : Prog σ ε Unit}
    (hx : b = true → Triple P x (fun _ => Q) E) (hskip : b = false → ∀ s, P s → Q s) :
    Triple P (Prog.when b x) (fun _ => Q) E :=
  triple_ite hx (fun h => fun s hp => hskip (Bool.not_eq_true b ▸ h) s hp)

theorem triple_orFail {c : ℤ} (hx : Triple P x Q E) : Triple P (Prog.orFail c x) Q E := by
  intro s hp
  unfold Prog.orFail
  rcases hrun : x s with ⟨c' | a, t⟩
  · exact hx.error hp hrun
  · exact hx.ok hp hrun

theorem triple_ignore {Q : Traced σ ε → Prop} (hx : Triple P x (fun _ => Q) Q) :
    Triple P (Prog.ignore x) (fun _ => Q) E := by
  intro s hp
  rw [Prog.ignore_run]
  rcases hrun : x s with ⟨c | a, t⟩
  · exact hx.error hp hrun
  · exact hx.ok hp hrun

/-- The loop rule; the invariant knows what the loop has been through and what is left. -/
theorem triple_forM {f : β → Prog σ ε Unit} {I : List β → List β → Traced σ ε → Prop}
    (h : ∀ done x todo, Triple (I done (x :: todo)) (f x) (fun _ => I (done ++ [x]) todo) E) :
    ∀ (todo done : List β),
      Triple (I done todo) (forM todo f) (fun _ => I (done ++ todo) []) E
  | [], done => by
      rw [List.append_nil]
      exact fun _ hi => hi
  | x :: todo, done => by
      have hrest := triple_forM h todo (done ++ [x])
      rw [List.append_assoc] at hrest
      rw [List.forM_cons]
      exact triple_bind (h done x todo) (fun _ => hrest)

/-- An invariant that every turn keeps. -/
theorem triple_forM_mem {I : Traced σ ε → Prop} {f : β → Prog σ ε Unit} :
    ∀ xs : List β, (∀ x ∈ xs, Triple I (f x) (fun _ => I) E) →
      Triple I (forM xs f) (fun _ => I) E
  | [], _ => fun _ hi => hi
  | x :: xs, h => by
      rw [List.forM_cons]
      refine triple_bind (h x List.mem_cons_self) (fun _ => ?_)
      exact triple_forM_mem xs (fun y hy => h y (List.mem_cons_of_mem _ hy))

/-- One turn brings the condition about, the others keep it. -/
theorem triple_forM_one {R S : Traced σ ε → Prop} {f : β → Prog σ ε Unit} {i : β}
    (hbefore : ∀ x, x ≠ i → Triple R (f x) (fun _ => R) E)
    (hafter : ∀ x, x ≠ i → Triple S (f x) (fun _ => S) E)
    (hturn : Triple R (f i) (fun _ => S) E) (hagain : ∀ s, S s → R s) :
    ∀ xs : List β, i ∈ xs → Triple R (forM xs f) (fun _ => S) E
  | [], hi => absurd hi List.not_mem_nil
  | x :: xs, hi => by
      rw [List.forM_cons]
      by_cases hx : x = i
      · -- later turns, and the same one again, keep what it has brought about
        refine triple_bind (hx ▸ hturn) (fun _ => triple_forM_mem xs fun y _ => ?_)
        by_cases hy : y = i
        · exact hy ▸ hturn.pre hagain
        · exact hafter y hy
      · refine triple_bind (hbefore x hx) (fun _ => ?_)
        exact triple_forM_one hbefore hafter hturn hagain xs
          ((List.mem_cons.mp hi).resolve_left (Ne.symm hx))

/-! ### Programs that keep a condition, whatever their outcome -/

section Keeps

variable {I : Traced σ ε → Prop}

/-- Where it fails does not matter. -/
theorem Keeps.anyFailure (h : Keeps I x) : Triple I x (fun _ => I) (fun _ => True) :=
  Triple.imp h (fun _ hs => hs) (fun _ _ hs => hs) (fun _ _ => trivial)

theorem keeps_pure (a : α) : Keeps I (pure a : Prog σ ε α) := fun _ hs => hs

theorem keeps_fail (c : ℤ) : Keeps I (Prog.fail c : Prog σ ε α) := fun _ hs => hs

theorem keeps_bind {f : α → Prog σ ε β} (hx : Keeps I x) (hf : ∀ a, Keeps I (f a)) :
    Keeps I (x >>= f) :=
  triple_bind hx hf

theorem keeps_when {b : Bool} {x : Prog σ ε Unit} (hx : Keeps I x) : Keeps I (Prog.when b x) :=
  triple_when (fun _ => hx) (fun _ _ hs => hs)

theorem keeps_orFail {c : ℤ} (hx : Keeps I x) : Keeps I (Prog.orFail c x) := triple_orFail hx

theorem keeps_ignore (hx : Keeps I x) : Keeps I (Prog.ignore x) := triple_ignore hx

theorem keeps_forM {f : β → Prog σ ε Unit} (xs : List β) (h : ∀ x, Keeps I (f x)) :
    Keeps I (forM xs f) :=
  triple_forM_mem xs (fun x _ => h x)

end Keeps

/-! ### Loops whose turns have a condition -/

/-- Each time the loop comes to an element, the state meets `C`. -/
def EachTurn (f : β → Prog σ ε Unit) (C : Traced σ ε → β → Prop) (xs : List β) (s : Traced σ ε) :
    Prop :=
  ∀ done x todo, xs = done ++ x :: todo → ∀ t, forM done f s = (.ok (), t) → C t x

theorem EachTurn.tail {f : β → Prog σ ε Unit} {C : Traced σ ε → β → Prop} {x : β} {xs : List β}
    {s t : Traced σ ε} (h : EachTurn f C (x :: xs) s) (hrun : f x s = (.ok (), t)) :
    EachTurn f C xs t := by
  rintro done y todo rfl t' ht'
  refine h (x :: done) y todo rfl t' ?_
  rw [List.forM_cons, Prog.bind_run_ok hrun]
  exact ht'

/-- An invariant that a turn keeps where it meets `C`. -/
theorem triple_forM_eachTurn {f : β → Prog σ ε Unit} {C : Traced σ ε → β → Prop}
    {I : Traced σ ε → Prop}
    (h : ∀ x, Triple (fun s => I s ∧ C s x) (f x) (fun _ => I) E) :
    ∀ xs : List β, Triple (fun s => I s ∧ EachTurn f C xs s) (forM xs f) (fun _ => I) E
  | [] => fun _ hs => hs.1
  | x :: xs => by
      rw [List.forM_cons]
      refine triple_at (fun s hs => ?_)
      refine triple_bind (Q := fun _ t => I t ∧ EachTurn f C xs t) ?_
        (fun _ => triple_forM_eachTurn h xs)
      rintro s' rfl
      have hturn := h x s' ⟨hs.1, hs.2 [] x xs rfl s' rfl⟩
      rcases hrun : f x s' with ⟨c | _, t⟩
      · rwa [hrun] at hturn
      · rw [hrun] at hturn
        exact ⟨hturn, hs.2.tail hrun⟩

end Rules

end Effect
