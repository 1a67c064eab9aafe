import Ucentral.Lib.Parser

/-! Parsers that follow checks from some structures on.

    A parser that looks at the structure it fills only follows its checks as long as that structure is
    right. The rules carry what holds before a part to what holds after it, and what holds wherever it
    stops. -/

namespace Parse

variable {σ β : Type} {P Q R E : σ → Prop}

/-- From a structure with `P` the parser stops where the checks do, with `E`, or ends with `Q`. -/
structure FollowsFrom (P Q E : σ → Prop) (x : Parser σ Unit) (cs : List Check) : Prop where
  stop : ∀ s, P s → stopOf (x s).1 = outcome cs
  post : ∀ s, P s → (x s).1 = .ok () → Q (x s).2
  exit : ∀ s e, P s → (x s).1 = .error e → E (x s).2

theorem from_pure (h : ∀ s, P s → Q s) : FollowsFrom P Q E (pure ()) [] where
  stop _ _ := rfl
  post s hs _ := h s hs
  exit _ _ _ h := nomatch h

theorem from_fill {f : σ → σ} (h : ∀ s, P s → Q (f s)) : FollowsFrom P Q E (Parser.fill f) [] where
  stop _ _ := rfl
  post s hs _ := h s hs
  exit _ _ _ h := nomatch h

theorem from_pass (c : Check) (hexit : ∀ s, P s → E s) : FollowsFrom P P E c.pass [c] where
  stop s _ := follows_pass c s
  post s hs _ := by
    rw [pass_snd]
    exact hs
  exit s _ hs _ := by
    rw [pass_snd]
    exact hexit s hs

theorem from_need (b : Bool) (hexit : ∀ s, P s → E s) : FollowsFrom P P E (need b) [.need b] :=
  from_pass _ hexit

/-- A part that reads the structure is, from there on, a part that does not. -/
theorem from_congr {x y : Parser σ Unit} {cs : List Check} (h : ∀ s, P s → x s = y s)
    (hy : FollowsFrom P Q E y cs) : FollowsFrom P Q E x cs where
  stop s hs := by
    rw [h s hs]
    exact hy.stop s hs
  post s hs hok := by
    rw [h s hs] at hok ⊢
    exact hy.post s hs hok
  exit s e hs herr := by
    rw [h s hs] at herr ⊢
    exact hy.exit s e hs herr

theorem from_outcome {x : Parser σ Unit} {cs ds : List Check} (h : outcome cs = outcome ds)
    (hx : FollowsFrom P Q E x cs) : FollowsFrom P Q E x ds :=
  ⟨fun s hs => (hx.stop s hs).trans h, hx.post, hx.exit⟩

/-- The sequence rule. -/
theorem from_bind {x y : Parser σ Unit} {cs ds : List Check} (hx : FollowsFrom P Q E x cs)
    (hy : FollowsFrom Q R E y ds) : FollowsFrom P R E (x >>= fun _ => y) (cs ++ ds) := by
  have hcases : ∀ s, P s →
      (∃ e, (x >>= fun _ => y) s = (.error e, (x s).2) ∧ outcome cs = some e ∧ E (x s).2) ∨
      (x >>= fun _ => y) s = y (x s).2 ∧ outcome cs = none ∧ Q (x s).2 := by
    intro s hs
    have hstop := hx.stop s hs
    have hpost := hx.post s hs
    have hexit := hx.exit s
    cases hrun : x s with
    | mk r t =>
      rw [hrun] at hstop hpost hexit
      cases r with
      | error e => exact Or.inl ⟨e, Parser.bind_of_error hrun, hstop.symm, hexit e hs rfl⟩
      | ok _ => exact Or.inr ⟨Parser.bind_of_ok hrun, hstop.symm, hpost rfl⟩
  refine ⟨fun s hs => ?_, fun s hs h => ?_, fun s e hs h => ?_⟩
  · rw [outcome_append]
    rcases hcases s hs with ⟨e, hrun, hcs, -⟩ | ⟨hrun, hcs, hq⟩
    · rw [hrun, hcs]
      rfl
    · rw [hrun, hcs, if_pos rfl]
      exact hy.stop _ hq
  · rcases hcases s hs with ⟨e, hrun, -, -⟩ | ⟨hrun, -, hq⟩
    · rw [hrun] at h
      cases h
    · rw [hrun] at h ⊢
      exact hy.post _ hq h
  · rcases hcases s hs with ⟨e', hrun, -, he⟩ | ⟨hrun, -, hq⟩
    · rw [hrun]
      exact he
    · rw [hrun] at h ⊢
      exact hy.exit _ e hq h

/-- A part without checks, and one with a single check. -/
theorem from_silent_bind {x y : Parser σ Unit} {cs : List Check} (hx : FollowsFrom P Q E x [])
    (hy : FollowsFrom Q R E y cs) : FollowsFrom P R E (x >>= fun _ => y) cs := by
  have h := from_bind hx hy
  exact h

theorem from_check_bind {c : Check} {x y : Parser σ Unit} {cs : List Check}
    (hx : FollowsFrom P Q E x [c]) (hy : FollowsFrom Q R E y cs) :
    FollowsFrom P R E (x >>= fun _ => y) (c :: cs) := by
  have h := from_bind hx hy
  exact h

theorem from_fill_bind {f : σ → σ} {y : Parser σ Unit} {cs : List Check} (hf : ∀ s, P s → Q (f s))
    (hy : FollowsFrom Q R E y cs) : FollowsFrom P R E (Parser.fill f >>= fun _ => y) cs :=
  from_silent_bind (from_fill hf) hy

/-- What comes after a condition may rely on it. -/
theorem from_need_bind {b : Bool} {y : Parser σ Unit} {cs : List Check} (hexit : ∀ s, P s → E s)
    (hy : b = true → FollowsFrom P R E y cs) :
    FollowsFrom P R E (need b >>= fun _ => y) (.need b :: cs) := by
  cases b with
  | true => exact from_check_bind (from_need true hexit) (hy rfl)
  | false => exact ⟨fun _ _ => rfl, fun _ _ h => (nomatch h), fun s _ hs _ => hexit s hs⟩

/-- The loop rule, with an invariant about what the loop has gone through. -/
theorem from_forM {f : β → Parser σ Unit} {cs : β → List Check} (I : List β → σ → Prop) :
    ∀ (xs : List β) (done : List β),
    (∀ pre x post, done ++ xs = pre ++ x :: post → FollowsFrom (I pre) (I (pre ++ [x])) E (f x) (cs x)) →
    FollowsFrom (I done) (I (done ++ xs)) E (forM xs f) (xs.flatMap cs)
  | [], done, _ => from_pure fun s hs => by
      rw [List.append_nil]
      exact hs
  | x :: xs, done, h => by
      have hassoc : done ++ x :: xs = done ++ [x] ++ xs := by
        rw [List.append_assoc, List.singleton_append]
      rw [List.forM_cons, List.flatMap_cons]
      refine from_bind (h done x xs rfl) ?_
      rw [hassoc]
      exact from_forM I xs (done ++ [x]) fun pre y post heq => h pre y post (hassoc.trans heq)

/-! ### Loops of independent turns -/

/-- A check in front of a part that checks before it fills. -/
theorem need_bind_checked {b : Bool} {q : Prop} [Decidable q] {y : Parser σ β}
    {r : σ → Except Stop β × σ} (hy : ∀ s, y s = if q then r s else (.error .reject, s)) (s : σ) :
    (need b >>= fun _ => y) s = if b = true ∧ q then r s else (.error .reject, s) := by
  rw [need_bind]
  cases b with
  | true => exact (hy s).trans (if_congr (and_iff_right rfl).symm rfl rfl)
  | false => rfl

/-- Turns that all go through update the structure one after the other. -/
theorem forM_run {f : β → Parser σ Unit} {good : β → Prop} {upd : σ → β → σ}
    (hgood : ∀ x s, good x → f x s = (.ok (), upd s x)) : ∀ (xs : List β) (s : σ),
    (∀ x ∈ xs, good x) → forM xs f s = (.ok (), xs.foldl upd s)
  | [], s, _ => rfl
  | x :: xs, s, h => by
      obtain ⟨hx, hxs⟩ := List.forall_mem_cons.mp h
      rw [List.forM_cons, Parser.bind_of_ok (hgood x s hx), forM_run hgood xs _ hxs, List.foldl_cons]

/-- A turn that does not go through and leaves the structure alone ends the loop. -/
theorem forM_prefix {f : β → Parser σ Unit} {good : β → Prop} [DecidablePred good] {upd : σ → β → σ}
    (hgood : ∀ x s, good x → f x s = (.ok (), upd s x))
    (hbad : ∀ x s, ¬ good x → f x s = (.error .reject, s)) : ∀ (xs : List β) (s : σ),
    forM xs f s = (if ∀ x ∈ xs, good x then .ok () else .error .reject,
      (xs.takeWhile good).foldl upd s)
  | [], s => by
      rw [if_pos (List.forall_mem_nil _)]
      rfl
  | x :: xs, s => by
      rw [List.forM_cons, List.takeWhile_cons]
      by_cases hx : good x
      · rw [Parser.bind_of_ok (hgood x s hx), forM_prefix hgood hbad xs, if_pos (decide_eq_true hx),
          List.foldl_cons]
        exact congrArg (·, _) (if_congr (by rw [List.forall_mem_cons, and_iff_right hx]) rfl rfl)
      · have hall : ¬ ∀ y ∈ x :: xs, good y := fun h => hx (List.forall_mem_cons.mp h).1
        rw [Parser.bind_of_error (hbad x s hx), if_neg hall, if_neg fun h => hx (of_decide_eq_true h)]
        rfl

end Parse
