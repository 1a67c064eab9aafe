import Mathlib.Tactic.Common

/-! Parsers of untrusted values that fill a structure by C string functions.

    Such a parser runs over the structure it fills. It stops in one of three ways: it rejects the value,
    which a caller may handle; it rejects the value with a message that has a null pointer for a `%s`;
    or it faults, which nothing can handle: it gave a null pointer to a string function, or copied a
    string into a field that cannot hold it.

    Which of them happens only depends on the checks the parser goes through, in their order. A
    parser `Follows` a list of checks if it stops exactly where the list does: at the first check
    that does not hold. A string is safe to use if the checks before it keep the bad ones away, so a
    parser never faults exactly if every string it reaches is good. -/

namespace Parse

variable {σ α β : Type}

inductive Stop
  | reject
  | format
  | fault
  deriving DecidableEq, Repr

/-- From the structure so far to a value or a stop, and the structure after it. -/
def Parser (σ α : Type) := σ → Except Stop α × σ

namespace Parser

protected def pure (a : α) : Parser σ α := fun s => (.ok a, s)

protected def bind (x : Parser σ α) (f : α → Parser σ β) : Parser σ β := fun s =>
  match x s with
  | (.ok a, t) => f a t
  | (.error e, t) => (.error e, t)

instance : Monad (Parser σ) where
  pure := Parser.pure
  bind := Parser.bind

instance : LawfulMonad (Parser σ) := by
  refine LawfulMonad.mk' (Parser σ) (fun x => ?_) (fun _ _ => rfl) (fun x f g => ?_)
  · funext s
    change Parser.bind x Parser.pure s = x s
    unfold Parser.bind
    rcases x s with ⟨_ | _, t⟩ <;> rfl
  · funext s
    change Parser.bind (Parser.bind x f) g s = Parser.bind x (fun a => Parser.bind (f a) g) s
    unfold Parser.bind
    rcases x s with ⟨_ | _, t⟩ <;> rfl

/-- A sequence that ends well is the second part run after the first. -/
theorem bind_ok {x : Parser σ α} {f : α → Parser σ β} {s : σ} {b : β}
    (h : ((x >>= f) s).1 = .ok b) : ∃ a, (x s).1 = .ok a ∧ (x >>= f) s = f a (x s).2 := by
  change (Parser.bind x f s).1 = .ok b at h
  unfold Parser.bind at h
  rcases hx : x s with ⟨e | a, t⟩
  · rw [hx] at h
    cases h
  · refine ⟨a, rfl, ?_⟩
    change Parser.bind x f s = _
    unfold Parser.bind
    rw [hx]

theorem bind_of_ok {x : Parser σ α} {f : α → Parser σ β} {s t : σ} {a : α} (h : x s = (.ok a, t)) :
    (x >>= f) s = f a t := by
  change Parser.bind x f s = _
  unfold Parser.bind
  rw [h]

theorem bind_of_error {x : Parser σ α} {f : α → Parser σ β} {s t : σ} {e : Stop}
    (h : x s = (.error e, t)) : (x >>= f) s = (.error e, t) := by
  change Parser.bind x f s = _
  unfold Parser.bind
  rw [h]

/-- Fill something in. -/
def fill (f : σ → σ) : Parser σ Unit := fun s => (.ok (), f s)

/-- `if (b) f(...)` -/
def when (b : Bool) (x : Parser σ Unit) : Parser σ Unit := if b then x else pure ()

/-- `if (f(...)) g(...)`: run the second if the first rejects. What the first has filled in stays. A
    rejection with a bad message is not tried again. -/
def orElse (x y : Parser σ Unit) : Parser σ Unit := fun s =>
  match x s with
  | (.error .reject, t) => y t
  | r => r

/-- Fill a local structure, which the caller gets as the value. -/
def scratch {τ : Type} (init : τ) (x : Parser τ Unit) : Parser σ τ := fun s =>
  match x init with
  | (.ok _, t) => (.ok t, s)
  | (.error e, _) => (.error e, s)

/-- Fill a part of the structure in place. -/
def within {τ : Type} (get : σ → τ) (set : τ → σ → σ) (x : Parser τ Unit) : Parser σ Unit :=
  fun s => ((x (get s)).1, set (x (get s)).2 s)

end Parser

/-! ### Checks -/

/-- A condition on the value, or a string that is given to a string function; with a room it is
    copied into a field of that many bytes. Strings that are tested together and are shown in the
    message when one of them is missing are a check as well. -/
inductive Check
  | need (b : Bool)
  | text (v : Option String) (room : Option ℕ)
  | shown (vs : List (Option String))
  deriving DecidableEq, Repr

/-- A string is there, and shorter than the field. -/
def fits (v : Option String) (room : Option ℕ) : Bool :=
  match v, room with
  | none, _ => false
  | some _, none => true
  | some s, some n => s.utf8ByteSize < n

namespace Check

def holds : Check → Bool
  | need b => b
  | text v room => fits v room
  | shown vs => vs.all Option.isSome

def stop : Check → Stop
  | need _ => .reject
  | text _ _ => .fault
  | shown _ => .format

/-- Pass one check or stop. -/
def pass (c : Check) : Parser σ Unit := fun s =>
  if c.holds then (.ok (), s) else (.error c.stop, s)

end Check

/-- `if (!b) return -1;` -/
def need (b : Bool) : Parser σ Unit := (Check.need b).pass

theorem pass_bind (c : Check) (y : Unit → Parser σ β) (s : σ) :
    (c.pass >>= y) s = if c.holds then y () s else (.error c.stop, s) := by
  change Parser.bind c.pass y s = _
  unfold Parser.bind Check.pass
  by_cases hc : c.holds = true
  · simp [hc]
  · simp [hc]

theorem fill_bind (f : σ → σ) (y : Unit → Parser σ β) (s : σ) :
    (Parser.fill f >>= y) s = y () (f s) := rfl

theorem need_bind (b : Bool) (y : Unit → Parser σ β) (s : σ) :
    (need b >>= y) s = if b then y () s else (.error .reject, s) :=
  pass_bind _ y s

/-- Two tests in one are made one after the other. -/
theorem need_and_bind (a b : Bool) (y : Unit → Parser σ β) :
    (need (a && b) >>= y) = need a >>= fun _ => need b >>= y := by
  funext s
  rw [need_bind, need_bind, need_bind]
  cases a <;> rfl

/-- A sequence that ends well has passed its first test. -/
theorem need_bind_ok {b : Bool} {y : Unit → Parser σ β} {s : σ} {a : β}
    (h : ((need b >>= y) s).1 = .ok a) : b = true ∧ (need b >>= y) s = y () s := by
  rw [need_bind] at h ⊢
  cases b with
  | false => cases h
  | true => exact ⟨rfl, rfl⟩

/-- `strcmp(v, ...)`, `inet_pton(..., v, ...)` and the like. -/
def text (v : Option String) : Parser σ Unit := (Check.text v none).pass

/-- A local structure leaves the other one alone. -/
theorem scratch_bind_pure {τ : Type} (init : τ) (x : Parser τ Unit) (a : α) (s : σ) :
    ((Parser.scratch init x >>= fun _ => (pure a : Parser σ α)) s).2 = s := by
  change (Parser.bind (Parser.scratch init x) (fun _ => Parser.pure a) s).2 = s
  unfold Parser.bind Parser.scratch Parser.pure
  rcases x init with ⟨e | u, t⟩ <;> rfl

/-- A sequence that ends well has filled its local structure. -/
theorem scratch_bind_ok {τ : Type} {init : τ} {x : Parser τ Unit} {f : τ → Parser σ β} {s : σ} {b : β}
    (h : ((Parser.scratch init x >>= f) s).1 = .ok b) :
    (x init).1 = .ok () ∧ (Parser.scratch init x >>= f) s = f (x init).2 s := by
  change (Parser.bind (Parser.scratch init x) f s).1 = .ok b at h
  change _ ∧ Parser.bind (Parser.scratch init x) f s = _
  unfold Parser.bind Parser.scratch at h ⊢
  rcases hx : x init with ⟨e | u, t⟩
  · rw [hx] at h
    cases h
  · exact ⟨rfl, rfl⟩

theorem text_bind (v : Option String) (y : Unit → Parser σ β) (s : σ) :
    (text v >>= y) s = if v.isSome then y () s else (.error .fault, s) := by
  rw [text, pass_bind]
  cases v <;> rfl

/-- `if (!v || ...) { LOG("%s ...", v, ...); return -1; }` -/
def shown (vs : List (Option String)) : Parser σ Unit := (Check.shown vs).pass

/-- `strcpy(field, v)` into a field of `n` bytes, or `strncpy` of `n` bytes if it has to leave the
    field terminated. -/
def copy (v : Option String) (n : ℕ) : Parser σ Unit := (Check.text v (some n)).pass

theorem pass_snd (c : Check) (s : σ) : ((c.pass : Parser σ Unit) s).2 = s := by
  unfold Check.pass
  split <;> rfl

/-- Where a list of checks stops. -/
def outcome : List Check → Option Stop
  | [] => none
  | c :: cs => if c.holds then outcome cs else some c.stop

theorem outcome_append : ∀ (cs ds : List Check),
    outcome (cs ++ ds) = if outcome cs = none then outcome ds else outcome cs
  | [], ds => rfl
  | c :: cs, ds => by
      by_cases hc : c.holds = true
      · simp only [List.cons_append, outcome, hc, if_true]
        exact outcome_append cs ds
      · simp [outcome, hc]

theorem outcome_append_none (cs ds : List Check) :
    outcome (cs ++ ds) = none ↔ outcome cs = none ∧ outcome ds = none := by
  rw [outcome_append]
  by_cases h : outcome cs = none
  · simp [h]
  · simp [h]

/-- A check is reached if all before it hold. -/
def Reached (cs : List Check) (c : Check) : Prop :=
  ∃ pre post, cs = pre ++ c :: post ∧ ∀ d ∈ pre, d.holds = true

theorem reached_cons {c d : Check} {cs : List Check} :
    Reached (d :: cs) c ↔ c = d ∨ d.holds = true ∧ Reached cs c := by
  constructor
  · rintro ⟨pre, post, heq, hpre⟩
    cases pre with
    | nil =>
      simp only [List.nil_append, List.cons.injEq] at heq
      exact Or.inl heq.1.symm
    | cons e pre =>
      simp only [List.cons_append, List.cons.injEq] at heq
      obtain ⟨rfl, rfl⟩ := heq
      refine Or.inr ⟨hpre d (List.mem_cons_self ..), pre, post, rfl, fun x hx => ?_⟩
      exact hpre x (List.mem_cons_of_mem _ hx)
  · rintro (rfl | ⟨hd, pre, post, rfl, hpre⟩)
    · exact ⟨[], cs, rfl, by simp⟩
    · refine ⟨d :: pre, post, rfl, ?_⟩
      intro x hx
      rcases List.mem_cons.mp hx with rfl | hx
      · exact hd
      · exact hpre x hx

theorem Reached.mem {cs : List Check} {c : Check} (h : Reached cs c) : c ∈ cs := by
  obtain ⟨pre, post, rfl, _⟩ := h
  simp

/-- A list of checks faults exactly if it reaches a bad string. -/
theorem outcome_ne_fault_iff : ∀ (cs : List Check),
    outcome cs ≠ some .fault ↔ ∀ v room, Reached cs (.text v room) → fits v room = true
  | [] => by
      refine iff_of_true (by simp [outcome]) ?_
      rintro v room ⟨pre, post, heq, _⟩
      simp at heq
  | c :: cs => by
      have ih := outcome_ne_fault_iff cs
      simp only [reached_cons]
      by_cases hc : c.holds = true
      · rw [outcome, if_pos hc, ih]
        constructor
        · rintro h v room (rfl | ⟨_, hr⟩)
          · exact hc
          · exact h v room hr
        · intro h v room hr
          exact h v room (Or.inr ⟨hc, hr⟩)
      · rw [outcome, if_neg hc]
        cases c with
        | need b =>
          refine iff_of_true (by simp [Check.stop]) ?_
          rintro v room (heq | ⟨hd, _⟩)
          · simp at heq
          · exact absurd hd hc
        | text v room =>
          refine iff_of_false (by simp [Check.stop]) (fun h => hc ?_)
          exact h v room (Or.inl rfl)
        | shown vs =>
          refine iff_of_true (by simp [Check.stop]) ?_
          rintro v room (heq | ⟨hd, _⟩)
          · cases heq
          · exact absurd hd hc

/-- It comes to a message with a null pointer exactly if it reaches strings one of which is missing. -/
theorem outcome_ne_format_iff : ∀ (cs : List Check),
    outcome cs ≠ some .format ↔ ∀ vs, Reached cs (.shown vs) → ∀ v ∈ vs, v.isSome = true
  | [] => by
      refine iff_of_true (by simp [outcome]) ?_
      rintro vs ⟨pre, post, heq, _⟩
      simp at heq
  | c :: cs => by
      have ih := outcome_ne_format_iff cs
      simp only [reached_cons]
      by_cases hc : c.holds = true
      · rw [outcome, if_pos hc, ih]
        constructor
        · rintro h vs (rfl | ⟨_, hr⟩)
          · exact List.all_eq_true.mp hc
          · exact h vs hr
        · intro h vs hr
          exact h vs (Or.inr ⟨hc, hr⟩)
      · rw [outcome, if_neg hc]
        cases c with
        | shown vs =>
          refine iff_of_false (by simp [Check.stop]) (fun h => hc ?_)
          exact List.all_eq_true.mpr (h vs (Or.inl rfl))
        | _ =>
          refine iff_of_true (by simp [Check.stop]) ?_
          rintro vs (heq | ⟨hd, _⟩)
          · cases heq
          · exact absurd hd hc

/-- The stop of a result. -/
def stopOf : Except Stop α → Option Stop
  | .ok _ => none
  | .error e => some e

/-- From whatever structure, the parser stops where the checks do. -/
def Follows (x : Parser σ α) (cs : List Check) : Prop := ∀ s, stopOf (x s).1 = outcome cs

theorem ne_fault_iff_of_follows {x : Parser σ α} {cs : List Check} (h : Follows x cs) (s : σ) :
    (x s).1 ≠ .error .fault ↔ outcome cs ≠ some .fault := by
  rw [← h s]
  rcases (x s).1 with e | a <;> simp [stopOf]

theorem ne_format_iff_of_follows {x : Parser σ α} {cs : List Check} (h : Follows x cs) (s : σ) :
    (x s).1 ≠ .error .format ↔ outcome cs ≠ some .format := by
  rw [← h s]
  rcases (x s).1 with e | a <;> simp [stopOf]

theorem ok_iff_of_follows {x : Parser σ Unit} {cs : List Check} (h : Follows x cs) (s : σ) :
    (x s).1 = .ok () ↔ outcome cs = none := by
  rw [← h s]
  cases (x s).1 with
  | error e => exact iff_of_false nofun nofun
  | ok a => exact iff_of_true rfl rfl

theorem follows_pure (a : α) : Follows (pure a : Parser σ α) [] := fun _ => rfl

theorem follows_fill (f : σ → σ) : Follows (Parser.fill f) [] := fun _ => rfl

theorem follows_pass (c : Check) : Follows (c.pass : Parser σ Unit) [c] := by
  intro s
  unfold Check.pass
  by_cases hc : c.holds = true
  · simp [outcome, hc, stopOf]
  · simp [outcome, hc, stopOf]

theorem follows_need (b : Bool) : Follows (need b : Parser σ Unit) [.need b] := follows_pass _

theorem follows_copy (v : Option String) (n : ℕ) :
    Follows (copy v n : Parser σ Unit) [.text v (some n)] :=
  follows_pass _

theorem follows_bind {x : Parser σ α} {f : α → Parser σ β} {cs ds : List Check}
    (hx : Follows x cs) (hf : ∀ a, Follows (f a) ds) : Follows (x >>= f) (cs ++ ds) := by
  intro s
  have hs := hx s
  rw [outcome_append]
  change stopOf (Parser.bind x f s).1 = _
  unfold Parser.bind
  rcases hxs : x s with ⟨e | a, t⟩
  · rw [hxs] at hs
    simp only [stopOf] at hs ⊢
    rw [← hs, if_neg (by simp)]
  · rw [hxs] at hs
    simp only [stopOf] at hs
    rw [← hs, if_pos rfl]
    exact hf a t

/-- A part that stops nowhere adds no checks, before or after another. -/
theorem follows_silent_bind {x : Parser σ α} {f : α → Parser σ β} {cs : List Check}
    (hx : Follows x []) (hf : ∀ a, Follows (f a) cs) : Follows (x >>= f) cs :=
  follows_bind hx hf

theorem follows_bind_silent {x : Parser σ α} {f : α → Parser σ β} {cs : List Check}
    (hx : Follows x cs) (hf : ∀ a, Follows (f a) []) : Follows (x >>= f) cs := by
  rw [← List.append_nil cs]
  exact follows_bind hx hf

theorem follows_fill_bind {f : σ → σ} {y : Unit → Parser σ β} {cs : List Check}
    (hy : Follows (y ()) cs) : Follows (Parser.fill f >>= y) cs :=
  follows_silent_bind (follows_fill f) (fun _ => hy)

theorem follows_pass_bind {c : Check} {y : Unit → Parser σ β} {cs : List Check}
    (hy : c.holds = true → Follows (y ()) cs) : Follows (c.pass >>= y) (c :: cs) := by
  intro s
  rw [pass_bind]
  by_cases hc : c.holds = true
  · simp only [hc, if_true, outcome]
    exact hy hc s
  · simp [hc, outcome, stopOf]

/-- What comes after a condition may rely on it. -/
theorem follows_need_bind {b : Bool} {y : Unit → Parser σ β} {cs : List Check}
    (hy : b = true → Follows (y ()) cs) : Follows (need b >>= y) (.need b :: cs) :=
  follows_pass_bind hy

theorem follows_text_bind {v : Option String} {y : Unit → Parser σ β} {cs : List Check}
    (hy : v.isSome = true → Follows (y ()) cs) :
    Follows (text v >>= y) (.text v none :: cs) := by
  refine follows_pass_bind fun h => hy ?_
  cases v with
  | none => simp [Check.holds, fits] at h
  | some s => rfl

theorem follows_copy_bind {v : Option String} {n : ℕ} {y : Unit → Parser σ β} {cs : List Check}
    (hy : Follows (y ()) cs) : Follows (copy v n >>= y) (.text v (some n) :: cs) :=
  follows_pass_bind fun _ => hy

/-- What comes after strings that were tested may rely on them. -/
theorem follows_shown_bind {vs : List (Option String)} {y : Unit → Parser σ β} {cs : List Check}
    (hy : (∀ v ∈ vs, v.isSome = true) → Follows (y ()) cs) :
    Follows (shown vs >>= y) (.shown vs :: cs) :=
  follows_pass_bind fun h => hy (List.all_eq_true.mp h)

/-- The use of a string that is known to be there needs no check. -/
theorem follows_known {v : Option String} (h : v.isSome = true) :
    Follows (text v : Parser σ Unit) [] := by
  obtain ⟨t, rfl⟩ := Option.isSome_iff_exists.mp h
  exact fun _ => rfl

theorem follows_known_bind {v : Option String} {y : Unit → Parser σ β} {cs : List Check}
    (h : v.isSome = true) (hy : Follows (y ()) cs) : Follows (text v >>= y) cs :=
  follows_silent_bind (follows_known h) fun _ => hy

theorem follows_ite {p : Prop} [Decidable p] {x y : Parser σ α} {cs ds : List Check}
    (hx : p → Follows x cs) (hy : ¬ p → Follows y ds) :
    Follows (if p then x else y) (if p then cs else ds) := by
  by_cases h : p
  · rw [if_pos h, if_pos h]; exact hx h
  · rw [if_neg h, if_neg h]; exact hy h

theorem follows_when {b : Bool} {x : Parser σ Unit} {cs : List Check}
    (hx : b = true → Follows x cs) : Follows (Parser.when b x) (if b then cs else []) :=
  follows_ite hx (fun _ => follows_pure ())

theorem follows_when_silent {b : Bool} {x : Parser σ Unit} (hx : b = true → Follows x []) :
    Follows (Parser.when b x) [] := by
  cases b with
  | false => exact follows_pure ()
  | true => exact hx rfl

theorem follows_optFill_bind {b : Bool} {f : σ → σ} {y : Unit → Parser σ β} {cs : List Check}
    (hy : Follows (y ()) cs) : Follows (Parser.when b (Parser.fill f) >>= y) cs :=
  follows_silent_bind (follows_when_silent fun _ => follows_fill f) (fun _ => hy)

theorem follows_scratch {τ : Type} {init : τ} {x : Parser τ Unit} {cs : List Check}
    (hx : Follows x cs) : Follows (Parser.scratch init x : Parser σ τ) cs := by
  intro s
  rw [← hx init]
  unfold Parser.scratch
  rcases x init with ⟨e | a, t⟩ <;> rfl

/-- After a local structure is filled, the rest may depend on what it holds. -/
theorem follows_scratch_bind {τ : Type} {init : τ} {x : Parser τ Unit} {f : τ → Parser σ β}
    {cs ds : List Check} (hx : Follows x cs)
    (hf : (x init).1 = .ok () → Follows (f (x init).2) ds) :
    Follows (Parser.scratch init x >>= f) (cs ++ ds) := by
  intro s
  have hs := hx init
  rw [outcome_append]
  change stopOf (Parser.bind (Parser.scratch init x) f s).1 = _
  unfold Parser.bind Parser.scratch
  rcases hxs : x init with ⟨e | a, t⟩
  · rw [hxs] at hs
    simp only [stopOf] at hs ⊢
    rw [← hs, if_neg (by simp)]
  · rw [hxs] at hs hf
    simp only [stopOf] at hs
    rw [← hs, if_pos rfl]
    exact hf rfl s

theorem follows_within {τ : Type} {get : σ → τ} {set : τ → σ → σ} {x : Parser τ Unit}
    {cs : List Check} (hx : Follows x cs) : Follows (Parser.within get set x) cs :=
  fun s => hx (get s)

/-- The loop rule: the checks of the turns, one after another. -/
theorem follows_forM {f : β → Parser σ Unit} {cs : β → List Check} :
    ∀ (xs : List β), (∀ x ∈ xs, Follows (f x) (cs x)) → Follows (forM xs f) (xs.flatMap cs)
  | [], _ => follows_pure ()
  | x :: xs, h => by
      rw [List.forM_cons, List.flatMap_cons]
      refine follows_bind (h x (List.mem_cons_self ..)) (fun _ => ?_)
      exact follows_forM xs (fun y hy => h y (List.mem_cons_of_mem _ hy))

theorem follows_forM_silent {f : β → Parser σ Unit} {xs : List β}
    (h : ∀ x ∈ xs, Follows (f x) []) : Follows (forM xs f) [] := by
  have hall : Follows (forM xs f) (xs.flatMap fun _ => []) := follows_forM xs h
  rwa [List.flatMap_eq_nil_iff.mpr fun _ _ => rfl] at hall

/-- A second try that always rejects leaves the first one's stop as it is. -/
theorem follows_orElse_left {x y : Parser σ Unit} {cs ds : List Check} (hx : Follows x cs)
    (hy : Follows y ds) (h : outcome ds = some .reject) : Follows (Parser.orElse x y) cs := by
  intro s
  have hs := hx s
  unfold Parser.orElse
  rcases hxs : x s with ⟨e | a, t⟩
  · rw [hxs] at hs
    cases e with
    | reject => exact (hy t).trans (h.trans hs)
    | format => exact hs
    | fault => exact hs
  · rw [hxs] at hs
    exact hs

/-- After a first try that always rejects, the second one decides. -/
theorem follows_orElse_right {x y : Parser σ Unit} {cs ds : List Check} (hx : Follows x cs)
    (hy : Follows y ds) (h : outcome cs = some .reject) : Follows (Parser.orElse x y) ds := by
  intro s
  have hs := hx s
  rw [h] at hs
  unfold Parser.orElse
  rcases hxs : x s with ⟨e | a, t⟩
  · rw [hxs] at hs
    simp only [stopOf, Option.some.injEq] at hs
    subst hs
    exact hy t
  · rw [hxs] at hs
    simp [stopOf] at hs

/-! ### What holds after a run that ends well -/

def Ends (Q : σ → Prop) (x : Parser σ α) : Prop := ∀ s a, (x s).1 = .ok a → Q (x s).2

/-- What the last part ensures holds at the end. -/
theorem ends_bind {Q : σ → Prop} {x : Parser σ α} {f : α → Parser σ β} (hf : ∀ a, Ends Q (f a)) :
    Ends Q (x >>= f) := by
  intro s b h
  obtain ⟨a, _, heq⟩ := Parser.bind_ok h
  rw [heq] at h ⊢
  exact hf a _ b h

/-- What the first part ensures holds at the end if the second keeps it. -/
theorem ends_bind_of_keep {Q : σ → Prop} {x : Parser σ α} {f : α → Parser σ β} (hx : Ends Q x)
    (hf : ∀ a s, Q s → Q (f a s).2) : Ends Q (x >>= f) := by
  intro s b h
  obtain ⟨a, ha, heq⟩ := Parser.bind_ok h
  rw [heq]
  exact hf a _ (hx s a ha)

theorem Ends.imp {Q Q' : σ → Prop} {x : Parser σ α} (hx : Ends Q x) (h : ∀ s, Q s → Q' s) : Ends Q' x :=
  fun s a hok => h _ (hx s a hok)

theorem ends_when {Q : σ → Prop} {b : Bool} {x : Parser σ Unit} (hx : Ends Q x) :
    Ends (fun s => b = true → Q s) (Parser.when b x) := by
  intro s a h hb
  subst hb
  exact hx s a h

/-- A loop that ends well has gone through all its turns. -/
theorem forM_ok_mem {f : β → Parser σ Unit} {xs : List β} {s : σ} (h : (forM xs f s).1 = .ok ())
    {x : β} (hx : x ∈ xs) : ∃ t, (f x t).1 = .ok () := by
  induction xs generalizing s with
  | nil => cases hx
  | cons y xs ih =>
    rw [List.forM_cons] at h
    obtain ⟨_, hy, heq⟩ := Parser.bind_ok h
    rw [heq] at h
    rcases List.mem_cons.mp hx with rfl | hx
    · exact ⟨s, hy⟩
    · exact ih h hx

/-! ### What a run leaves alone -/

section Leaves
variable {τ : Type} {part : σ → τ}

/-- However it ends, a run does not change the part. -/
def Leaves (part : σ → τ) (x : Parser σ α) : Prop := ∀ s, part (x s).2 = part s

theorem leaves_pass (c : Check) : Leaves part (c.pass : Parser σ Unit) :=
  fun s => by rw [pass_snd]

theorem leaves_pure (a : α) : Leaves part (pure a : Parser σ α) := fun _ => rfl

theorem leaves_fill {f : σ → σ} (h : ∀ s, part (f s) = part s) : Leaves part (Parser.fill f) := h

theorem leaves_bind {x : Parser σ α} {f : α → Parser σ β} (hx : Leaves part x)
    (hf : ∀ a, Leaves part (f a)) : Leaves part (x >>= f) := by
  intro s
  have hs := hx s
  change part (Parser.bind x f s).2 = part s
  unfold Parser.bind
  rcases hxs : x s with ⟨e | a, t⟩
  · rw [hxs] at hs
    exact hs
  · rw [hxs] at hs
    exact (hf a t).trans hs

theorem leaves_when {b : Bool} {x : Parser σ Unit} (hx : Leaves part x) :
    Leaves part (Parser.when b x) := by
  cases b with
  | false => exact leaves_pure ()
  | true => exact hx

theorem leaves_forM {f : β → Parser σ Unit} (hf : ∀ x, Leaves part (f x)) (xs : List β) :
    Leaves part (forM xs f) := by
  induction xs with
  | nil => exact leaves_pure ()
  | cons x xs ih =>
    rw [List.forM_cons]
    exact leaves_bind (hf x) fun _ => ih

theorem leaves_scratch {ρ : Type} (init : ρ) (x : Parser ρ Unit) :
    Leaves part (Parser.scratch init x : Parser σ ρ) := by
  intro s
  unfold Parser.scratch
  rcases x init with ⟨e | a, t⟩ <;> rfl

/-- A part that is filled in place and does not show. -/
theorem leaves_within {ρ : Type} {get : σ → ρ} {set : ρ → σ → σ} (x : Parser ρ Unit)
    (h : ∀ r s, part (set r s) = part s) : Leaves part (Parser.within get set x) :=
  fun s => h _ s

theorem leaves_orElse {x y : Parser σ Unit} (hx : Leaves part x) (hy : Leaves part y) :
    Leaves part (Parser.orElse x y) := by
  intro s
  have hs := hx s
  unfold Parser.orElse
  rcases hxs : x s with ⟨e | a, t⟩
  · rw [hxs] at hs
    cases e with
    | reject => exact (hy t).trans hs
    | format => exact hs
    | fault => exact hs
  · rw [hxs] at hs
    exact hs

/-- A run that ends well changes the part by `g`. -/
def Turns (part : σ → τ) (g : τ → τ) (x : Parser σ α) : Prop :=
  ∀ s a, (x s).1 = .ok a → part (x s).2 = g (part s)

theorem Leaves.turns {x : Parser σ α} (h : Leaves part x) : Turns part id x := fun s _ _ => h s

theorem turns_fill {f : σ → σ} {g : τ → τ} (h : ∀ s, part (f s) = g (part s)) :
    Turns part g (Parser.fill f) :=
  fun s _ _ => h s

theorem turns_bind {x : Parser σ α} {f : α → Parser σ β} (g g' : τ → τ) {k : τ → τ}
    (hx : Turns part g x) (hf : ∀ a, Turns part g' (f a)) (hk : ∀ t, k t = g' (g t)) :
    Turns part k (x >>= f) := by
  intro s b h
  obtain ⟨a, ha, heq⟩ := Parser.bind_ok h
  rw [heq] at h ⊢
  rw [hf a _ b h, hx s a ha, hk]

theorem turns_leaves_bind {x : Parser σ α} {f : α → Parser σ β} {g : τ → τ} (hx : Leaves part x)
    (hf : ∀ a, Turns part g (f a)) : Turns part g (x >>= f) :=
  turns_bind id g hx.turns hf (fun _ => rfl)

theorem turns_when {b : Bool} {x : Parser σ Unit} {g : τ → τ} (hx : Turns part g x) :
    Turns part (if b then g else id) (Parser.when b x) := by
  cases b with
  | false => exact fun _ _ _ => rfl
  | true => exact hx

/-- A member that may be missing, and what is filled in from it if it is there. -/
theorem turns_optional {c : Check} {b : Bool} {x : Parser σ Unit}
    {y : Unit → Parser σ α} {f g : τ → τ} (hx : Turns part f x) (hy : Turns part g (y ())) :
    Turns part (fun t => g ((if b then f else id) t)) (c.pass >>= fun _ => Parser.when b x >>= y) :=
  turns_leaves_bind (leaves_pass c) fun _ =>
    turns_bind _ _ (turns_when hx) (fun _ => hy) (fun _ => rfl)

end Leaves

/-! ### What a run notes -/

section Notes
variable {γ : Type} {log : σ → List γ} {P : γ → Prop}

/-- However it ends, a run only appends to the log, and only such entries. -/
def Notes (log : σ → List γ) (P : γ → Prop) (x : Parser σ α) : Prop :=
  ∀ s, ∃ new, log (x s).2 = log s ++ new ∧ ∀ g ∈ new, P g

/-- A run that leaves the log alone. -/
theorem notes_of_eq {x : Parser σ α} (h : ∀ s, log (x s).2 = log s) : Notes log P x :=
  fun s => ⟨[], by simp [h s], by simp⟩

theorem notes_pass (c : Check) : Notes log P (c.pass : Parser σ Unit) :=
  notes_of_eq fun s => by rw [pass_snd]

theorem notes_bind {x : Parser σ α} {f : α → Parser σ β} (hx : Notes log P x)
    (hf : ∀ a, Notes log P (f a)) : Notes log P (x >>= f) := by
  intro s
  obtain ⟨new, heq, hnew⟩ := hx s
  change ∃ new, log (Parser.bind x f s).2 = _ ∧ _
  unfold Parser.bind
  rcases hxs : x s with ⟨e | a, t⟩
  · rw [hxs] at heq
    exact ⟨new, heq, hnew⟩
  · rw [hxs] at heq
    obtain ⟨more, hmore, hP⟩ := hf a t
    refine ⟨new ++ more, ?_, ?_⟩
    · simp only [hmore, heq, List.append_assoc]
    · intro g hg
      rcases List.mem_append.mp hg with hg | hg
      · exact hnew g hg
      · exact hP g hg

theorem notes_when {b : Bool} {x : Parser σ Unit} (hx : Notes log P x) :
    Notes log P (Parser.when b x) := by
  cases b with
  | false => exact notes_of_eq fun _ => rfl
  | true => exact hx

theorem notes_forM {f : β → Parser σ Unit} (hf : ∀ x, Notes log P (f x)) (xs : List β) :
    Notes log P (forM xs f) := by
  induction xs with
  | nil => exact notes_of_eq fun _ => rfl
  | cons x xs ih =>
    rw [List.forM_cons]
    exact notes_bind (hf x) fun _ => ih

theorem notes_scratch {τ : Type} (init : τ) (x : Parser τ Unit) :
    Notes log P (Parser.scratch init x : Parser σ τ) := by
  refine notes_of_eq fun s => ?_
  unfold Parser.scratch
  rcases x init with ⟨e | a, t⟩ <;> rfl

end Notes

end Parse
