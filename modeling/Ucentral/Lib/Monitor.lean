import Ucentral.Lib.Run

/-! Machines that write a trace, and monitors that read one.

    A monitor is an automaton without an error state: it says which traces are right by having a step
    for each of their entries. A machine writes only such traces if its states can be related to those
    of the monitor. -/

namespace Monitor

variable {σ ι ε τ : Type}

/-- The state in which the monitor has read the trace, if it expects every entry. -/
def reads (m : τ → ε → Option τ) : τ → List ε → Option τ
  | t, [] => some t
  | t, e :: es => (m t e).bind fun t' => reads m t' es

variable {m : τ → ε → Option τ}

@[simp] theorem reads_nil (t : τ) : reads m t [] = some t := rfl

@[simp] theorem reads_cons (t : τ) (e : ε) (es : List ε) :
    reads m t (e :: es) = (m t e).bind fun t' => reads m t' es := rfl

theorem reads_append (es es' : List ε) : ∀ t : τ,
    reads m t (es ++ es') = (reads m t es).bind fun t' => reads m t' es' := by
  induction es with
  | nil => intro t; rfl
  | cons e es ih =>
    intro t
    rw [List.cons_append, reads_cons, reads_cons]
    cases m t e with
    | none => rfl
    | some t' => exact ih t'

/-- What holds of the entries so far and the state they have led to, if each further entry keeps it. -/
theorem reads_history {I : List ε → τ → Prop}
    (hstep : ∀ {pre t e t'}, I pre t → m t e = some t' → I (pre ++ [e]) t') (es : List ε) :
    ∀ (pre : List ε) {t t' : τ}, I pre t → reads m t es = some t' → I (pre ++ es) t' := by
  induction es with
  | nil =>
    intro pre t t' h hr
    cases hr
    rw [List.append_nil]
    exact h
  | cons e es ih =>
    intro pre t t' h hr
    obtain ⟨t₁, he, hr⟩ := Option.bind_eq_some_iff.mp hr
    have hnext := ih (pre ++ [e]) (hstep h he) hr
    rwa [List.append_assoc] at hnext

/-- What a machine writes in a run. -/
def trace (step : σ → ι → σ × List ε) : σ → List ι → List ε
  | _, [] => []
  | s, i :: is => (step s i).2 ++ trace step (step s i).1 is

theorem trace_append (step : σ → ι → σ × List ε) (is js : List ι) : ∀ s : σ,
    trace step s (is ++ js) =
      trace step s is ++ trace step (is.foldl (fun s i => (step s i).1) s) js := by
  induction is with
  | nil => intro s; rfl
  | cons i is ih =>
    intro s
    rw [List.cons_append, trace, trace, ih, List.append_assoc]
    rfl

/-- A machine whose steps, as far as they meet `P`, can be followed by the monitor. -/
theorem reads_trace {step : σ → ι → σ × List ε} {R : σ → τ → Prop} {P : σ → ι → Prop}
    (hstep : ∀ {s t i}, R s t → P s i → ∃ t', reads m t (step s i).2 = some t' ∧ R (step s i).1 t')
    (is : List ι) : ∀ {s : σ} {t : τ}, R s t → Run.EveryStep (fun s i => (step s i).1) P s is →
      ∃ t', reads m t (trace step s is) = some t' := by
  induction is with
  | nil => exact fun {_ t} _ _ => ⟨t, rfl⟩
  | cons i is ih =>
    intro s t hr hp
    rw [Run.everyStep_cons] at hp
    obtain ⟨t₁, hread, hr₁⟩ := hstep hr hp.1
    obtain ⟨t', hrest⟩ := ih hr₁ hp.2
    refine ⟨t', ?_⟩
    rw [trace, reads_append, hread]
    exact hrest

end Monitor
