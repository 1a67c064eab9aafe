import Mathlib.Algebra.Group.Int.Defs
import Mathlib.Tactic.Common

/-! The words of a script.

    `simple_wordexp` reads one word and tells by which character it ended. `script_runner` reads words
    into a command until one ended with a newline, or until `arg` is full, and runs the command if it
    is one of three:

        p i n g ␣ ␣ - c ␣ 1 \n      words  ping, -c, 1      ended by  ␣, ␣, \n

    A C string is the list of its characters; where the list ends the C code reads a NUL. -/

namespace Ucentral.Plat.ScriptWords

/-! ### One word -/

/-- `SCRIPT_ARGMAX`. -/
def scriptArgmax : ℕ := 32

/-- `SCRIPT_TOKLEN`. -/
def scriptToklen : ℕ := 512

/-- `SCRIPT_OUTLEN`. -/
def scriptOutlen : ℕ := 512 * 1024

/-- The characters that separate words. -/
def isBlank (ch : Char) : Bool :=
  ch == ' ' || ch == '\n' || ch == '\t' || ch == '\x0b' || ch == '\x0d' || ch == '\x0c'

def isQuote (ch : Char) : Bool := ch == '\x22' || ch == '\x27'

/-- `esc` and `q`. -/
structure Mode where
  esc : Bool := false
  q : Option Char := none
  deriving DecidableEq

/-- The variables of `simple_wordexp`; `oi` is the length of `out`. -/
structure Exp extends Mode where
  out : List Char := []
  tl : ℕ := 0

/-- `if (oi < outsz) out[oi++] = ch; ++tl;` -/
def Exp.put (outsz : ℕ) (e : Exp) (ch : Char) : Exp :=
  { e with out := if e.out.length < outsz then e.out ++ [ch] else e.out, tl := e.tl + 1 }

/-- What `simple_wordexp` hands back: the characters of `out`, `*toklen`, `*delim` and `*s`. -/
structure Word where
  out : List Char
  toklen : ℕ
  delim : Char
  script : List Char

/-- The loop of `simple_wordexp`. -/
def wordLoop (outsz : ℕ) : List Char → Exp → Word
  | [], e => ⟨e.out, e.tl, '\x00', []⟩
  | ch :: s, e =>
    if !e.esc && ch == '\\' then wordLoop outsz s { e with esc := true }
    else if e.esc then
      let e := if e.q.isSome && e.q != some ch then e.put outsz '\\' else e
      wordLoop outsz s { e.put outsz ch with esc := false }
    else if e.q.isSome then
      if e.q == some ch then wordLoop outsz s { e with q := none }
      else wordLoop outsz s (e.put outsz ch)
    else if isQuote ch then wordLoop outsz s { e with q := some ch }
    else if isBlank ch then ⟨e.out, e.tl, ch, s⟩
    else wordLoop outsz s (e.put outsz ch)

/-- `simple_wordexp`; it returns the length of `out`. -/
def simpleWordexp (outsz : ℕ) (s : List Char) : Word := wordLoop outsz (s.dropWhile isBlank) {}

/-! ### One command -/

/-- The variables of the loop over `argc`. -/
structure Args where
  argc : ℕ := 0
  arg : List (List Char) := []
  ignore : Bool := false
  delim : Char := '\x00'
  script : List Char

/-- One turn of it. -/
def argStep (a : Args) : Args :=
  let w := simpleWordexp scriptToklen a.script
  let a := { a with argc := a.argc + 1, delim := w.delim, script := w.script }
  if a.ignore then a
  else if w.out.length = scriptToklen then { a with ignore := true }
  else { a with arg := a.arg ++ [w.out] }

section Step

variable (a : Args)

theorem argStep_argc : (argStep a).argc = a.argc + 1 := by
  unfold argStep
  dsimp only
  split
  · rfl
  · split <;> rfl

theorem argStep_delim : (argStep a).delim = (simpleWordexp scriptToklen a.script).delim := by
  unfold argStep
  dsimp only
  split
  · rfl
  · split <;> rfl

theorem argStep_script : (argStep a).script = (simpleWordexp scriptToklen a.script).script := by
  unfold argStep
  dsimp only
  split
  · rfl
  · split <;> rfl

theorem argStep_ignore : (argStep a).ignore = true ↔
    a.ignore = true ∨ (simpleWordexp scriptToklen a.script).out.length = scriptToklen := by
  unfold argStep
  dsimp only
  split
  · next h => exact iff_of_true h (Or.inl h)
  · next h =>
    split
    · next hlen => exact iff_of_true rfl (Or.inr hlen)
    · next hlen => exact iff_of_false h (not_or.mpr ⟨h, hlen⟩)

theorem argStep_arg (h : (argStep a).ignore = false) :
    (argStep a).arg = a.arg ++ [(simpleWordexp scriptToklen a.script).out] := by
  have hno : ¬ (argStep a).ignore = true := by rw [h]; exact Bool.false_ne_true
  rw [argStep_ignore, not_or] at hno
  unfold argStep
  dsimp only
  rw [if_neg hno.1, if_neg hno.2]

end Step

/-- The loop, with room for so many words yet: `SCRIPT_ARGMAX - argc`. -/
def argLoop : ℕ → Args → Args
  | 0, a => a
  | room + 1, a => if a.script ≠ [] ∧ a.delim ≠ '\n' then argLoop room (argStep a) else a

/-- What may be run. -/
def commands : List (List Char) := ["ping".toList, "nslookup".toList, "traceroute".toList]

/-- The arguments for `spawnp`, unless the line is skipped. -/
def Args.command (a : Args) : Option (List (List Char)) :=
  if a.ignore ∨ a.argc < 1 ∨ scriptArgmax ≤ a.argc then none
  else if a.arg.headD [] ∈ commands then some a.arg
  else none

/-! ### The script -/

/-- What comes of a child: its exit status, how much it prints, and `rc` after it. -/
structure Child where
  exitStatus : ℤ := 0
  printed : ℕ := 0
  rc : ℤ := 0

/-- The variables of the loop over the script. -/
structure Runner where
  script : List Char
  exitStatus : ℤ := 0
  bi : ℕ := 0
  rc : ℤ := 0

/-- A command that is run, and how much of the script is left behind it. -/
structure Cmd where
  argv : List (List Char)
  left : ℕ
  deriving DecidableEq

def Runner.after (r : Runner) (c : Child) (script : List Char) : Runner where
  script := script
  exitStatus := c.exitStatus
  bi := min (r.bi + c.printed) (scriptOutlen - 1)
  rc := c.rc

/-- The loop of `script_runner`, for so many turns: what it runs. Where there is no child, `spawnp` has
    failed. -/
def runLoop (child : List (List Char) → Option Child) : ℕ → Runner → List Cmd
  | 0, _ => []
  | turns + 1, r =>
    if r.script ≠ [] ∧ r.exitStatus = 0 ∧ r.bi < scriptOutlen - 1 ∧ r.rc = 0 then
      let a := argLoop scriptArgmax { script := r.script }
      match a.command with
      | none => runLoop child turns { r with script := a.script }
      | some argv =>
        match child argv with
        | none => []
        | some c => ⟨argv, a.script.length⟩ :: runLoop child turns (r.after c a.script)
    else []

/-- Every child succeeds and prints nothing. -/
def quiet (_ : List (List Char)) : Option Child := some {}

/-- `script_runner`; every turn takes at least a character off the script. -/
def scriptRunner (child : List (List Char) → Option Child) (script : List Char) : List Cmd :=
  runLoop child script.length { script := script }

/-! ### What is written with backslashes is read back -/

/-- A word with a backslash before every character, or two quotes. -/
def writeArg (arg : List Char) : List Char :=
  if arg = [] then ['\x27', '\x27'] else arg.flatMap fun ch => ['\\', ch]

def writeLine (args : List (List Char)) : List Char :=
  List.intercalate [' '] (args.map writeArg) ++ ['\n']

theorem wordLoop_blank {e : Exp} (hesc : e.esc = false) (hq : e.q = none) (outsz : ℕ) {ch : Char}
    (hch : isBlank ch = true) (s : List Char) :
    wordLoop outsz (ch :: s) e = ⟨e.out, e.tl, ch, s⟩ := by
  have hback : (ch == '\\') = false := by
    cases h : ch == '\\' with
    | false => rfl
    | true => rw [beq_iff_eq.mp h] at hch; exact absurd hch (by decide)
  have hquote : isQuote ch = false := by
    cases h : isQuote ch with
    | false => rfl
    | true =>
      unfold isQuote at h
      rcases (Bool.or_eq_true _ _).mp h with h | h
      · rw [beq_iff_eq.mp h] at hch; exact absurd hch (by decide)
      · rw [beq_iff_eq.mp h] at hch; exact absurd hch (by decide)
  simp [wordLoop, hesc, hq, hback, hquote, hch]

theorem wordLoop_escaped {e : Exp} (hesc : e.esc = false) (hq : e.q = none) (outsz : ℕ) (ch : Char)
    (s : List Char) : wordLoop outsz ('\\' :: ch :: s) e = wordLoop outsz s (e.put outsz ch) := by
  obtain ⟨⟨esc, q⟩, out, tl⟩ := e
  cases hesc
  cases hq
  simp [wordLoop, Exp.put]

/-- A word that fits is read up to the blank behind it. -/
theorem wordLoop_escape (outsz : ℕ) {ch : Char} (hch : isBlank ch = true) (s : List Char) :
    ∀ (arg : List Char) {e : Exp}, e.esc = false → e.q = none →
      e.out.length + arg.length ≤ outsz →
      wordLoop outsz (arg.flatMap (fun ch => ['\\', ch]) ++ ch :: s) e =
        ⟨e.out ++ arg, e.tl + arg.length, ch, s⟩
  | [], e, hesc, hq, _ => by
      rw [List.flatMap_nil, List.nil_append, wordLoop_blank hesc hq outsz hch, List.append_nil]
      rfl
  | c :: arg, e, hesc, hq, hlen => by
      rw [List.length_cons] at hlen
      have hroom : e.out.length < outsz := by omega
      rw [List.flatMap_cons]
      change wordLoop outsz ('\\' :: c :: (arg.flatMap (fun ch => ['\\', ch]) ++ ch :: s)) e = _
      rw [wordLoop_escaped hesc hq, wordLoop_escape outsz hch s arg (e := e.put outsz c) hesc hq]
      · simp only [Exp.put, if_pos hroom, List.append_assoc, List.singleton_append,
          List.length_cons, Word.mk.injEq, true_and, and_true]
        omega
      · simp only [Exp.put, if_pos hroom, List.length_append, List.length_singleton]
        omega

theorem simpleWordexp_writeArg {arg : List Char} (hlen : arg.length ≤ scriptToklen) {ch : Char}
    (hch : isBlank ch = true) (s : List Char) :
    simpleWordexp scriptToklen (writeArg arg ++ ch :: s) = ⟨arg, arg.length, ch, s⟩ := by
  unfold simpleWordexp writeArg
  cases arg with
  | nil =>
    rw [if_pos rfl]
    change wordLoop scriptToklen (ch :: s) {} = _
    exact wordLoop_blank rfl rfl _ hch s
  | cons c arg =>
    rw [if_neg (List.cons_ne_nil c arg)]
    have hdrop : ((c :: arg).flatMap (fun ch => ['\\', ch]) ++ ch :: s).dropWhile isBlank =
        (c :: arg).flatMap (fun ch => ['\\', ch]) ++ ch :: s := rfl
    have hword := wordLoop_escape scriptToklen hch s (c :: arg) (e := {}) rfl rfl
      (by simpa using hlen)
    rw [hdrop, hword, List.nil_append, Nat.zero_add]

/-- One turn of the loop over `argc` takes one written word. -/
theorem argStep_writeArg {a : Args} (hignore : a.ignore = false) {arg : List Char}
    (hlen : arg.length < scriptToklen) {ch : Char} (hch : isBlank ch = true) {s : List Char}
    (hs : a.script = writeArg arg ++ ch :: s) :
    argStep a = { a with argc := a.argc + 1, arg := a.arg ++ [arg], delim := ch, script := s } := by
  unfold argStep
  rw [hs, simpleWordexp_writeArg (Nat.le_of_lt hlen) hch]
  simp only [hignore, Bool.false_eq_true, if_false, if_neg (Nat.ne_of_lt hlen)]

theorem writeArg_ne_nil (arg s : List Char) : writeArg arg ++ s ≠ [] := by
  unfold writeArg
  cases arg with
  | nil => exact List.cons_ne_nil _ _
  | cons c arg => exact List.cons_ne_nil _ _

/-- The loop reads the words of a written line on top of those it has. -/
theorem argLoop_writeLine (rest : List Char) : ∀ (arg : List Char) (args : List (List Char))
    {room : ℕ} {a : Args}, a.ignore = false → a.delim ≠ '\n' → args.length < room →
    (∀ x ∈ arg :: args, x.length < scriptToklen) → a.script = writeLine (arg :: args) ++ rest →
    argLoop room a = { a with
      argc := a.argc + (args.length + 1)
      arg := a.arg ++ arg :: args
      delim := '\n'
      script := rest }
  | arg, args, 0, a, _, _, hroom, _, _ => absurd hroom (Nat.not_lt_zero _)
  | arg, [], room + 1, a, hignore, hdelim, _, hlen, hs => by
      have hscript : a.script = writeArg arg ++ '\n' :: rest := by
        rw [hs]
        simp [writeLine, List.intercalate]
      have hne : a.script ≠ [] := by
        rw [hscript]
        exact writeArg_ne_nil _ _
      rw [argLoop, if_pos ⟨hne, hdelim⟩,
        argStep_writeArg hignore (hlen arg List.mem_cons_self) (by decide) hscript]
      cases room with
      | zero => rfl
      | succ room =>
        rw [argLoop, if_neg (fun h => h.2 rfl)]
        rfl
  | arg, next :: args, room + 1, a, hignore, hdelim, hroom, hlen, hs => by
      have hscript : a.script = writeArg arg ++ ' ' :: (writeLine (next :: args) ++ rest) := by
        rw [hs]
        simp [writeLine, List.intercalate]
      have hne : a.script ≠ [] := by
        rw [hscript]
        exact writeArg_ne_nil _ _
      rw [argLoop, if_pos ⟨hne, hdelim⟩,
        argStep_writeArg hignore (hlen arg List.mem_cons_self) (by decide) hscript,
        argLoop_writeLine rest next args (by exact hignore) (by decide : ' ' ≠ '\n')
          (by simpa using hroom) (fun x hx => hlen x (List.mem_cons_of_mem _ hx)) rfl]
      simp only [List.append_assoc, List.singleton_append, List.length_cons, Args.mk.injEq, and_true]
      omega

/-- A line of written words is read back by the loop over `argc`, which stops behind its newline. -/
theorem argLoop_read_back {args : List (List Char)} (hne : args ≠ [])
    (hmax : args.length < scriptArgmax) (hlen : ∀ x ∈ args, x.length < scriptToklen)
    (rest : List Char) : argLoop scriptArgmax { script := writeLine args ++ rest } =
      { argc := args.length, arg := args, ignore := false, delim := '\n', script := rest } := by
  cases args with
  | nil => exact absurd rfl hne
  | cons arg args =>
    have hdelim : '\x00' ≠ '\n' := by decide
    rw [argLoop_writeLine rest arg args rfl hdelim (Nat.lt_of_succ_lt hmax) hlen rfl]
    simp

theorem argLoop_read_back_quoted :
    argLoop scriptArgmax { script := writeLine ["ping".toList, [], "a \n\\".toList] ++ "ls".toList } =
      { argc := 3, arg := ["ping".toList, [], "a \n\\".toList], ignore := false, delim := '\n',
        script := "ls".toList } :=
  argLoop_read_back (by decide) (by decide) (by decide) _

end Ucentral.Plat.ScriptWords
