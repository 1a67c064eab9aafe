import Ucentral.Lib.Block
import Ucentral.Lib.Loop
import Ucentral.Plat.ScriptScan

/-! The pointers of `simple_wordexp` and of the loops that call it.

    The script is a block of its characters and a NUL, so that a pointer that goes past the NUL cannot be
    read. Each loop is run for so many turns; more turns than the script has characters suffice, because
    every word takes at least one of them:

        turns of `script_runner`    at least a word each
        turns of the loop over argc a word each
        words                       at least a character each -/

namespace Ucentral.Plat.ScriptPtr
open ScriptWords ScriptLines

/-! ### One word -/

def nul : Char := '\x00'

/-- A C string in memory. -/
def textBlock (s : List Char) : Block Char := Block.holding (s ++ [nul])

/-- The variables of `simple_wordexp`; `s` is `*s`. -/
structure Scan extends Mode where
  s : ℕ
  ch : Char
  out : Block Char
  oi : ℕ := 0
  tl : ℕ := 0

/-- What `simple_wordexp` returns, and leaves in `*toklen`, `*delim`, `*s` and `out`. -/
structure Ret where
  ret : ℕ
  toklen : ℕ
  delim : Char
  s : ℕ
  out : Block Char

def Scan.ret (e : Scan) : Ret := ⟨e.oi, e.tl, e.ch, e.s, e.out⟩

/-- `if (oi < outsz) out[oi++] = ch; ++tl;` -/
def Scan.put (outsz : ℕ) (e : Scan) (ch : Char) : Option Scan :=
  if e.oi < outsz then do
    let out ← e.out.store e.oi ch
    return { e with out := out, oi := e.oi + 1, tl := e.tl + 1 }
  else some { e with tl := e.tl + 1 }

/-- In quotes the backslash is kept before all but the quote. -/
def Scan.putBack (outsz : ℕ) (e : Scan) : Option Scan :=
  if e.q.isSome && e.q != some e.ch then e.put outsz '\\' else some e

/-- `ch = *++*s` -/
def Scan.forStep (text : Block Char) (e : Scan) : Option (Scan ⊕ Ret) := do
  let ch ← text.load (e.s + 1)
  return .inl { e with s := e.s + 1, ch := ch }

/-- A turn of the loop over leading blanks. -/
def blankTurn (text : Block Char) (s : ℕ) : Option (ℕ ⊕ ℕ) := do
  let ch ← text.load s
  return if isBlank ch then .inl (s + 1) else .inr s

/-- A turn of the loop over the characters of a word. -/
def expTurn (text : Block Char) (outsz : ℕ) (e : Scan) : Option (Scan ⊕ Ret) := do
  let c ← text.load e.s
  if c = nul then return .inr e.ret
  else if !e.esc && e.ch == '\\' then Scan.forStep text { e with esc := true }
  else if e.esc then
    let mid ← e.putBack outsz
    let last ← mid.put outsz e.ch
    Scan.forStep text { last with esc := false }
  else if e.q.isSome then
    if e.q == some e.ch then Scan.forStep text { e with q := none }
    else
      let last ← e.put outsz e.ch
      last.forStep text
  else if isQuote e.ch then Scan.forStep text { e with q := some e.ch }
  else if isBlank e.ch then return .inr { e.ret with s := e.s + 1 }
  else
    let last ← e.put outsz e.ch
    last.forStep text

/-- `simple_wordexp` -/
def simpleWordexp (turns : ℕ) (text : Block Char) (s : ℕ) (out : Block Char) (outsz : ℕ) : Option Ret := do
  let s ← Loop.run (blankTurn text) turns s
  let ch ← text.load s
  Loop.run (expTurn text outsz) turns { s := s, ch := ch, out := out }

/-! ### One command -/

/-- The variables of the loop over `argc`; `arg` are the rows of `token`. -/
structure ArgPtrs where
  argc : ℕ := 0
  arg : List (Block Char) := []
  ignore : Bool := false
  delim : Char := nul
  s : ℕ

/-- A turn of it, its condition first. -/
def argTurn (turns : ℕ) (text : Block Char) (a : ArgPtrs) : Option (ArgPtrs ⊕ ArgPtrs) :=
  if a.argc < scriptArgmax then do
    let c ← text.load a.s
    if c ≠ nul ∧ a.delim ≠ '\n' then
      let w ← simpleWordexp turns text a.s (Block.uninit scriptToklen) scriptToklen
      let a := { a with argc := a.argc + 1, delim := w.delim, s := w.s }
      if a.ignore then return .inl a
      else if w.ret = scriptToklen then return .inl { a with ignore := true }
      else
        let row ← w.out.store w.ret nul
        return .inl { a with arg := a.arg ++ [row] }
    else return .inr a
  else some (.inr a)

/-- What is read in a row, up to its NUL. -/
def cstring (row : Block Char) : List Char := (row.takeWhile fun c => c ≠ some nul).filterMap id

/-- The arguments for `spawnp`, unless the line is skipped. -/
def ArgPtrs.command (a : ArgPtrs) : Option (List (List Char)) :=
  if a.ignore ∨ a.argc < 1 ∨ scriptArgmax ≤ a.argc then none
  else if commands.contains (cstring (a.arg.headD [])) then some (a.arg.map cstring)
  else none

/-! ### The script -/

/-- The variables of the loop over the script, and the commands it has run, each with the pointer behind
    it. -/
structure RunnerPtr where
  s : ℕ := 0
  i : ℕ := 0
  exitStatus : ℤ := 0
  bi : ℕ := 0
  rc : ℤ := 0
  cmds : List (List (List Char) × ℕ) := []

/-- A line has been read: its command is run, if it is one. What comes of a child may depend on the turn;
    where there is none, `spawnp` has failed. -/
def RunnerPtr.line (child : ℕ → List (List Char) → Option Child) (r : RunnerPtr) (a : ArgPtrs) :
    RunnerPtr ⊕ RunnerPtr :=
  match a.command with
  | none => .inl { r with s := a.s, i := r.i + 1 }
  | some argv =>
    match child r.i argv with
    | none => .inr { r with s := a.s, rc := -1 }
    | some c => .inl {
        s := a.s
        i := r.i + 1
        exitStatus := c.exitStatus
        bi := min (r.bi + c.printed) (scriptOutlen - 1)
        rc := c.rc
        cmds := r.cmds ++ [(argv, a.s)] }

/-- A turn of the loop, its condition first. -/
def runTurn (turns : ℕ) (text : Block Char) (child : ℕ → List (List Char) → Option Child)
    (r : RunnerPtr) : Option (RunnerPtr ⊕ RunnerPtr) := do
  let c ← text.load r.s
  if c ≠ nul ∧ r.exitStatus = 0 ∧ r.bi < scriptOutlen - 1 ∧ r.rc = 0 then
    let a ← Loop.run (argTurn turns text) turns { s := r.s }
    return r.line child a
  else return .inr r

/-- The loop of `script_runner`. -/
def scriptRunner (turns : ℕ) (child : ℕ → List (List Char) → Option Child) (s : List Char) :
    Option RunnerPtr :=
  Loop.run (runTurn turns (textBlock s) child) turns {}

/-! ### A word, and the text of it -/

/-- What the parts of a word stand for, up to the first blank outside of quotes. -/
def tokenFrom : Mode → List Char → List Char
  | _, [] => []
  | m, ch :: s =>
    match item m ch with
    | .part out => out ++ tokenFrom (next m ch) s
    | _ => []

/-- The first word of a text. -/
def token (s : List Char) : List Char := tokenFrom {} (s.dropWhile isBlank)

theorem tokenFrom_part {m : Mode} {ch : Char} {out : List Char} (h : item m ch = .part out)
    (s : List Char) : tokenFrom m (ch :: s) = out ++ tokenFrom (next m ch) s := by
  rw [tokenFrom, h]

theorem tokenFrom_blank {ch : Char} (h : isBlank ch = true) (s : List Char) :
    tokenFrom {} (ch :: s) = [] := by
  have hitem := (List.cons.inj (items_blank h [])).1
  rw [tokenFrom, hitem]
  by_cases hn : ch = '\n'
  · rw [if_pos hn]
  · rw [if_neg hn]

/-- The loop reports the length of the word, and hands out what there is room for. -/
theorem wordLoop_token (outsz : ℕ) : ∀ (s : List Char) (e : Exp) (w : List Char),
    e.out = w.take outsz → e.tl = w.length →
    (wordLoop outsz s e).toklen = (w ++ tokenFrom e.toMode s).length ∧
      (wordLoop outsz s e).out = (w ++ tokenFrom e.toMode s).take outsz
  | [], e, w, hout, htl => by
      rw [tokenFrom, List.append_nil]
      exact ⟨htl, hout⟩
  | ch :: s, e, w, hout, htl => by
      by_cases hpart : ∃ o, item e.toMode ch = .part o
      · obtain ⟨o, ho⟩ := hpart
        obtain ⟨e', hloop, hmode, htl', hput⟩ := wordLoop_part outsz ho s
        have hrest := wordLoop_token outsz s e' (w ++ o) (hput w hout)
          (by rw [htl', htl, List.length_append])
        rw [hloop, tokenFrom_part ho, ← hmode, ← List.append_assoc]
        exact hrest
      · obtain ⟨hmode, hblank⟩ := blank_of_item hpart
        rw [wordLoop_blank (congrArg Mode.esc hmode) (congrArg Mode.q hmode) outsz hblank s, hmode,
          tokenFrom_blank hblank, List.append_nil]
        exact ⟨htl, hout⟩

theorem simpleWordexp_token (outsz : ℕ) (s : List Char) :
    (ScriptWords.simpleWordexp outsz s).toklen = (token s).length ∧
      (ScriptWords.simpleWordexp outsz s).out = (token s).take outsz :=
  wordLoop_token outsz (s.dropWhile isBlank) {} [] List.take_nil.symm rfl

theorem mem_of_item {m : Mode} {ch : Char} {out : List Char} (h : item m ch = .part out) :
    ∀ c ∈ out, c = '\\' ∨ c = ch := by
  unfold item at h
  repeat' split at h
  all_goals cases h
  all_goals simp

theorem nul_not_mem_tokenFrom : ∀ (t : List Char) (m : Mode), nul ∉ t → nul ∉ tokenFrom m t
  | [], _, _ => List.not_mem_nil
  | ch :: t, m, ht => by
      rw [List.mem_cons, not_or] at ht
      cases hitem : item m ch with
      | part out =>
        rw [tokenFrom_part hitem, List.mem_append, not_or]
        refine ⟨fun hmem => ?_, nul_not_mem_tokenFrom t _ ht.2⟩
        rcases mem_of_item hitem nul hmem with h | h
        · exact absurd h (by decide)
        · exact ht.1 h
      | blank => simp [tokenFrom, hitem]
      | eol => simp [tokenFrom, hitem]

/-! ### The pointer of `simple_wordexp` -/

theorem load_textBlock {s : List Char} {pos : ℕ} (h : pos ≤ s.length) :
    (textBlock s).load pos = some ((s.drop pos).headD nul) := by
  rw [textBlock, Block.load_holding, List.headD_eq_head?_getD, List.head?_drop]
  by_cases hlt : pos < s.length
  · rw [List.getElem?_append_left hlt, List.getElem?_eq_getElem hlt]
    rfl
  · have hpos : pos = s.length := Nat.le_antisymm h (Nat.not_lt.mp hlt)
    rw [hpos, List.getElem?_concat_length, List.getElem?_eq_none (Nat.le_refl _)]
    rfl

theorem drop_succ {s rest : List Char} {pos : ℕ} {ch : Char} (h : s.drop pos = ch :: rest) :
    pos + 1 ≤ s.length ∧ s.drop (pos + 1) = rest := by
  have hlen := congrArg List.length h
  rw [List.length_drop, List.length_cons] at hlen
  refine ⟨by omega, ?_⟩
  rw [← List.tail_drop, h, List.tail_cons]

/-- `out` has `outsz` cells, and the variables are those of the loop over a list. -/
structure Core (outsz : ℕ) (e : Scan) (x : Exp) : Prop where
  mode : e.toMode = x.toMode
  tl : e.tl = x.tl
  oi : e.oi = x.out.length
  size : e.out.length = outsz
  cells : ∀ i < e.oi, e.out.load i = x.out[i]?

/-- The pointer is at `rest`. -/
structure At (s : List Char) (e : Scan) (rest : List Char) : Prop where
  le : e.s ≤ s.length
  drop : s.drop e.s = rest
  ch : e.ch = rest.headD nul

/-- The same word has been read, and the pointer is at what is left. -/
structure Agrees (s : List Char) (outsz : ℕ) (r : Ret) (w : Word) : Prop where
  ret : r.ret = w.out.length
  toklen : r.toklen = w.toklen
  delim : r.delim = w.delim
  le : r.s ≤ s.length
  drop : s.drop r.s = w.script
  size : r.out.length = outsz
  cells : ∀ i < r.ret, r.out.load i = w.out[i]?

section Word

variable {s : List Char} {outsz : ℕ} {e : Scan} {x : Exp}

theorem Core.put (h : Core outsz e x) (ch : Char) : ∃ e', e.put outsz ch = some e' ∧
    Core outsz e' (x.put outsz ch) ∧ e'.s = e.s ∧ e'.ch = e.ch := by
  unfold Scan.put Exp.put
  by_cases hroom : x.out.length < outsz
  · have hcell : e.oi < e.out.length := by rw [h.size, h.oi]; exact hroom
    rw [if_pos hroom, if_pos (by rw [h.oi]; exact hroom), Block.store_eq hcell]
    refine ⟨_, rfl, ⟨h.mode, ?_, ?_, ?_, fun i hi => ?_⟩, rfl, rfl⟩
    · rw [h.tl]
    · rw [List.length_append, List.length_singleton, h.oi]
    · rw [List.length_set, h.size]
    · rcases Nat.lt_succ_iff_lt_or_eq.mp hi with hlt | rfl
      · rw [Block.load_set_ne (Nat.ne_of_gt hlt), List.getElem?_append_left (by rw [← h.oi]; exact hlt)]
        exact h.cells i hlt
      · rw [Block.load_set_self hcell, h.oi, List.getElem?_concat_length]
  · rw [if_neg hroom, if_neg (by rw [h.oi]; exact hroom)]
    exact ⟨_, rfl, ⟨h.mode, by rw [h.tl], h.oi, h.size, h.cells⟩, rfl, rfl⟩

theorem Core.setMode (h : Core outsz e x) (m : Mode) :
    Core outsz { e with toMode := m } { x with toMode := m } :=
  ⟨rfl, h.tl, h.oi, h.size, h.cells⟩

/-- The step of the `for` reads at most the NUL. -/
theorem Core.forStep {ch : Char} {rest : List Char} (h : Core outsz e x)
    (hdrop : s.drop e.s = ch :: rest) : ∃ e', e.forStep (textBlock s) = some (.inl e') ∧
      Core outsz e' x ∧ At s e' rest ∧ e'.s = e.s + 1 := by
  obtain ⟨hle, hrest⟩ := drop_succ hdrop
  unfold Scan.forStep
  rw [load_textBlock hle, hrest]
  exact ⟨_, rfl, ⟨h.mode, h.tl, h.oi, h.size, h.cells⟩, ⟨hle, hrest, rfl⟩, rfl⟩

/-- A character is handed out, then the `for` steps. -/
theorem Core.putStep {ch : Char} {rest : List Char} (h : Core outsz e x)
    (hdrop : s.drop e.s = ch :: rest) (c : Char) :
    ∃ e', (do let last ← e.put outsz c; last.forStep (textBlock s)) = some (.inl e') ∧
      Core outsz e' (x.put outsz c) ∧ At s e' rest ∧ e'.s = e.s + 1 := by
  obtain ⟨last, hlast, hcore, hs, -⟩ := h.put c
  rw [← hs] at hdrop ⊢
  rw [hlast]
  exact hcore.forStep hdrop

/-- An escaped character is handed out, with its backslash if that is kept. -/
theorem Core.putEscaped {ch : Char} {rest : List Char} (h : Core outsz e x)
    (hdrop : s.drop e.s = ch :: rest) (c : Char) :
    ∃ e', (do
        let mid ← e.putBack outsz
        let last ← mid.put outsz c
        Scan.forStep (textBlock s) { last with esc := false }) = some (.inl e') ∧
      Core outsz e' { (if (e.q.isSome && e.q != some e.ch) = true then x.put outsz '\\' else x).put outsz c
        with esc := false } ∧ At s e' rest ∧ e'.s = e.s + 1 := by
  have hmid : ∃ mid, e.putBack outsz = some mid ∧ Core outsz mid
      (if (e.q.isSome && e.q != some e.ch) = true then x.put outsz '\\' else x) ∧ mid.s = e.s := by
    unfold Scan.putBack
    split
    · obtain ⟨mid, hput, hcore, hs, -⟩ := h.put '\\'
      exact ⟨mid, hput, hcore, hs⟩
    · exact ⟨e, rfl, h, rfl⟩
  obtain ⟨mid, hput, hcoremid, hs⟩ := hmid
  obtain ⟨last, hlast, hcore, hs', -⟩ := hcoremid.put c
  have hesc : Core outsz { last with esc := false }
      { (if (e.q.isSome && e.q != some e.ch) = true then x.put outsz '\\' else x).put outsz c
        with esc := false } :=
    ⟨congrArg (fun m : Mode => { m with esc := false }) hcore.mode, hcore.tl, hcore.oi, hcore.size,
      hcore.cells⟩
  rw [← hs, ← hs'] at hdrop ⊢
  simp only [Option.bind_eq_bind, hput, Option.bind_some, hlast]
  exact hesc.forStep hdrop

/-- A turn goes on behind the character, as the loop over a list does. -/
def GoesOn (s : List Char) (outsz : ℕ) (e : Scan) (rest : List Char) (w : Word) : Prop :=
  ∃ e' x', expTurn (textBlock s) outsz e = some (.inl e') ∧ Core outsz e' x' ∧ At s e' rest ∧
    e'.s = e.s + 1 ∧ wordLoop outsz rest x' = w

theorem expTurn_nil (hcore : Core outsz e x) (hat : At s e []) :
    expTurn (textBlock s) outsz e = some (.inr e.ret) ∧
      Agrees s outsz e.ret (wordLoop outsz [] x) := by
  unfold expTurn
  rw [load_textBlock hat.le, hat.drop]
  exact ⟨rfl, hcore.oi, hcore.tl, hat.ch, hat.le, hat.drop, hcore.size, hcore.cells⟩

theorem expTurn_cons {ch : Char} {rest : List Char} (hcore : Core outsz e x)
    (hat : At s e (ch :: rest)) (hch : ch ≠ nul) :
    GoesOn s outsz e rest (wordLoop outsz (ch :: rest) x) ∨
      ∃ r, expTurn (textBlock s) outsz e = some (.inr r) ∧
        Agrees s outsz r (wordLoop outsz (ch :: rest) x) := by
  obtain ⟨⟨esc, q⟩, pos, c, out, oi, tl⟩ := e
  obtain ⟨⟨xesc, xq⟩, xout, xtl⟩ := x
  obtain ⟨rfl, rfl⟩ := Mode.mk.inj hcore.mode
  obtain rfl : c = ch := hat.ch
  have hload : (textBlock s).load pos = some c := by
    rw [load_textBlock hat.le, hat.drop]
    rfl
  unfold GoesOn expTurn
  rw [hload, wordLoop]
  simp only [Option.bind_eq_bind, Option.bind_some, if_neg hch]
  by_cases hback : (!esc && c == '\\') = true
  · rw [if_pos hback, if_pos hback]
    obtain ⟨e', hstep, hrest⟩ := (hcore.setMode ⟨true, q⟩).forStep hat.drop
    exact Or.inl ⟨e', _, hstep, hrest.1, hrest.2.1, hrest.2.2, rfl⟩
  rw [if_neg hback, if_neg hback]
  by_cases hesc : esc = true
  · rw [if_pos hesc, if_pos hesc]
    obtain ⟨e', hstep, hrest⟩ := hcore.putEscaped hat.drop c
    exact Or.inl ⟨e', _, hstep, hrest.1, hrest.2.1, hrest.2.2, rfl⟩
  rw [if_neg hesc, if_neg hesc]
  by_cases hq : q.isSome = true
  · rw [if_pos hq, if_pos hq]
    left
    by_cases hclose : (q == some c) = true
    · rw [if_pos hclose, if_pos hclose]
      obtain ⟨e', hstep, hrest⟩ := (hcore.setMode ⟨esc, none⟩).forStep hat.drop
      exact ⟨e', _, hstep, hrest.1, hrest.2.1, hrest.2.2, rfl⟩
    · rw [if_neg hclose, if_neg hclose]
      obtain ⟨e', hstep, hrest⟩ := hcore.putStep hat.drop c
      exact ⟨e', _, hstep, hrest.1, hrest.2.1, hrest.2.2, rfl⟩
  rw [if_neg hq, if_neg hq]
  by_cases hquote : isQuote c = true
  · rw [if_pos hquote, if_pos hquote]
    obtain ⟨e', hstep, hrest⟩ := (hcore.setMode ⟨esc, some c⟩).forStep hat.drop
    exact Or.inl ⟨e', _, hstep, hrest.1, hrest.2.1, hrest.2.2, rfl⟩
  rw [if_neg hquote, if_neg hquote]
  by_cases hblank : isBlank c = true
  · rw [if_pos hblank, if_pos hblank]
    obtain ⟨hle, hrest⟩ := drop_succ hat.drop
    exact Or.inr ⟨_, rfl, hcore.oi, hcore.tl, rfl, hle, hrest, hcore.size, hcore.cells⟩
  · rw [if_neg hblank, if_neg hblank]
    obtain ⟨e', hstep, hrest⟩ := hcore.putStep hat.drop c
    exact Or.inl ⟨e', _, hstep, hrest.1, hrest.2.1, hrest.2.2, rfl⟩

end Word

/-- Leading blanks are skipped, at most up to the NUL. -/
theorem run_blankTurn {s : List Char} {turns pos : ℕ} (hpos : pos ≤ s.length) (hturns : s.length < turns) :
    ∃ r, Loop.run (blankTurn (textBlock s)) turns pos = some r ∧ r ≤ s.length ∧
      s.drop r = (s.drop pos).dropWhile isBlank := by
  refine Loop.run_total
    (I := fun k => k ≤ s.length ∧ (s.drop k).dropWhile isBlank = (s.drop pos).dropWhile isBlank)
    (m := fun k => s.length - k) ?_ turns pos ⟨hpos, rfl⟩ (by omega)
  rintro k ⟨hk, hdrop⟩
  unfold Loop.Turns blankTurn
  rw [load_textBlock hk]
  cases hrest : s.drop k with
  | nil =>
    rw [hrest] at hdrop
    exact Or.inr ⟨k, rfl, hk, hrest.trans hdrop⟩
  | cons ch rest =>
    rw [hrest] at hdrop
    obtain ⟨hle, hnext⟩ := drop_succ hrest
    cases hblank : isBlank ch with
    | true =>
      rw [List.dropWhile_cons_of_pos hblank] at hdrop
      refine Or.inl ⟨k + 1, ?_, ⟨hle, by rw [hnext, hdrop]⟩, by dsimp only; omega⟩
      simp [hblank]
    | false =>
      rw [List.dropWhile_cons_of_neg (by rw [hblank]; exact Bool.false_ne_true)] at hdrop
      refine Or.inr ⟨k, ?_, hk, hrest.trans hdrop⟩
      simp [hblank]

section Text

variable {s : List Char} (hs : nul ∉ s)
include hs

/-- Only at its end the text is a NUL. -/
theorem headD_drop_eq_nul (pos : ℕ) : (s.drop pos).headD nul = nul ↔ s.drop pos = [] := by
  cases hrest : s.drop pos with
  | nil => exact iff_of_true rfl rfl
  | cons ch rest =>
    refine iff_of_false (fun h => hs ?_) (List.cons_ne_nil _ _)
    have hmem : ch ∈ s := List.mem_of_mem_drop (hrest ▸ List.mem_cons_self)
    rwa [← (h : ch = nul)]

/-- The call reads the word that is read from the list of what is left. -/
theorem simpleWordexp_agrees {turns pos outsz : ℕ} {out : Block Char} (hpos : pos ≤ s.length)
    (hout : out.length = outsz) (hturns : s.length < turns) :
    ∃ r, simpleWordexp turns (textBlock s) pos out outsz = some r ∧
      Agrees s outsz r (ScriptWords.simpleWordexp outsz (s.drop pos)) := by
  obtain ⟨start, hstart, hle, hdrop⟩ := run_blankTurn hpos hturns
  have hloop : ∃ r, Loop.run (expTurn (textBlock s) outsz) turns
      { s := start, ch := (s.drop start).headD nul, out := out } = some r ∧
      Agrees s outsz r (ScriptWords.simpleWordexp outsz (s.drop pos)) := by
    refine Loop.run_total (I := fun e => ∃ x rest, Core outsz e x ∧ At s e rest ∧
        wordLoop outsz rest x = ScriptWords.simpleWordexp outsz (s.drop pos))
      (m := fun e => s.length - e.s) ?_ turns _ ?_ (by dsimp only; omega)
    · rintro e ⟨x, rest, hcore, hat, hword⟩
      rw [← hword]
      cases rest with
      | nil =>
        obtain ⟨hturn, hret⟩ := expTurn_nil hcore hat
        exact Or.inr ⟨e.ret, hturn, hret⟩
      | cons ch rest =>
        have hch : ch ≠ nul := by
          rintro rfl
          exact hs (List.mem_of_mem_drop (hat.drop ▸ List.mem_cons_self))
        rcases expTurn_cons hcore hat hch with ⟨e', x', hturn, hcore', hat', hnext, hloop⟩ | hleave
        · have hlt := (drop_succ hat.drop).1
          exact Or.inl ⟨e', hturn, ⟨x', rest, hcore', hat', hloop⟩, by dsimp only; omega⟩
        · exact Or.inr hleave
    · refine ⟨{}, s.drop start, ⟨rfl, rfl, rfl, hout, fun i hi => absurd hi (Nat.not_lt_zero i)⟩,
        ⟨hle, rfl, rfl⟩, ?_⟩
      rw [hdrop]
      rfl
  obtain ⟨r, hrun, hr⟩ := hloop
  refine ⟨r, ?_, hr⟩
  rw [simpleWordexp, hstart]
  simp only [Option.bind_eq_bind, Option.bind_some, load_textBlock hle]
  exact hrun

omit hs in
/-- A call moves the pointer, if there is text. -/
theorem Agrees.advances {pos outsz : ℕ} {r : Ret}
    (h : Agrees s outsz r (ScriptWords.simpleWordexp outsz (s.drop pos))) (hpos : pos < s.length) :
    pos < r.s := by
  have hne : s.drop pos ≠ [] := by
    rw [ne_eq, List.drop_eq_nil_iff]
    omega
  obtain ⟨w, -, -, hlen⟩ := simpleWordexp_hands outsz hne
  rw [← h.drop, List.length_drop, List.length_drop] at hlen
  omega

/-! ### The loop over `argc` -/

end Text

/-- A row with a NUL behind what was handed out is read as that. -/
theorem cstring_set {row : Block Char} {xs : List Char} (hlt : xs.length < row.length)
    (hcells : ∀ i < xs.length, row.load i = xs[i]?) (hnul : nul ∉ xs) :
    cstring (row.set xs.length (some nul)) = xs := by
  have htake : row.take xs.length = xs.map some := by
    refine List.ext_getElem? fun i => ?_
    rw [List.getElem?_take, List.getElem?_map]
    by_cases hi : i < xs.length
    · have hload := hcells i hi
      rw [Block.load, List.getElem?_eq_getElem (Nat.lt_trans hi hlt), List.getElem?_eq_getElem hi] at hload
      rw [if_pos hi, List.getElem?_eq_getElem (Nat.lt_trans hi hlt), List.getElem?_eq_getElem hi]
      exact congrArg some hload
    · rw [if_neg hi, List.getElem?_eq_none (Nat.not_lt.mp hi)]
      rfl
  have hset : row.set xs.length (some nul) =
      xs.map some ++ some nul :: row.drop (xs.length + 1) := by
    rw [List.set_eq_take_append_cons_drop, if_pos hlt, htake]
  have hall : ∀ c ∈ xs.map some, decide (c ≠ some nul) = true := by
    intro c hc
    obtain ⟨d, hd, rfl⟩ := List.mem_map.mp hc
    exact decide_eq_true fun h => hnul (Option.some.inj h ▸ hd)
  rw [cstring, hset, List.takeWhile_append_of_pos hall, List.takeWhile_cons_of_neg (by simp),
    List.append_nil, List.filterMap_map]
  exact List.filterMap_some

/-- The same words have been read for the command, and the pointer is at what is left. -/
structure ArgsAgree (s : List Char) (a : ArgPtrs) (b : Args) : Prop where
  argc : a.argc = b.argc
  arg : a.arg.map cstring = b.arg
  ignore : a.ignore = b.ignore
  delim : a.delim = b.delim
  le : a.s ≤ s.length
  drop : s.drop a.s = b.script

section Command

variable {s : List Char} (hs : nul ∉ s)
include hs

/-- A turn reads a word, and leaves the pointer behind it. -/
theorem argTurn_step {turns : ℕ} (hturns : s.length < turns) {a : ArgPtrs} {b : Args}
    (h : ArgsAgree s a b) (hargc : a.argc < scriptArgmax) (hgo : b.script ≠ [] ∧ b.delim ≠ '\n') :
    ∃ next, argTurn turns (textBlock s) a = some (.inl next) ∧ ArgsAgree s next (argStep b) ∧
      a.s < next.s := by
  obtain ⟨w, hw, hagree⟩ := simpleWordexp_agrees hs h.le (Block.length_uninit scriptToklen) hturns
  rw [← h.drop, ← h.delim] at hgo
  have hnul : (s.drop a.s).headD nul ≠ nul := fun hc => hgo.1 ((headD_drop_eq_nul hs a.s).mp hc)
  have hpos : a.s < s.length := by
    have hne := hgo.1
    rw [ne_eq, List.drop_eq_nil_iff] at hne
    omega
  have hadvance := hagree.advances hpos
  have hout : nul ∉ (ScriptWords.simpleWordexp scriptToklen (s.drop a.s)).out := by
    rw [(simpleWordexp_token scriptToklen _).2]
    refine fun hmem => nul_not_mem_tokenFrom _ {} (fun hdrop => ?_) (List.mem_of_mem_take hmem)
    exact hs (List.mem_of_mem_drop ((List.dropWhile_suffix _).subset hdrop))
  unfold argTurn argStep
  rw [if_pos hargc, load_textBlock h.le, ← h.drop]
  simp only [Option.bind_eq_bind, Option.bind_some]
  rw [if_pos ⟨hnul, hgo.2⟩, hw]
  simp only [Option.bind_some]
  by_cases hignore : b.ignore = true
  · rw [if_pos (h.ignore.trans hignore), if_pos hignore]
    exact ⟨_, rfl, ⟨by rw [h.argc], h.arg, h.ignore, hagree.delim, hagree.le, hagree.drop⟩, hadvance⟩
  rw [if_neg (by rwa [h.ignore]), if_neg hignore]
  by_cases hfull : (ScriptWords.simpleWordexp scriptToklen (s.drop a.s)).out.length = scriptToklen
  · rw [if_pos (hagree.ret.trans hfull), if_pos hfull]
    exact ⟨_, rfl, ⟨by rw [h.argc], h.arg, rfl, hagree.delim, hagree.le, hagree.drop⟩, hadvance⟩
  · have hroom : (ScriptWords.simpleWordexp scriptToklen (s.drop a.s)).out.length < w.out.length := by
      have hle := (simpleWordexp_token scriptToklen (s.drop a.s)).2
      have htake := congrArg List.length hle
      rw [List.length_take] at htake
      rw [hagree.size]
      omega
    rw [if_neg (by rwa [hagree.ret]), if_neg hfull, hagree.ret, Block.store_eq hroom]
    refine ⟨_, rfl, ⟨by rw [h.argc], ?_, h.ignore, hagree.delim, hagree.le, hagree.drop⟩, hadvance⟩
    rw [List.map_append, h.arg, List.map_singleton, cstring_set hroom _ hout]
    rw [← hagree.ret]
    exact hagree.cells

/-- The loop over `argc` reads the words that are read from the list of what is left. -/
theorem run_argTurn {turns : ℕ} (hturns : s.length < turns) {pos : ℕ} (hpos : pos ≤ s.length) :
    ∃ a, Loop.run (argTurn turns (textBlock s)) turns { s := pos } = some a ∧
      ArgsAgree s a (argLoop scriptArgmax { script := s.drop pos }) := by
  refine Loop.run_total (I := fun a => a.argc ≤ scriptArgmax ∧ ∃ b, ArgsAgree s a b ∧
      argLoop (scriptArgmax - a.argc) b = argLoop scriptArgmax { script := s.drop pos })
    (m := fun a => s.length - a.s) ?_ turns { s := pos } ?_ (by dsimp only; omega)
  · rintro a ⟨hargc, b, hab, hloop⟩
    unfold Loop.Turns
    by_cases hlt : a.argc < scriptArgmax
    · obtain ⟨room, hroom⟩ : ∃ room, scriptArgmax - a.argc = room + 1 :=
        ⟨scriptArgmax - a.argc - 1, by omega⟩
      rw [hroom, argLoop] at hloop
      by_cases hgo : b.script ≠ [] ∧ b.delim ≠ '\n'
      · rw [if_pos hgo] at hloop
        obtain ⟨next, hturn, hnext, hadvance⟩ := argTurn_step hs hturns hab hlt hgo
        have hargc' : next.argc = a.argc + 1 := by rw [hnext.argc, argStep_argc, hab.argc]
        have hle := hnext.le
        refine Or.inl ⟨next, hturn, ⟨by omega, argStep b, hnext, ?_⟩, by dsimp only; omega⟩
        rw [← hloop]
        congr 1
        omega
      · rw [if_neg hgo] at hloop
        have hstop : ¬ ((s.drop a.s).headD nul ≠ nul ∧ a.delim ≠ '\n') := by
          rw [ne_eq, headD_drop_eq_nul hs, hab.drop, hab.delim]
          exact hgo
        refine Or.inr ⟨a, ?_, by rw [← hloop]; exact hab⟩
        rw [argTurn, if_pos hlt, load_textBlock hab.le]
        simp only [Option.bind_eq_bind, Option.bind_some, if_neg hstop]
        rfl
    · have hroom : scriptArgmax - a.argc = 0 := by omega
      rw [hroom, argLoop] at hloop
      refine Or.inr ⟨a, if_neg hlt, ?_⟩
      rw [← hloop]
      exact hab
  · exact ⟨Nat.zero_le _, _, ⟨rfl, rfl, rfl, rfl, hpos, rfl⟩, rfl⟩

omit hs in
/-- Both make the same command of their words. -/
theorem ArgsAgree.command {a : ArgPtrs} {b : Args} (h : ArgsAgree s a b) : a.command = b.command := by
  unfold ArgPtrs.command Args.command
  have hhead : cstring (a.arg.headD []) = b.arg.headD [] := by
    rw [← h.arg]
    cases a.arg with
    | nil => rfl
    | cons row rows => rfl
  rw [h.ignore, h.argc, hhead, h.arg]
  exact if_congr Iff.rfl rfl (if_congr List.contains_iff_mem rfl rfl)

omit hs in
/-- Behind a line there is less of the script. -/
theorem ArgsAgree.advances {a : ArgPtrs} {pos : ℕ} (hpos : pos < s.length)
    (h : ArgsAgree s a (argLoop scriptArgmax { script := s.drop pos })) : pos < a.s := by
  have hdelim : '\x00' ≠ '\n' := by decide
  have hroom : 0 < scriptArgmax := by decide
  obtain ⟨-, hlen⟩ := feed_argLoop (reads_nil (s.drop pos)) hdelim (Nat.zero_add _) hroom
  rw [← h.drop, List.length_drop, List.length_drop] at hlen
  omega

end Command

/-! ### The loop over the script -/

section Runner

variable {s : List Char} (hs : nul ∉ s) {turns : ℕ} (hturns : s.length < turns)
  (child : ℕ → List (List Char) → Option Child) {r : RunnerPtr} (hr : r.s ≤ s.length)
include hs hr

theorem runTurn_stop (hstop : ¬ (s.drop r.s ≠ [] ∧ r.exitStatus = 0 ∧ r.bi < scriptOutlen - 1 ∧
    r.rc = 0)) : runTurn turns (textBlock s) child r = some (.inr r) := by
  have hno : ¬ ((s.drop r.s).headD nul ≠ nul ∧ r.exitStatus = 0 ∧ r.bi < scriptOutlen - 1 ∧
      r.rc = 0) := by
    rwa [ne_eq, headD_drop_eq_nul hs]
  rw [runTurn, load_textBlock hr]
  simp only [Option.bind_eq_bind, Option.bind_some, if_neg hno]
  rfl

include hturns in
/-- A turn reads a line, and leaves the pointer behind it. -/
theorem runTurn_line (hgo : s.drop r.s ≠ [] ∧ r.exitStatus = 0 ∧ r.bi < scriptOutlen - 1 ∧ r.rc = 0) :
    ∃ a, runTurn turns (textBlock s) child r = some (r.line child a) ∧
      ArgsAgree s a (argLoop scriptArgmax { script := s.drop r.s }) ∧ r.s < a.s := by
  have hyes : (s.drop r.s).headD nul ≠ nul ∧ r.exitStatus = 0 ∧ r.bi < scriptOutlen - 1 ∧
      r.rc = 0 := by
    rwa [ne_eq, headD_drop_eq_nul hs]
  have hpos : r.s < s.length := by
    have hne := hgo.1
    rw [ne_eq, List.drop_eq_nil_iff] at hne
    omega
  obtain ⟨a, hrun, hagree⟩ := run_argTurn hs hturns hr
  refine ⟨a, ?_, hagree, hagree.advances hpos⟩
  rw [runTurn, load_textBlock hr]
  simp only [Option.bind_eq_bind, Option.bind_some, if_pos hyes, hrun]
  rfl

end Runner

theorem RunnerPtr.line_s {child : ℕ → List (List Char) → Option Child} {r next : RunnerPtr}
    {a : ArgPtrs} (h : r.line child a = .inl next) : next.s = a.s := by
  unfold RunnerPtr.line at h
  split at h
  · exact (congrArg RunnerPtr.s (Sum.inl.inj h)).symm
  · split at h
    · cases h
    · exact (congrArg RunnerPtr.s (Sum.inl.inj h)).symm

/-- The loop ends, whatever the children do. -/
theorem scriptRunner_ends {s : List Char} (hs : nul ∉ s) {turns : ℕ} (hturns : s.length < turns)
    (child : ℕ → List (List Char) → Option Child) : ∃ r, scriptRunner turns child s = some r := by
  have hloop : ∃ r, Loop.run (runTurn turns (textBlock s) child) turns {} = some r ∧ True := by
    refine Loop.run_total (I := fun r : RunnerPtr => r.s ≤ s.length) (m := fun r => s.length - r.s) ?_
      turns {} (Nat.zero_le _) hturns
    intro r hr
    by_cases hgo : s.drop r.s ≠ [] ∧ r.exitStatus = 0 ∧ r.bi < scriptOutlen - 1 ∧ r.rc = 0
    · obtain ⟨a, hturn, hagree, hadvance⟩ := runTurn_line hs hturns child hr hgo
      have hle := hagree.le
      cases hline : r.line child a with
      | inl next =>
        have hnext := RunnerPtr.line_s hline
        rw [hline] at hturn
        exact Or.inl ⟨next, hturn, by omega, by dsimp only; omega⟩
      | inr last =>
        rw [hline] at hturn
        exact Or.inr ⟨last, hturn, trivial⟩
    · exact Or.inr ⟨r, runTurn_stop hs child hr hgo, trivial⟩
  obtain ⟨r, hrun, -⟩ := hloop
  exact ⟨r, hrun⟩

/-- A command and how much of the script is behind it. -/
def cmdOf (s : List Char) (c : List (List Char) × ℕ) : Cmd := ⟨c.1, s.length - c.2⟩

/-- What is left to run from the list of characters. -/
def runFrom (child : List (List Char) → Option Child) (left : ℕ) (s : List Char) (r : RunnerPtr) :
    List Cmd :=
  r.cmds.map (cmdOf s) ++ runLoop child left ⟨s.drop r.s, r.exitStatus, r.bi, r.rc⟩

theorem line_runFrom {s : List Char} {r : RunnerPtr} {a : ArgPtrs}
    (child : List (List Char) → Option Child) (left : ℕ)
    (hgo : s.drop r.s ≠ [] ∧ r.exitStatus = 0 ∧ r.bi < scriptOutlen - 1 ∧ r.rc = 0)
    (hagree : ArgsAgree s a (argLoop scriptArgmax { script := s.drop r.s })) :
    (∃ next, r.line (fun _ => child) a = .inl next ∧
        runFrom child left s next = runFrom child (left + 1) s r) ∨
      ∃ last, r.line (fun _ => child) a = .inr last ∧
        last.cmds.map (cmdOf s) = runFrom child (left + 1) s r := by
  have hleft : (argLoop scriptArgmax { script := s.drop r.s }).script.length = s.length - a.s := by
    rw [← hagree.drop, List.length_drop]
  unfold RunnerPtr.line runFrom
  rw [runLoop, if_pos hgo, hagree.command]
  dsimp only
  rw [hleft, ← hagree.drop]
  cases (argLoop scriptArgmax { script := s.drop r.s }).command with
  | none => exact Or.inl ⟨_, rfl, rfl⟩
  | some argv =>
    dsimp only
    cases child argv with
    | none => exact Or.inr ⟨_, rfl, (List.append_nil _).symm⟩
    | some c =>
      refine Or.inl ⟨_, rfl, ?_⟩
      rw [List.map_append, List.append_assoc]
      rfl

/-- What is run is what is run from the list of characters. -/
theorem scriptRunner_cmds {s : List Char} (hs : nul ∉ s) {turns : ℕ} (hturns : s.length < turns)
    (child : List (List Char) → Option Child) : ∃ r, scriptRunner turns (fun _ => child) s = some r ∧
      r.cmds.map (cmdOf s) = ScriptWords.scriptRunner child s := by
  refine Loop.run_total (I := fun r : RunnerPtr => r.s ≤ s.length ∧ ∃ left, s.length ≤ left + r.s ∧
      runFrom child left s r = ScriptWords.scriptRunner child s)
    (m := fun r => s.length - r.s) ?_ turns {} ?_ hturns
  · rintro r ⟨hr, left, hleft, htarget⟩
    by_cases hgo : s.drop r.s ≠ [] ∧ r.exitStatus = 0 ∧ r.bi < scriptOutlen - 1 ∧ r.rc = 0
    · obtain ⟨a, hturn, hagree, hadvance⟩ := runTurn_line hs hturns (fun _ => child) hr hgo
      have hle := hagree.le
      obtain ⟨left, rfl⟩ : ∃ n, left = n + 1 := ⟨left - 1, by omega⟩
      rcases line_runFrom child left hgo hagree with ⟨next, hline, hnext⟩ | ⟨last, hline, hlast⟩
      · have hs' := RunnerPtr.line_s hline
        rw [hline] at hturn
        exact Or.inl ⟨next, hturn, ⟨by omega, left, by omega, hnext.trans htarget⟩, by dsimp only; omega⟩
      · rw [hline] at hturn
        exact Or.inr ⟨last, hturn, hlast.trans htarget⟩
    · refine Or.inr ⟨r, runTurn_stop hs _ hr hgo, ?_⟩
      rw [← htarget, runFrom]
      cases left with
      | zero => exact (List.append_nil _).symm
      | succ left => rw [runLoop, if_neg hgo, List.append_nil]
  · exact ⟨Nat.zero_le _, s.length, Nat.le_refl _, rfl⟩

/-- In every text, from every place in it, `simple_wordexp` finds a word: its pointer stays before the NUL
    or on it, and moves if there is text; it hands out the first characters of the word, as many as
    there is room for, and writes nowhere else. So the loops that call it end, whatever the script is,
    and whatever comes of the children. -/
theorem simpleWordexp_bounded (s : List Char) (hs : nul ∉ s) (turns : ℕ) (hturns : s.length < turns) :
    (∀ (pos : ℕ) (out : Block Char), pos ≤ s.length →
      ∃ r, simpleWordexp turns (textBlock s) pos out out.length = some r ∧
        r.s ≤ s.length ∧ (pos < s.length → pos < r.s) ∧ r.ret = min r.toklen out.length ∧
        r.toklen = (token (s.drop pos)).length ∧ r.out.length = out.length ∧
        ∀ i < r.ret, r.out.load i = (token (s.drop pos))[i]?) ∧
    (∀ pos, pos ≤ s.length → ∃ a, Loop.run (argTurn turns (textBlock s)) turns { s := pos } = some a) ∧
    ∀ child, ∃ r, scriptRunner turns child s = some r := by
  refine ⟨fun pos out hpos => ?_, fun pos hpos => ?_, scriptRunner_ends hs hturns⟩
  · obtain ⟨r, hrun, hr⟩ := simpleWordexp_agrees hs hpos rfl hturns
    obtain ⟨htoklen, hout⟩ := simpleWordexp_token out.length (s.drop pos)
    have hret : r.ret = min r.toklen out.length := by
      rw [hr.ret, hr.toklen, htoklen, hout, List.length_take, Nat.min_comm]
    refine ⟨r, hrun, hr.le, hr.advances, hret, hr.toklen.trans htoklen, hr.size, fun i hi => ?_⟩
    rw [hr.cells i hi, hout, List.getElem?_take, if_pos (by omega)]
  · obtain ⟨a, hrun, -⟩ := run_argTurn hs hturns hpos
    exact ⟨a, hrun⟩

theorem simpleWordexp_bounded_open_quote :
    (∀ (pos : ℕ) (out : Block Char), pos ≤ "a \"b\\".toList.length →
      ∃ r, simpleWordexp 6 (textBlock "a \"b\\".toList) pos out out.length = some r ∧
        r.s ≤ "a \"b\\".toList.length ∧ (pos < "a \"b\\".toList.length → pos < r.s) ∧
        r.ret = min r.toklen out.length ∧ r.toklen = (token ("a \"b\\".toList.drop pos)).length ∧
        r.out.length = out.length ∧
        ∀ i < r.ret, r.out.load i = (token ("a \"b\\".toList.drop pos))[i]?) ∧
    (∀ pos, pos ≤ "a \"b\\".toList.length →
      ∃ a, Loop.run (argTurn 6 (textBlock "a \"b\\".toList)) 6 { s := pos } = some a) ∧
    ∀ child, ∃ r, scriptRunner 6 child "a \"b\\".toList = some r :=
  simpleWordexp_bounded "a \"b\\".toList (by decide) 6 (by decide)

end Ucentral.Plat.ScriptPtr
