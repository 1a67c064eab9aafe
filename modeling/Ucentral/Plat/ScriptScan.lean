import Ucentral.Plat.ScriptWords
import Mathlib.Data.List.Basic

/-! The words of a script, one after another.

    What a character stands for only depends on quotes and backslashes before it. Over these items the
    calls of `simple_wordexp` are one scan of the script, whatever the commands are that its words are
    put into, and the loops of `script_runner` feed the words to one command after another. -/

namespace Ucentral.Plat.ScriptLines
open ScriptWords

/-! ### What characters stand for -/

/-- What a character of a script stands for: a part of a word, a blank, or the end of a line. -/
inductive Item
  | part (out : List Char)
  | blank
  | eol
  deriving DecidableEq

def item (m : Mode) (ch : Char) : Item :=
  if m.esc then .part (if m.q.isSome && m.q != some ch then ['\\', ch] else [ch])
  else if ch == '\\' then .part []
  else if m.q.isSome then .part (if m.q == some ch then [] else [ch])
  else if isQuote ch then .part []
  else if ch == '\n' then .eol
  else if isBlank ch then .blank
  else .part [ch]

/-- Quotes and backslashes after a character. -/
def next (m : Mode) (ch : Char) : Mode :=
  if m.esc then { m with esc := false }
  else if ch == '\\' then { m with esc := true }
  else if m.q.isSome then if m.q == some ch then { m with q := none } else m
  else if isQuote ch then { m with q := some ch }
  else m

def items : Mode → List Char → List Item
  | _, [] => []
  | m, ch :: s => item m ch :: items (next m ch) s

/-! ### Commands -/

/-- Its words are a command, and there is room for them. -/
def Runnable (words : List (List Char)) : Prop :=
  words.headD [] ∈ commands ∧ words.length < scriptArgmax ∧ ∀ w ∈ words, w.length < scriptToklen

instance : DecidablePred Runnable := fun _ => inferInstanceAs (Decidable (_ ∧ _ ∧ _))

/-- The command that words make, if they make one. -/
def commandOf (words : List (List Char)) (left : ℕ) : List Cmd :=
  if Runnable words then [⟨words, left⟩] else []

/-! ### The words that are read -/

/-- Where the reader of words is: before a word, behind a blank before it, or in it. -/
inductive Pos
  | start
  | skip
  | word (w : List Char)

/-- A word as it is read: does a newline end it, and what is left of the script then? -/
structure Token where
  text : List Char
  ends : Bool
  left : ℕ

/-- The words of a script one after another. Blanks at its end that no word is before give one more. -/
def scan : Pos → List Item → List Token
  | .start, [] => []
  | .skip, [] => [⟨[], false, 0⟩]
  | .word w, [] => [⟨w, false, 0⟩]
  | .start, .part out :: is => scan (.word out) is
  | .skip, .part out :: is => scan (.word out) is
  | .word w, .part out :: is => scan (.word (w ++ out)) is
  | .start, _ :: is => scan .skip is
  | .skip, _ :: is => scan .skip is
  | .word w, i :: is => ⟨w, i == .eol, is.length⟩ :: scan .start is

/-- The commands made of words as they are read, after the words `acc` of a command. -/
def feed : List (List Char) → List Token → List Cmd
  | acc, [] => commandOf acc 0
  | acc, t :: ts =>
    if t.ends = true ∨ acc.length + 1 = scriptArgmax then
      commandOf (acc ++ [t.text]) t.left ++ feed [] ts
    else feed (acc ++ [t.text]) ts

theorem put_out {outsz : ℕ} {e : Exp} {w : List Char} (h : e.out = w.take outsz) (ch : Char) :
    (e.put outsz ch).out = (w ++ [ch]).take outsz := by
  unfold Exp.put
  dsimp only
  rw [h, List.length_take, List.take_append]
  by_cases hlt : w.length < outsz
  · rw [if_pos (by omega), List.take_of_length_le (Nat.le_of_lt hlt), List.take_of_length_le]
    rw [List.length_singleton]
    omega
  · rw [if_neg (by omega), Nat.sub_eq_zero_of_le (by omega), List.take_zero, List.append_nil]

theorem length_items : ∀ (m : Mode) (s : List Char), (items m s).length = s.length
  | _, [] => rfl
  | m, ch :: s => congrArg Nat.succ (length_items (next m ch) s)

theorem isBlank_newline {ch : Char} (h : (ch == '\n') = true) : isBlank ch = true := by
  rw [beq_iff_eq.mp h]
  rfl

theorem not_quote_of_blank {ch : Char} (h : isBlank ch = true) :
    (ch == '\\') = false ∧ isQuote ch = false := by
  simp only [isBlank, Bool.or_eq_true, beq_iff_eq] at h
  rcases h with ((((rfl | rfl) | rfl) | rfl) | rfl) | rfl
  all_goals exact ⟨rfl, rfl⟩

theorem items_blank {ch : Char} (h : isBlank ch = true) (s : List Char) :
    items {} (ch :: s) = (if ch = '\n' then .eol else .blank) :: items {} s := by
  obtain ⟨hback, hquote⟩ := not_quote_of_blank h
  simp [items, item, next, hback, hquote, h]

theorem items_part {ch : Char} (h : isBlank ch = false) (s : List Char) :
    ∃ out, items {} (ch :: s) = .part out :: items (next {} ch) s := by
  have hn : (ch == '\n') = false := by
    cases hn : ch == '\n' with
    | false => rfl
    | true => exact absurd (isBlank_newline hn) (by rw [h]; exact Bool.false_ne_true)
  have hitem : ∃ out, item {} ch = .part out := by
    cases hback : ch == '\\' with
    | true => exact ⟨[], by simp [item, hback]⟩
    | false =>
      cases hquote : isQuote ch with
      | true => exact ⟨[], by simp [item, hback, hquote]⟩
      | false => exact ⟨[ch], by simp [item, hback, hquote, hn, h]⟩
  obtain ⟨out, hout⟩ := hitem
  exact ⟨out, by rw [items, hout]⟩

/-- The word that `ts` begin with is handed back, and the others come from what is left of `n`
    characters. -/
def Hands (outsz : ℕ) (r : Word) (ts : List Token) (n : ℕ) : Prop :=
  ∃ w, r.out = w.take outsz ∧
    ts = ⟨w, r.delim == '\n', r.script.length⟩ :: scan .start (items {} r.script) ∧
    r.script.length ≤ n - 1

/-- Only a blank outside of quotes is no part of a word. -/
theorem blank_of_item {m : Mode} {ch : Char} (h : ¬ ∃ out, item m ch = .part out) :
    m = {} ∧ isBlank ch = true := by
  by_cases hesc : m.esc = true
  · exact absurd ⟨_, if_pos hesc⟩ h
  by_cases hback : (ch == '\\') = true
  · exact absurd ⟨_, by rw [item, if_neg hesc, if_pos hback]⟩ h
  by_cases hq : m.q.isSome = true
  · exact absurd ⟨_, by rw [item, if_neg hesc, if_neg hback, if_pos hq]⟩ h
  by_cases hquote : isQuote ch = true
  · exact absurd ⟨_, by rw [item, if_neg hesc, if_neg hback, if_neg hq, if_pos hquote]⟩ h
  have hmode : m = {} := by
    obtain ⟨esc, q⟩ := m
    rw [Mode.mk.injEq]
    exact ⟨(Bool.not_eq_true _).mp hesc, Option.not_isSome_iff_eq_none.mp hq⟩
  refine ⟨hmode, ?_⟩
  cases hblank : isBlank ch with
  | true => rfl
  | false =>
    obtain ⟨out, hout⟩ := items_part hblank []
    rw [hmode] at h
    exact absurd ⟨out, (List.cons.inj hout).1⟩ h

/-- Where a character is a part of a word, the loop of `simple_wordexp` goes on with it. -/
theorem wordLoop_part (outsz : ℕ) {e : Exp} {ch : Char} {o : List Char}
    (h : item e.toMode ch = .part o) (s : List Char) :
    ∃ e', wordLoop outsz (ch :: s) e = wordLoop outsz s e' ∧ e'.toMode = next e.toMode ch ∧
      e'.tl = e.tl + o.length ∧ ∀ w, e.out = w.take outsz → e'.out = (w ++ o).take outsz := by
  obtain ⟨⟨esc, q⟩, out, tl⟩ := e
  have hnil : ∀ w : List Char, out = w.take outsz → out = (w ++ []).take outsz := by
    intro w hw
    rwa [List.append_nil]
  cases esc with
  | true =>
    by_cases hq : (q.isSome && q != some ch) = true
    · obtain rfl : ['\\', ch] = o := by simpa [item, hq] using h
      refine ⟨{ ((Exp.put outsz ⟨⟨true, q⟩, out, tl⟩ '\\').put outsz ch) with esc := false }, ?_, ?_, rfl, ?_⟩
      · simp [wordLoop, hq]
      · simp [next, Exp.put]
      · intro w hw
        have hput := put_out (put_out (e := ⟨⟨true, q⟩, out, tl⟩) hw '\\') ch
        rwa [List.append_assoc] at hput
    · obtain rfl : [ch] = o := by simpa [item, hq] using h
      refine ⟨{ (Exp.put outsz ⟨⟨true, q⟩, out, tl⟩ ch) with esc := false }, ?_, ?_, rfl, ?_⟩
      · simp [wordLoop, hq]
      · simp [next, Exp.put]
      · exact fun w hw => put_out (e := ⟨⟨true, q⟩, out, tl⟩) hw ch
  | false =>
    by_cases hback : (ch == '\\') = true
    · obtain rfl : [] = o := by simpa [item, hback] using h
      exact ⟨⟨⟨true, q⟩, out, tl⟩, by simp [wordLoop, hback], by simp [next, hback], rfl, hnil⟩
    · cases q with
      | some c =>
        by_cases hc : (some c == some ch) = true
        · obtain rfl : [] = o := by simpa [item, hback, hc] using h
          exact ⟨⟨⟨false, none⟩, out, tl⟩, by simp [wordLoop, hback, hc], by simp [next, hback, hc], rfl,
            hnil⟩
        · obtain rfl : [ch] = o := by simpa [item, hback, hc] using h
          refine ⟨Exp.put outsz ⟨⟨false, some c⟩, out, tl⟩ ch, ?_, ?_, rfl, ?_⟩
          · simp [wordLoop, hback, hc]
          · simp [next, hback, hc, Exp.put]
          · exact fun w hw => put_out (e := ⟨⟨false, some c⟩, out, tl⟩) hw ch
      | none =>
        by_cases hquote : isQuote ch = true
        · obtain rfl : [] = o := by simpa [item, hback, hquote] using h
          exact ⟨⟨⟨false, some ch⟩, out, tl⟩, by simp [wordLoop, hback, hquote],
            by simp [next, hback, hquote], rfl, hnil⟩
        · have hblank : ¬ isBlank ch = true := by
            intro hblank
            have hitem := (List.cons.inj (items_blank hblank [])).1
            rw [h] at hitem
            split at hitem <;> cases hitem
          have hn : ¬ (ch == '\n') = true := fun h => hblank (isBlank_newline h)
          obtain rfl : [ch] = o := by simpa [item, hback, hquote, hblank, hn] using h
          refine ⟨Exp.put outsz ⟨⟨false, none⟩, out, tl⟩ ch, ?_, ?_, rfl, ?_⟩
          · simp [wordLoop, hback, hquote, hblank]
          · simp [next, hback, hquote, Exp.put]
          · exact fun w hw => put_out (e := ⟨⟨false, none⟩, out, tl⟩) hw ch

/-- The loop of `simple_wordexp` reads on in the word it is in. -/
theorem wordLoop_hands (outsz : ℕ) : ∀ (s : List Char) (e : Exp) (w : List Char),
    e.out = w.take outsz →
    Hands outsz (wordLoop outsz s e) (scan (.word w) (items e.toMode s)) s.length
  | [], e, w, hout => ⟨w, hout, rfl, Nat.le_refl _⟩
  | ch :: s, e, w, hout => by
      by_cases hpart : ∃ o, item e.toMode ch = .part o
      · obtain ⟨o, ho⟩ := hpart
        obtain ⟨e', hloop, hmode, -, hput⟩ := wordLoop_part outsz ho s
        obtain ⟨w', hw', hscan, hlen⟩ := wordLoop_hands outsz s e' (w ++ o) (hput w hout)
        rw [hloop, items, ho, ← hmode]
        exact ⟨w', hw', hscan, Nat.le_trans hlen (Nat.sub_le ..)⟩
      · -- the word ends here
        obtain ⟨hmode, hblank⟩ := blank_of_item hpart
        rw [wordLoop_blank (congrArg Mode.esc hmode) (congrArg Mode.q hmode) outsz hblank s, hmode,
          items_blank hblank]
        refine ⟨w, hout, ?_, Nat.le_refl _⟩
        rw [← length_items {} s]
        by_cases hn : ch = '\n'
        · rw [if_pos hn, hn]
          rfl
        · rw [if_neg hn, beq_eq_false_iff_ne.mpr hn]
          rfl

/-- Outside of a word blanks are skipped. -/
def Pos.Outside : Pos → Prop
  | .word _ => False
  | _ => True

theorem outside_skip : Pos.skip.Outside := trivial

theorem outside_start : Pos.start.Outside := trivial

theorem scan_blank {pos : Pos} (hpos : pos.Outside) {ch : Char} (h : isBlank ch = true)
    (s : List Char) : scan pos (items {} (ch :: s)) = scan .skip (items {} s) := by
  rw [items_blank h]
  cases pos with
  | start => split <;> rfl
  | skip => split <;> rfl
  | word w => exact hpos.elim

theorem scan_part {pos : Pos} (hpos : pos.Outside) {ch : Char} (h : isBlank ch = false)
    (s : List Char) : scan pos (items {} (ch :: s)) = scan (.word []) (items {} (ch :: s)) := by
  obtain ⟨out, hout⟩ := items_part h s
  rw [hout]
  cases pos with
  | start => rfl
  | skip => rfl
  | word w => exact hpos.elim

theorem scan_dropWhile : ∀ (s : List Char),
    scan .skip (items {} s) = scan (.word []) (items {} (s.dropWhile isBlank))
  | [] => rfl
  | ch :: s => by
      cases h : isBlank ch with
      | true => rw [scan_blank outside_skip h, scan_dropWhile s,
          List.dropWhile_cons_of_pos h]
      | false =>
        rw [scan_part outside_skip h,
          List.dropWhile_cons_of_neg (by rw [h]; exact Bool.false_ne_true)]

/-- A call of `simple_wordexp` hands back the next word, and shortens the script. -/
theorem simpleWordexp_hands (outsz : ℕ) {s : List Char} (hs : s ≠ []) :
    Hands outsz (simpleWordexp outsz s) (scan .start (items {} s)) s.length := by
  have hscan : scan .start (items {} s) = scan (.word []) (items {} (s.dropWhile isBlank)) := by
    cases s with
    | nil => exact absurd rfl hs
    | cons ch s =>
      cases h : isBlank ch with
      | true => rw [scan_blank outside_start h, scan_dropWhile,
          List.dropWhile_cons_of_pos h]
      | false =>
        rw [scan_part outside_start h,
          List.dropWhile_cons_of_neg (by rw [h]; exact Bool.false_ne_true)]
  obtain ⟨w, hw, hrest, hlen⟩ := wordLoop_hands outsz (s.dropWhile isBlank) {} [] (by simp)
  exact ⟨w, hw, hscan.trans hrest,
    Nat.le_trans hlen (Nat.sub_le_sub_right (List.dropWhile_suffix isBlank).length_le 1)⟩

/-! ### The commands that are run -/

theorem not_runnable_of_full {words : List (List Char)} (h : words.length = scriptArgmax) :
    ¬ Runnable words := fun hr => absurd h (Nat.ne_of_lt hr.2.1)

theorem commandOf_nil (left : ℕ) : commandOf [] left = [] := if_neg fun h => absurd h.1 (by decide)

/-- The command of the arguments that are read, if there is one. -/
def argsCommand (a : Args) : List Cmd := (a.command.map fun argv => ⟨argv, a.script.length⟩).toList

/-- The loop over `argc` has read the words `acc`. -/
structure Reads (a : Args) (acc : List (List Char)) : Prop where
  argc : a.argc = acc.length
  ignore : a.ignore = true ↔ ∃ w ∈ acc, scriptToklen ≤ w.length
  arg : a.ignore = false → a.arg = acc

theorem Reads.argsCommand {a : Args} {acc : List (List Char)} (h : Reads a acc) :
    argsCommand a = commandOf acc a.script.length := by
  unfold ScriptLines.argsCommand Args.command commandOf
  cases hignore : a.ignore with
  | true =>
    obtain ⟨w, hw, hlong⟩ := h.ignore.mp hignore
    rw [if_pos (Or.inl rfl), if_neg (fun hr => absurd (hr.2.2 w hw) (Nat.not_lt.mpr hlong))]
    rfl
  | false =>
    have hshort : ∀ w ∈ acc, w.length < scriptToklen := by
      intro w hw
      by_contra hlong
      rw [h.ignore.mpr ⟨w, hw, Nat.not_lt.mp hlong⟩] at hignore
      cases hignore
    rw [h.arg hignore, h.argc]
    by_cases hr : Runnable acc
    · have hne : acc.length ≠ 0 := by
        intro h0
        rw [List.length_eq_zero_iff.mp h0] at hr
        exact absurd hr.1 (by decide)
      have hlt := hr.2.1
      rw [if_pos hr, if_neg, if_pos hr.1]
      · rfl
      · rintro (hf | hf)
        · cases hf
        · omega
    · rw [if_neg hr]
      split
      · rfl
      · next hno =>
        split
        · next hhead => exact absurd ⟨hhead, by omega, hshort⟩ hr
        · rfl

/-- One more word is read. -/
theorem Reads.step {a : Args} {acc : List (List Char)} (h : Reads a acc) (hs : a.script ≠ []) :
    ∃ w, Reads (argStep a) (acc ++ [w]) ∧
      scan .start (items {} a.script) =
        ⟨w, (argStep a).delim == '\n', (argStep a).script.length⟩ ::
          scan .start (items {} (argStep a).script) ∧
      (argStep a).script.length < a.script.length := by
  obtain ⟨w, hout, hscan, hlen⟩ := simpleWordexp_hands scriptToklen hs
  have hpos : 0 < a.script.length := List.length_pos_of_ne_nil hs
  have hfull : (simpleWordexp scriptToklen a.script).out.length = scriptToklen ↔
      scriptToklen ≤ w.length := by
    rw [hout, List.length_take]
    omega
  have hignore : (argStep a).ignore = true ↔ ∃ x ∈ acc ++ [w], scriptToklen ≤ x.length := by
    rw [argStep_ignore, hfull, h.ignore]
    simp only [List.mem_append, List.mem_singleton, or_and_right, exists_or, exists_eq_left]
  refine ⟨w, ⟨?_, hignore, fun hf => ?_⟩, ?_, ?_⟩
  · rw [argStep_argc, h.argc, List.length_append, List.length_singleton]
  · have hno : ¬ (argStep a).ignore = true := by rw [hf]; exact Bool.false_ne_true
    have hshort : ¬ scriptToklen ≤ w.length := fun hlong =>
      hno (hignore.mpr ⟨w, List.mem_append_right _ (List.mem_singleton_self w), hlong⟩)
    have hbefore : a.ignore = false := by
      rw [argStep_ignore, not_or, Bool.not_eq_true] at hno
      exact hno.1
    rw [argStep_arg a hf, h.arg hbefore, hout, List.take_of_length_le (by omega)]
  · rw [argStep_delim, argStep_script]
    exact hscan
  · rw [argStep_script]
    omega

/-- The loop over `argc` makes a command of the next words, and shortens the script. -/
theorem feed_argLoop : ∀ {room : ℕ} {a : Args} {acc : List (List Char)}, Reads a acc →
    a.delim ≠ '\n' → acc.length + room = scriptArgmax → 0 < room →
    feed acc (scan .start (items {} a.script)) = argsCommand (argLoop room a) ++
      feed [] (scan .start (items {} (argLoop room a).script)) ∧
    (argLoop room a).script.length ≤ a.script.length - 1
  | 0, _, _, _, _, _, hpos => absurd hpos (Nat.lt_irrefl 0)
  | room + 1, a, acc, h, hdelim, hroom, _ => by
      by_cases hs : a.script = []
      · have hstop : argLoop (room + 1) a = a := by
          rw [argLoop, if_neg (fun hc => hc.1 hs)]
        rw [hstop, h.argsCommand, hs]
        refine ⟨?_, Nat.zero_le _⟩
        change commandOf acc 0 = commandOf acc 0 ++ commandOf [] 0
        rw [commandOf_nil, List.append_nil]
      · obtain ⟨w, hreads, hscan, hlen⟩ := h.step hs
        have hgo : argLoop (room + 1) a = argLoop room (argStep a) := by
          rw [argLoop, if_pos ⟨hs, hdelim⟩]
        rw [hgo, hscan, feed]
        by_cases hend : (argStep a).delim = '\n' ∨ room = 0
        · have hstop : argLoop room (argStep a) = argStep a := by
            cases room with
            | zero => rfl
            | succ room =>
              rw [argLoop, if_neg]
              rcases hend with hend | hend
              · exact fun hc => hc.2 hend
              · cases hend
          have hcond : ((argStep a).delim == '\n') = true ∨ acc.length + 1 = scriptArgmax :=
            hend.imp beq_iff_eq.mpr (fun h0 => by omega)
          rw [hstop, if_pos hcond, hreads.argsCommand]
          exact ⟨rfl, by omega⟩
        · rw [not_or] at hend
          have hcond : ¬ (((argStep a).delim == '\n') = true ∨ acc.length + 1 = scriptArgmax) := by
            rintro (hc | hc)
            · exact hend.1 (beq_iff_eq.mp hc)
            · omega
          have hleft : 0 < room := by omega
          have ih := feed_argLoop hreads hend.1
            (by rw [List.length_append, List.length_singleton]; omega) hleft
          rw [if_neg hcond]
          exact ⟨ih.1, by omega⟩

theorem reads_nil (s : List Char) : Reads { script := s } [] :=
  ⟨rfl, iff_of_false nofun fun ⟨_, h, _⟩ => absurd h List.not_mem_nil, fun _ => rfl⟩

/-- What is run, of the words as they are read. -/
theorem runLoop_quiet : ∀ (turns : ℕ) (r : Runner), r.exitStatus = 0 → r.bi < scriptOutlen - 1 →
    r.rc = 0 → r.script.length ≤ turns →
    runLoop quiet turns r = feed [] (scan .start (items {} r.script))
  | 0, r, _, _, _, hturns => by
      rw [List.length_eq_zero_iff.mp (Nat.le_zero.mp hturns)]
      exact (commandOf_nil 0).symm
  | turns + 1, r, hexit, hbi, hrc, hturns => by
      by_cases hs : r.script = []
      · rw [runLoop, if_neg (fun hc => hc.1 hs), hs]
        exact (commandOf_nil 0).symm
      · have hdelim : '\x00' ≠ '\n' := by decide
        have hroom : 0 < scriptArgmax := by decide
        obtain ⟨hfeed, hlen⟩ := feed_argLoop (reads_nil r.script) hdelim (Nat.zero_add _) hroom
        have hshort : (argLoop scriptArgmax { script := r.script }).script.length ≤ turns :=
          Nat.le_trans hlen (Nat.sub_le_of_le_add hturns)
        rw [runLoop, if_pos ⟨hs, hexit, hbi, hrc⟩]
        refine Eq.trans ?_ hfeed.symm
        dsimp only
        unfold argsCommand
        cases hcommand : (argLoop scriptArgmax { script := r.script }).command with
        | none =>
          exact runLoop_quiet turns
            { r with script := (argLoop scriptArgmax { script := r.script }).script } hexit hbi hrc
            hshort
        | some argv =>
          have hafter : min (r.bi + 0) (scriptOutlen - 1) < scriptOutlen - 1 := by omega
          exact congrArg (List.cons _) (runLoop_quiet turns
            (r.after {} (argLoop scriptArgmax { script := r.script }).script) rfl hafter rfl hshort)

theorem scriptRunner_quiet (script : List Char) :
    scriptRunner quiet script = feed [] (scan .start (items {} script)) :=
  runLoop_quiet script.length { script := script } rfl (Nat.zero_lt_sub_of_lt (by decide)) rfl
    (Nat.le_refl _)

end Ucentral.Plat.ScriptLines
