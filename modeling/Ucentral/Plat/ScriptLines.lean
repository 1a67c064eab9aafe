import Ucentral.Plat.ScriptScan
import Mathlib.Data.List.DropRight

/-! The lines of a script, and the commands that are run for them.

    Where a script is cut into lines only depends on quotes and backslashes. `script_runner` does not
    look for lines: a command ends behind a word that a newline ends, or when `arg` is full, and the
    newline that follows a blank is skipped like another blank. So lines with a blank at their end
    run on into the next one, and a line that is too long is cut:

        ping a ␣ \n  ping b \n        one command of four words
        x1 … x32 ping \n              the last word is a command

    `Fits` says when the commands are those of the lines all the same. -/

namespace Ucentral.Plat.ScriptLines
open ScriptWords

/-! ### Lines -/

/-- A line, and what follows it: its newline and the rest of the script, or nothing. -/
structure Line where
  items : List Item
  rest : List Item

def Line.cons (i : Item) (l : Line) : Line := { l with items := i :: l.items }

def cut : List Item → List Line
  | [] => [⟨[], []⟩]
  | .eol :: is => ⟨[], .eol :: is⟩ :: cut is
  | .part out :: is => (cut is).modifyHead (Line.cons (.part out))
  | .blank :: is => (cut is).modifyHead (Line.cons .blank)

/-- The words between blanks; the first one may have begun. -/
def wordsFrom : Option (List Char) → List Item → List (List Char)
  | none, [] => []
  | some w, [] => [w]
  | none, .part out :: is => wordsFrom (some out) is
  | some w, .part out :: is => wordsFrom (some (w ++ out)) is
  | none, _ :: is => wordsFrom none is
  | some w, _ :: is => w :: wordsFrom none is

def Line.words (l : Line) : List (List Char) := wordsFrom none l.items

def blanksAtEnd (is : List Item) : List Item := is.rtakeWhile (· == .blank)

/-- What follows the last word of a line. -/
def Line.after (l : Line) : List Item := blanksAtEnd l.items ++ l.rest

/-- How much of the script is left behind the last word and the character that ends it. -/
def Line.left (l : Line) : ℕ := l.after.length - 1

/-- The lines that are not empty. -/
def lines (is : List Item) : List Line := (cut is).filter fun l => l.words ≠ []

def commandsOf (ls : List Line) : List Cmd := ls.flatMap fun l => commandOf l.words l.left

/-- The commands that a script says, line by line. -/
def lineCommands (script : List Char) : List Cmd := commandsOf (lines (items {} script))

/-! ### Where the commands are those of the lines -/

/-- Another character follows the blank behind the last word of the line, which is not the newline. -/
def Line.runsOn (l : Line) : Prop := l.after.head? = some .blank ∧ 2 ≤ l.after.length

instance (l : Line) : Decidable l.runsOn := inferInstanceAs (Decidable (_ ∧ _))

/-- What is left of words when as many as fit into `arg` are taken off, again and again. -/
def lastGroup (words : List (List Char)) : List (List Char) :=
  words.drop (scriptArgmax * (words.length / scriptArgmax))

/-- The words of the lines so far that run on are `before`. No line that runs on is a command; one that
    does not begins a group of its own and has room in it, or neither it nor what is left of the words
    of these lines and its own is a command. -/
def Fits : List (List Char) → List Line → Prop
  | before, [] => ¬ Runnable (lastGroup (before ++ [[]]))
  | before, l :: ls =>
    if l.runsOn then ¬ Runnable l.words ∧ Fits (before ++ l.words) ls
    else
      (scriptArgmax ∣ before.length ∧ l.words.length < scriptArgmax ∨
        ¬ Runnable l.words ∧ ¬ Runnable (lastGroup (before ++ l.words))) ∧ Fits [] ls

/-! ### Groups of words -/

theorem lastGroup_of_lt {words : List (List Char)} (h : words.length < scriptArgmax) :
    lastGroup words = words := by
  rw [lastGroup, Nat.div_eq_of_lt h, Nat.mul_zero, List.drop_zero]

theorem lastGroup_append {xs : List (List Char)} (h : scriptArgmax ∣ xs.length)
    (ys : List (List Char)) : lastGroup (xs ++ ys) = lastGroup ys := by
  obtain ⟨k, hk⟩ := h
  rw [lastGroup, lastGroup, List.length_append, hk, Nat.mul_add_div (by decide), Nat.mul_add, ← hk,
    List.drop_append, Nat.add_sub_cancel_left, List.drop_of_length_le (Nat.le_add_right ..),
    List.nil_append]

theorem lastGroup_lastGroup (xs ys : List (List Char)) :
    lastGroup (lastGroup xs ++ ys) = lastGroup (xs ++ ys) := by
  have hxs : xs.take (scriptArgmax * (xs.length / scriptArgmax)) ++ lastGroup xs = xs :=
    List.take_append_drop ..
  have hdvd : scriptArgmax ∣ (xs.take (scriptArgmax * (xs.length / scriptArgmax))).length := by
    rw [List.length_take, Nat.min_eq_left (Nat.mul_div_le ..)]
    exact Nat.dvd_mul_right ..
  conv_rhs => rw [← hxs, List.append_assoc, lastGroup_append hdvd]

theorem length_lastGroup (words : List (List Char)) :
    (lastGroup words).length = words.length % scriptArgmax := by
  rw [lastGroup, List.length_drop, Nat.mod_eq_sub_mul_div]

theorem length_lastGroup_lt (words : List (List Char)) : (lastGroup words).length < scriptArgmax := by
  rw [length_lastGroup]
  exact Nat.mod_lt _ (by decide)

theorem lastGroup_eq_iff {xs ys : List (List Char)} :
    lastGroup (xs ++ ys) = ys ↔ scriptArgmax ∣ xs.length ∧ ys.length < scriptArgmax := by
  constructor
  · intro h
    have hlen := congrArg List.length h
    rw [length_lastGroup, List.length_append] at hlen
    have hlt : (xs.length + ys.length) % scriptArgmax < scriptArgmax := Nat.mod_lt _ (by decide)
    rw [hlen] at hlt
    refine ⟨?_, hlt⟩
    unfold scriptArgmax at *
    omega
  · rintro ⟨hdvd, hlt⟩
    rw [lastGroup_append hdvd, lastGroup_of_lt hlt]

/-! ### A line as it is read -/

def Pos.word? : Pos → Option (List Char)
  | .word w => some w
  | _ => none

def Pos.move : Pos → Item → Pos
  | .word w, .part out => .word (w ++ out)
  | _, .part out => .word out
  | .word _, _ => .start
  | _, _ => .skip

/-- The words that are complete are read, and no newline ends them. -/
theorem scan_line (k : List Item) : ∀ (is : List Item) (pos : Pos), .eol ∉ is →
    ∃ ts : List Token, (∀ t ∈ ts, t.ends = false) ∧
      scan pos (is ++ k) = ts ++ scan (is.foldl Pos.move pos) k ∧
      wordsFrom pos.word? is = ts.map Token.text ++ (is.foldl Pos.move pos).word?.toList
  | [], pos, _ => ⟨[], List.forall_mem_nil _, rfl, by cases pos <;> rfl⟩
  | i :: is, pos, heol => by
      rw [List.mem_cons, not_or] at heol
      obtain ⟨ts, hends, hscan, hwords⟩ := scan_line k is (pos.move i) heol.2
      cases i with
      | eol => exact absurd rfl heol.1
      | part out => cases pos <;> exact ⟨ts, hends, hscan, hwords⟩
      | blank =>
        cases pos with
        | start => exact ⟨ts, hends, hscan, hwords⟩
        | skip => exact ⟨ts, hends, hscan, hwords⟩
        | word w =>
          refine ⟨⟨w, false, (is ++ k).length⟩ :: ts, ?_, congrArg (_ :: ·) hscan,
            congrArg (w :: ·) hwords⟩
          exact List.forall_mem_cons.mpr ⟨rfl, hends⟩

/-- Words that no newline ends make no command but with those that follow. -/
theorem feed_append (more : List Token) : ∀ (ts : List Token) {acc : List (List Char)},
    (∀ t ∈ ts, t.ends = false) → acc.length < scriptArgmax →
    feed acc (ts ++ more) = feed (lastGroup (acc ++ ts.map Token.text)) more
  | [], acc, _, hacc => by rw [List.nil_append, List.map_nil, List.append_nil, lastGroup_of_lt hacc]
  | t :: ts, acc, hends, hacc => by
      rw [List.forall_mem_cons] at hends
      have hmap : acc ++ (t :: ts).map Token.text = acc ++ [t.text] ++ ts.map Token.text := by simp
      rw [List.cons_append, feed, hends.1, hmap]
      by_cases hfull : acc.length + 1 = scriptArgmax
      · have hlen : (acc ++ [t.text]).length = scriptArgmax := by
          rw [List.length_append, List.length_singleton, hfull]
        have hempty : ([] : List (List Char)).length < scriptArgmax := by decide
        rw [if_pos (Or.inr hfull), commandOf, if_neg (not_runnable_of_full hlen), List.nil_append,
          lastGroup_append ⟨1, by rw [hlen, Nat.mul_one]⟩, feed_append more ts hends.2 hempty,
          List.nil_append]
      · have hgo : ¬ (false = true ∨ acc.length + 1 = scriptArgmax) := by
          rintro (h | h)
          · cases h
          · exact hfull h
        rw [if_neg hgo]
        refine feed_append more ts hends.2 ?_
        rw [List.length_append, List.length_singleton]
        omega

/-- A newline ends the command. -/
theorem feed_ends {acc : List (List Char)} (hacc : acc.length < scriptArgmax) (w : List Char)
    (left : ℕ) (more : List Token) : feed acc (⟨w, true, left⟩ :: more) =
      commandOf (lastGroup (acc ++ [w])) left ++ feed [] more := by
  rw [feed, if_pos (Or.inl rfl)]
  by_cases hfull : (acc ++ [w]).length = scriptArgmax
  · have hnil : lastGroup (acc ++ [w]) = [] := by
      have h := lastGroup_append ⟨1, by rw [hfull, Nat.mul_one]⟩ []
      rwa [List.append_nil] at h
    rw [hnil, commandOf_nil, commandOf, if_neg (not_runnable_of_full hfull)]
  · rw [lastGroup_of_lt]
    rw [List.length_append, List.length_singleton] at hfull ⊢
    omega

theorem wordsFrom_some_ne_nil : ∀ (is : List Item) (w : List Char), wordsFrom (some w) is ≠ []
  | [], _ => List.cons_ne_nil _ _
  | .part out :: is, w => wordsFrom_some_ne_nil is (w ++ out)
  | .blank :: _, _ => List.cons_ne_nil _ _
  | .eol :: _, _ => List.cons_ne_nil _ _

theorem wordsFrom_none_ne_nil : ∀ {is : List Item}, wordsFrom none is ≠ [] → ∃ out, .part out ∈ is
  | [], h => absurd rfl h
  | .part out :: _, _ => ⟨out, List.mem_cons_self⟩
  | .blank :: is, h =>
    (wordsFrom_none_ne_nil (show wordsFrom none is ≠ [] from h)).imp fun _ => List.mem_cons_of_mem _
  | .eol :: is, h =>
    (wordsFrom_none_ne_nil (show wordsFrom none is ≠ [] from h)).imp fun _ => List.mem_cons_of_mem _

theorem blanksAtEnd_eq_replicate (is : List Item) :
    blanksAtEnd is = List.replicate (blanksAtEnd is).length .blank := by
  refine List.eq_replicate_of_mem fun i hi => ?_
  have hblank := List.mem_rtakeWhile_imp hi
  exact beq_iff_eq.mp hblank

/-- Where the reader is at the end of a line with a word depends on how many blanks are there. -/
inductive EndsAt : ℕ → Pos → Prop
  | word (w : List Char) : EndsAt 0 (.word w)
  | start : EndsAt 1 .start
  | skip (n : ℕ) : EndsAt (n + 2) .skip

theorem EndsAt.blank {n : ℕ} {pos : Pos} (h : EndsAt n pos) : EndsAt (n + 1) (pos.move .blank) := by
  cases h with
  | word w => exact EndsAt.start
  | start => exact EndsAt.skip 0
  | skip n => exact EndsAt.skip (n + 1)

theorem endsAt_line (pos : Pos) (is : List Item) : .eol ∉ is → (∃ out, .part out ∈ is) →
    EndsAt (blanksAtEnd is).length (is.foldl Pos.move pos) := by
  induction is using List.reverseRecOn with
  | nil => rintro - ⟨out, h⟩; cases h
  | append_singleton is i ih =>
    intro heol hpart
    rw [List.mem_append, not_or] at heol
    rw [List.foldl_append]
    unfold blanksAtEnd at ih ⊢
    cases i with
    | eol => exact absurd (List.mem_singleton_self _) heol.2
    | part out =>
      rw [List.rtakeWhile_concat_neg _ _ _ Bool.false_ne_true]
      cases is.foldl Pos.move pos <;> exact EndsAt.word _
    | blank =>
      obtain ⟨out, hout⟩ := hpart
      have hin : .part out ∈ is := by simpa using hout
      rw [List.rtakeWhile_concat_pos _ _ _ (by decide), List.length_append]
      exact (ih heol.1 ⟨out, hin⟩).blank

/-- A line ends with the script, or with a newline. -/
def Line.Closed (l : Line) : Prop := .eol ∉ l.items ∧ (l.rest = [] ∨ ∃ is, l.rest = .eol :: is)

theorem Line.after_eq (l : Line) :
    l.after = List.replicate (blanksAtEnd l.items).length .blank ++ l.rest :=
  congrArg (· ++ l.rest) (blanksAtEnd_eq_replicate l.items)

/-- A line runs on with two blanks at its end, or with one before a newline. -/
theorem Line.Closed.runsOn_iff {l : Line} (hl : l.Closed) : l.runsOn ↔
    2 ≤ (blanksAtEnd l.items).length ∨ (blanksAtEnd l.items).length = 1 ∧ l.rest ≠ [] := by
  unfold Line.runsOn
  rw [l.after_eq]
  rcases (blanksAtEnd l.items).length with - | - | n
  · refine iff_of_false ?_ (by omega)
    rw [List.replicate_zero, List.nil_append]
    rintro ⟨hhead, -⟩
    rcases hl.2 with hrest | ⟨is, hrest⟩
    · rw [hrest] at hhead
      cases hhead
    · rw [hrest] at hhead
      cases hhead
  · rcases hl.2 with hrest | ⟨is, hrest⟩
    · rw [hrest]
      exact iff_of_false (fun h => absurd h.2 (by simp)) (by simp)
    · rw [hrest]
      exact iff_of_true ⟨rfl, by simp⟩ (by simp)
  · refine iff_of_true ⟨rfl, ?_⟩ (Or.inl (by omega))
    rw [List.length_append, List.length_replicate]
    omega

/-- A word at the end of a line ends the command. -/
theorem feed_word (words : List (List Char)) (w : List Char) {rest : List Item}
    (hrest : rest = [] ∨ ∃ is, rest = .eol :: is) :
    feed (lastGroup words) (scan (.word w) rest) =
      commandOf (lastGroup (words ++ [w])) (rest.length - 1) ++ feed [] (scan .start rest.tail) := by
  have hlt := length_lastGroup_lt words
  rw [← lastGroup_lastGroup]
  rcases hrest with rfl | ⟨is, rfl⟩
  · have hlast := feed_append [] [⟨w, false, 0⟩] (by simp) hlt
    rw [List.append_nil] at hlast
    exact hlast.trans (List.append_nil _).symm
  · exact feed_ends hlt w is.length (scan .start is)

/-- How a line with a word is read, after lines that run on. -/
theorem feed_line {l : Line} (hl : l.Closed) (hwords : l.words ≠ []) {pos : Pos}
    (hpos : pos.Outside) (before : List (List Char)) :
    feed (lastGroup before) (scan pos (l.items ++ l.rest)) =
      if l.runsOn then feed (lastGroup (before ++ l.words)) (scan .skip l.rest.tail)
      else commandOf (lastGroup (before ++ l.words)) l.left ++ feed [] (scan .start l.rest.tail) := by
  obtain ⟨ts, hends, hscan, htexts⟩ := scan_line l.rest l.items pos hl.1
  have hnone : pos.word? = none := by
    cases pos with
    | start => rfl
    | skip => rfl
    | word w => exact hpos.elim
  have hend := endsAt_line pos l.items hl.1 (wordsFrom_none_ne_nil hwords)
  rw [hnone] at htexts
  have hruns := hl.runsOn_iff
  have hafter := l.after_eq
  rw [hscan, feed_append _ ts hends (length_lastGroup_lt before), lastGroup_lastGroup, Line.words,
    htexts]
  generalize (blanksAtEnd l.items).length = n at hend hruns hafter
  generalize l.items.foldl Pos.move pos = pos' at hend
  cases hend with
  | word w =>
    rw [if_neg (hruns.not.mpr (by omega)), Line.left, hafter, List.replicate_zero, List.nil_append]
    change _ = commandOf (lastGroup (before ++ (ts.map Token.text ++ [w]))) _ ++ _
    rw [← List.append_assoc]
    exact feed_word _ w hl.2
  | start =>
    change _ = if l.runsOn then feed (lastGroup (before ++ (ts.map Token.text ++ []))) _ else
      commandOf (lastGroup (before ++ (ts.map Token.text ++ []))) _ ++ _
    rw [List.append_nil]
    rcases hl.2 with hrest | ⟨is, hrest⟩
    · rw [if_neg (hruns.not.mpr (by simp [hrest])), Line.left, hafter, hrest]
      exact (List.append_nil _).symm
    · rw [if_pos (hruns.mpr (by simp [hrest])), hrest]
      rfl
  | skip n =>
    change _ = if l.runsOn then feed (lastGroup (before ++ (ts.map Token.text ++ []))) _ else
      commandOf (lastGroup (before ++ (ts.map Token.text ++ []))) _ ++ _
    rw [List.append_nil, if_pos (hruns.mpr (by omega))]
    rcases hl.2 with hrest | ⟨is, hrest⟩
    · rw [hrest]
      rfl
    · rw [hrest]
      rfl

/-! ### Lines one after another -/

theorem cut_append {xs : List Item} (h : .eol ∉ xs) (is : List Item) :
    cut (xs ++ .eol :: is) = ⟨xs, .eol :: is⟩ :: cut is := by
  induction xs with
  | nil => rfl
  | cons i xs ih =>
    rw [List.mem_cons, not_or] at h
    cases i with
    | eol => exact absurd rfl h.1
    | part out => rw [List.cons_append, cut, ih h.2]; rfl
    | blank => rw [List.cons_append, cut, ih h.2]; rfl

theorem cut_last {xs : List Item} (h : .eol ∉ xs) : cut xs = [⟨xs, []⟩] := by
  induction xs with
  | nil => rfl
  | cons i xs ih =>
    rw [List.mem_cons, not_or] at h
    cases i with
    | eol => exact absurd rfl h.1
    | part out => rw [cut, ih h.2]; rfl
    | blank => rw [cut, ih h.2]; rfl

/-- The first line, and those after it. -/
theorem lines_eq (is : List Item) : ∃ l : Line, l.Closed ∧ is = l.items ++ l.rest ∧
    lines is = if l.words = [] then lines l.rest.tail else l :: lines l.rest.tail := by
  by_cases h : .eol ∈ is
  · obtain ⟨xs, ys, rfl, hxs⟩ := List.eq_append_cons_of_mem h
    refine ⟨⟨xs, .eol :: ys⟩, ⟨hxs, Or.inr ⟨ys, rfl⟩⟩, rfl, ?_⟩
    rw [lines, cut_append hxs, List.filter_cons]
    by_cases hwords : Line.words ⟨xs, .eol :: ys⟩ = []
    · rw [if_pos hwords, if_neg (by simpa using hwords)]
      rfl
    · rw [if_neg hwords, if_pos (by simpa using hwords)]
      rfl
  · refine ⟨⟨is, []⟩, ⟨h, Or.inl rfl⟩, (List.append_nil is).symm, ?_⟩
    rw [lines, cut_last h, List.filter_cons]
    by_cases hwords : Line.words ⟨is, []⟩ = []
    · rw [if_pos hwords, if_neg (by simpa using hwords)]
      rfl
    · rw [if_neg hwords, if_pos (by simpa using hwords)]
      rfl

theorem lines_nil : lines [] = [] := rfl

/-- Before a word blanks and newlines are skipped. -/
theorem scan_no_words {l : Line} (hl : l.Closed) (hwords : l.words = []) {pos : Pos}
    (hpos : pos.Outside) (hne : l.items ++ l.rest ≠ []) :
    scan pos (l.items ++ l.rest) = scan .skip l.rest.tail := by
  obtain ⟨xs, ys⟩ := l
  obtain ⟨heol, hrest⟩ := hl
  have hskip : ∀ xs : List Item, .eol ∉ xs → wordsFrom none xs = [] →
      scan .skip (xs ++ ys) = scan .skip ys.tail := by
    intro xs
    induction xs with
    | nil => rintro - -; rcases hrest with rfl | ⟨is, rfl⟩ <;> rfl
    | cons i xs ih =>
      intro heol hwords
      rw [List.mem_cons, not_or] at heol
      cases i with
      | eol => exact absurd rfl heol.1
      | part out => exact absurd hwords (wordsFrom_some_ne_nil xs out)
      | blank => exact ih heol.2 hwords
  cases pos with
  | word w => exact hpos.elim
  | skip => exact hskip xs heol hwords
  | start =>
    cases xs with
    | nil =>
      rcases hrest with rfl | ⟨is, rfl⟩
      · exact absurd rfl hne
      · rfl
    | cons i xs =>
      rw [List.mem_cons, not_or] at heol
      cases i with
      | eol => exact absurd rfl heol.1
      | part out => exact absurd hwords (wordsFrom_some_ne_nil xs out)
      | blank => exact hskip xs heol.2 hwords

/-! ### Where commands stand in the script -/

theorem left_lines : ∀ (n : ℕ) {is : List Item}, is.length ≤ n → ∀ l ∈ lines is, l.left < is.length
  | 0, is, hn, l, hl => by
      rw [List.length_eq_zero_iff.mp (Nat.le_zero.mp hn), lines_nil] at hl
      cases hl
  | n + 1, is, hn, l, hl => by
      obtain ⟨l₀, -, hsplit, hlines⟩ := lines_eq is
      have hlen : is.length = l₀.items.length + l₀.rest.length := by
        rw [hsplit, List.length_append]
      have htail : l₀.rest.tail.length = l₀.rest.length - 1 := List.length_tail
      by_cases his : is = []
      · rw [his, lines_nil] at hl
        cases hl
      · have hpos : 0 < is.length := List.length_pos_of_ne_nil his
        have hrest : l ∈ lines l₀.rest.tail → l.left < is.length := fun h => by
          have hle : l₀.rest.tail.length ≤ n := by omega
          have hleft := left_lines n hle l h
          omega
        rw [hlines] at hl
        split at hl
        · exact hrest hl
        · rcases List.mem_cons.mp hl with rfl | hl
          · have hblanks : (blanksAtEnd l.items).length ≤ l.items.length :=
              (List.rtakeWhile_suffix _ _).length_le
            rw [Line.left, Line.after, List.length_append]
            omega
          · exact hrest hl

theorem left_scan : ∀ (is : List Item) (pos : Pos), ∀ t ∈ scan pos is, t.left ≤ is.length - 1
  | [], pos, t, ht => by
      cases pos with
      | start => cases ht
      | skip => rw [List.mem_singleton.mp ht]; exact Nat.le_refl 0
      | word w => rw [List.mem_singleton.mp ht]; exact Nat.le_refl 0
  | i :: is, pos, t, ht => by
      have hrest : ∀ pos', t ∈ scan pos' is → t.left ≤ (i :: is).length - 1 := fun pos' h =>
        (left_scan is pos' t h).trans (Nat.sub_le_sub_right (Nat.le_succ _) 1)
      cases i with
      | part out => cases pos <;> exact hrest _ ht
      | blank =>
        cases pos with
        | start => exact hrest _ ht
        | skip => exact hrest _ ht
        | word w =>
          rcases List.mem_cons.mp ht with rfl | ht
          · exact Nat.le_refl _
          · exact hrest _ ht
      | eol =>
        cases pos with
        | start => exact hrest _ ht
        | skip => exact hrest _ ht
        | word w =>
          rcases List.mem_cons.mp ht with rfl | ht
          · exact Nat.le_refl _
          · exact hrest _ ht

theorem mem_commandOf {words : List (List Char)} {left : ℕ} {c : Cmd}
    (h : c ∈ commandOf words left) : c.left = left := by
  unfold commandOf at h
  split at h
  · rw [List.mem_singleton.mp h]
  · cases h

theorem left_feed {n : ℕ} : ∀ (ts : List Token) (acc : List (List Char)),
    (∀ t ∈ ts, t.left ≤ n) → ∀ c ∈ feed acc ts, c.left ≤ n
  | [], acc, _, c, hc => by rw [mem_commandOf hc]; exact Nat.zero_le n
  | t :: ts, acc, hts, c, hc => by
      rw [List.forall_mem_cons] at hts
      rw [feed] at hc
      split at hc
      · rcases List.mem_append.mp hc with hc | hc
        · rw [mem_commandOf hc]; exact hts.1
        · exact left_feed ts [] hts.2 c hc
      · exact left_feed ts _ hts.2 c hc

/-! ### The commands and the lines -/

theorem commandOf_eq_nil {words : List (List Char)} {left : ℕ} :
    commandOf words left = [] ↔ ¬ Runnable words := by
  unfold commandOf
  split
  · next h => exact iff_of_false (List.cons_ne_nil _ _) (not_not_intro h)
  · next h => exact iff_of_true rfl h

theorem commandOf_inj {xs ys : List (List Char)} {left : ℕ} :
    commandOf xs left = commandOf ys left ↔ xs = ys ∨ ¬ Runnable ys ∧ ¬ Runnable xs := by
  by_cases hy : Runnable ys
  · rw [commandOf, commandOf, if_pos hy]
    split
    · simp [hy]
    · next hx =>
      refine iff_of_false nofun ?_
      rintro (rfl | h)
      · exact hx hy
      · exact h.1 hy
  · rw [commandOf_eq_nil.mpr hy, commandOf_eq_nil]
    refine ⟨fun hx => Or.inr ⟨hy, hx⟩, ?_⟩
    rintro (rfl | h)
    · exact hy
    · exact h.2

/-- Commands at one place, and before others that stand behind it. -/
theorem append_eq_append_iff_of_left {xs ys as bs : List Cmd} {p : ℕ}
    (hxs : ∀ c ∈ xs, c.left = p) (hys : ∀ c ∈ ys, c.left = p) (has : ∀ c ∈ as, c.left < p)
    (hbs : ∀ c ∈ bs, c.left < p) : xs ++ as = ys ++ bs ↔ xs = ys ∧ as = bs := by
  have hself : ∀ {zs : List Cmd}, (∀ c ∈ zs, c.left = p) → zs.filter (p ≤ ·.left) = zs :=
    fun h => List.filter_eq_self.mpr fun c hc => by simp [h c hc]
  have hnone : ∀ {zs : List Cmd}, (∀ c ∈ zs, c.left < p) → zs.filter (p ≤ ·.left) = [] :=
    fun h => List.filter_eq_nil_iff.mpr fun c hc => by simpa using h c hc
  constructor
  · intro h
    have hfilter := congrArg (List.filter (p ≤ ·.left)) h
    rw [List.filter_append, List.filter_append, hself hxs, hself hys, hnone has, hnone hbs,
      List.append_nil, List.append_nil] at hfilter
    rw [hfilter] at h
    exact ⟨hfilter, List.append_cancel_left h⟩
  · rintro ⟨rfl, rfl⟩
    rfl

theorem left_commandsOf {n : ℕ} {is : List Item} (hn : is.length ≤ n) :
    ∀ c ∈ commandsOf (lines is), c.left < is.length := by
  intro c hc
  obtain ⟨l, hl, hc⟩ := List.mem_flatMap.mp hc
  rw [mem_commandOf hc]
  exact left_lines n hn l hl

theorem left_feed_scan {is : List Item} (his : is ≠ []) (acc : List (List Char)) (pos : Pos) :
    ∀ c ∈ feed acc (scan pos is), c.left < is.length := by
  intro c hc
  have hle := left_feed _ acc (left_scan is pos) c hc
  have hpos := List.length_pos_of_ne_nil his
  omega

/-- The end of the script. -/
theorem feed_end_iff {before : List (List Char)} {pos : Pos} (hpos : pos.Outside)
    (hskip : before ≠ [] → pos = .skip) :
    feed (lastGroup before) (scan pos []) = [] ↔ ¬ Runnable (lastGroup (before ++ [[]])) := by
  cases pos with
  | word w => exact hpos.elim
  | start =>
    by_cases hbefore : before = []
    · rw [hbefore]
      exact iff_of_true (commandOf_nil 0) (by decide)
    · cases hskip hbefore
  | skip =>
    have hacc : (lastGroup before).length < scriptArgmax := by
      rw [length_lastGroup]
      exact Nat.mod_lt _ (by decide)
    have hfeed := feed_append [] [⟨[], false, 0⟩] (by simp) hacc
    rw [lastGroup_lastGroup, List.append_nil] at hfeed
    exact hfeed ▸ commandOf_eq_nil

theorem tail_le_left (l : Line) : l.rest.tail.length ≤ l.left := by
  rw [Line.left, Line.after, List.length_append, List.length_tail]
  omega

/-- A line that runs on ends before its newline. -/
theorem tail_lt_left {l : Line} (hl : l.Closed) (h : l.runsOn) : l.rest.tail.length < l.left := by
  obtain ⟨hhead, hlen⟩ := h
  have hafter : l.after.length = (blanksAtEnd l.items).length + l.rest.length := List.length_append
  rw [Line.left, List.length_tail]
  rcases hl.2 with hrest | ⟨is, hrest⟩
  · rw [hrest, List.length_nil]
    omega
  · have hblanks : (blanksAtEnd l.items).length ≠ 0 := by
      intro h0
      rw [Line.after, List.length_eq_zero_iff.mp h0, hrest] at hhead
      cases hhead
    rw [hrest, List.length_cons] at hafter ⊢
    omega

/-- After lines that run on, what is run are the commands of the lines exactly if they fit. -/
theorem feed_eq_iff : ∀ (n : ℕ) {is : List Item} {before : List (List Char)} {pos : Pos},
    is.length ≤ n → pos.Outside → (before ≠ [] → pos = .skip) →
    (feed (lastGroup before) (scan pos is) = commandsOf (lines is) ↔ Fits before (lines is))
  | 0, is, before, pos, hn, hpos, hskip => by
      rw [List.length_eq_zero_iff.mp (Nat.le_zero.mp hn), lines_nil, Fits]
      exact feed_end_iff hpos hskip
  | n + 1, is, before, pos, hn, hpos, hskip => by
      by_cases his : is = []
      · rw [his, lines_nil, Fits]
        exact feed_end_iff hpos hskip
      obtain ⟨l, hclosed, hsplit, hlines⟩ := lines_eq is
      have hlen : is.length = l.items.length + l.rest.length := by rw [hsplit, List.length_append]
      have hposlen : 0 < is.length := List.length_pos_of_ne_nil his
      have htail : l.rest.tail.length = l.rest.length - 1 := List.length_tail
      have hle : l.rest.tail.length ≤ n := by omega
      by_cases hwords : l.words = []
      · rw [hlines, if_pos hwords, hsplit, scan_no_words hclosed hwords hpos (hsplit ▸ his)]
        exact feed_eq_iff n hle trivial fun _ => rfl
      have hcommands : commandsOf (l :: lines l.rest.tail) =
          commandOf l.words l.left ++ commandsOf (lines l.rest.tail) := List.flatMap_cons
      have hline : ∀ (words : List (List Char)), ∀ c ∈ commandOf words l.left, c.left = l.left :=
        fun _ _ => mem_commandOf
      have hlater : ∀ c ∈ commandsOf (lines l.rest.tail), c.left < l.left := fun c hc =>
        Nat.lt_of_lt_of_le (left_commandsOf hle c hc) (tail_le_left l)
      rw [hlines, if_neg hwords, hcommands, hsplit, feed_line hclosed hwords hpos, Fits]
      by_cases hrun : l.runsOn
      · -- a command of the line would stand before all that is read from here on
        have hread : ∀ c ∈ feed (lastGroup (before ++ l.words)) (scan .skip l.rest.tail),
            c.left < l.left := by
          intro c hc
          have hc := left_feed _ _ (left_scan _ _) c hc
          have hlt := tail_lt_left hclosed hrun
          omega
        have hiff := append_eq_append_iff_of_left (List.forall_mem_nil _) (hline l.words) hread
          hlater
        rw [if_pos hrun, if_pos hrun, ← List.nil_append (feed _ _), hiff, eq_comm (a := []),
          commandOf_eq_nil, feed_eq_iff n hle outside_skip fun _ => rfl]
      · have hread : ∀ c ∈ feed [] (scan .start l.rest.tail), c.left < l.left := by
          intro c hc
          by_cases htail : l.rest.tail = []
          · rw [htail] at hc
            exact absurd hc (by simp [scan, feed, commandOf_nil])
          · exact Nat.lt_of_lt_of_le (left_feed_scan htail _ _ c hc) (tail_le_left l)
        have hstart : feed [] (scan .start l.rest.tail) =
            feed (lastGroup []) (scan .start l.rest.tail) := rfl
        rw [if_neg hrun, if_neg hrun, append_eq_append_iff_of_left (hline _) (hline _) hread hlater,
          commandOf_inj, lastGroup_eq_iff, hstart,
          feed_eq_iff n hle outside_start fun h => absurd rfl h]

/-- If all children succeed and print nothing, what is run are the commands of the lines, each at the
    place of its line, exactly if the lines fit. -/
theorem scriptRunner_eq_lineCommands_iff (script : List Char) :
    (scriptRunner quiet script = lineCommands script ↔ Fits [] (lines (items {} script))) ∧
    (Fits [] (lines (items {} script)) →
      (scriptRunner quiet script).map Cmd.argv = (lineCommands script).map Cmd.argv) := by
  have h : scriptRunner quiet script = lineCommands script ↔ Fits [] (lines (items {} script)) := by
    have hbefore : ([] : List (List Char)) ≠ [] → Pos.start = .skip := fun h => absurd rfl h
    rw [scriptRunner_quiet]
    exact feed_eq_iff (items {} script).length (Nat.le_refl _) outside_start hbefore
  exact ⟨h, fun hfits => by rw [h.mpr hfits]⟩

/-- A blank before the newline puts two lines into one command. -/
theorem lines_run_on : ¬ ∀ script : List Char,
    (scriptRunner quiet script).map Cmd.argv = (lineCommands script).map Cmd.argv := fun h =>
  absurd (h "ping a \nping b\n".toList) (by decide)

end Ucentral.Plat.ScriptLines
