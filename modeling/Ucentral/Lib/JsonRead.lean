import Ucentral.Lib.JsonText
import Ucentral.Lib.Decimal
import Mathlib.Data.List.TakeWhile

/-! A reader of JSON texts that can be run.

    It goes down the grammar with as much fuel as the text is long. `read_sound` and `read_complete`
    say that it reads exactly the texts of the grammar, which makes it a `Reader`. -/

namespace CJson
namespace Lexis
variable (L : Lexis)

/-! ### Reading -/

def skip (cs : List Char) : List Char := cs.dropWhile L.space

/-- What stands up to the quote that closes a string. -/
def readRaw : List Char → Option (List Char × List Char)
  | [] => none
  | c :: cs =>
    if c = '"' then some ([], cs)
    else if c = '\\' then
      match cs with
      | [] => none
      | d :: ds => (readRaw ds).map fun p => ('\\' :: d :: p.1, p.2)
    else (readRaw cs).map fun p => (c :: p.1, p.2)

def readString (cs : List Char) : Option (String × List Char) :=
  (readRaw cs).bind fun p => (L.unescape p.1).map fun s => (s, p.2)

/-- The key of an item with its colon; an item of an array has none. -/
def readFront (keyed : Bool) (cs : List Char) : Option (String × List Char) :=
  if keyed then
    if (L.skip cs).head? = some '"' then
      (L.readString (L.skip cs).tail).bind fun p =>
        if (L.skip p.2).head? = some ':' then some (p.1, L.skip (L.skip p.2).tail) else none
    else none
  else some ("", L.skip cs)

mutual

def readValue : ℕ → List Char → Option (Json × List Char)
  | 0, _ => none
  | n + 1, cs =>
    if cs.head? = some '"' then (L.readString cs.tail).map fun p => (.str p.1, p.2)
    else if cs.head? = some '[' then
      (readItems n false true cs.tail).map fun p => (.arr (p.1.map (·.2)), p.2)
    else if cs.head? = some '{' then (readItems n true true cs.tail).map fun p => (.obj p.1, p.2)
    else (L.scalar (cs.takeWhile scalarChar)).map fun v => (v, cs.dropWhile scalarChar)

/-- The rest of a list of items; only at its beginning may it be closed at once. -/
def readItems : ℕ → Bool → Bool → List Char → Option (List (String × Json) × List Char)
  | 0, _, _, _ => none
  | n + 1, keyed, first, cs =>
    if first = true ∧ (L.skip cs).head? = some (closer keyed) then some ([], (L.skip cs).tail)
    else (L.readFront keyed cs).bind fun k => (readValue n k.2).bind fun v =>
      if (L.skip v.2).head? = some ',' then
        (readItems n keyed false (L.skip v.2).tail).map fun p => ((k.1, v.1) :: p.1, p.2)
      else if (L.skip v.2).head? = some (closer keyed) then
        some ([(k.1, v.1)], (L.skip v.2).tail)
      else none

end

/-- The value at the beginning of a text, after white space. -/
def read (t : List Char) : Option (Json × List Char) := L.readValue (t.length + 1) (L.skip t)

/-! ### What is read is a text -/

variable {L}

theorem skip_spec (cs : List Char) : ∃ sp, cs = sp ++ L.skip cs ∧ L.Blank sp :=
  ⟨cs.takeWhile L.space, (List.takeWhile_append_dropWhile ..).symm,
    fun _ hc => List.mem_takeWhile_imp hc⟩

theorem eq_cons_of_head {cs : List Char} {c : Char} (h : cs.head? = some c) :
    cs = c :: cs.tail := by
  cases cs with
  | nil => cases h
  | cons d cs =>
    obtain rfl : d = c := by simpa using h
    rfl

/-- After white space comes this character. -/
theorem skip_head {cs : List Char} {c : Char} (h : (L.skip cs).head? = some c) :
    ∃ sp, cs = sp ++ c :: (L.skip cs).tail ∧ L.Blank sp := by
  obtain ⟨sp, heq, hsp⟩ := skip_spec (L := L) cs
  refine ⟨sp, ?_, hsp⟩
  rw [← eq_cons_of_head h]
  exact heq

theorem readRaw_spec {cs raw rest : List Char} (h : readRaw cs = some (raw, rest)) :
    Raw raw ∧ cs = raw ++ '"' :: rest := by
  fun_induction readRaw cs generalizing raw rest with
  | case1 => cases h
  | case2 cs =>
    cases h
    exact ⟨.nil, rfl⟩
  | case3 hq => cases h
  | case4 hq d ds ih =>
    obtain ⟨⟨raw', rest'⟩, hp, hpair⟩ := Option.map_eq_some_iff.mp h
    cases hpair
    obtain ⟨hraw, rfl⟩ := ih hp
    exact ⟨.escape hraw, rfl⟩
  | case5 c cs hq he ih =>
    obtain ⟨⟨raw', rest'⟩, hp, hpair⟩ := Option.map_eq_some_iff.mp h
    cases hpair
    obtain ⟨hraw, rfl⟩ := ih hp
    exact ⟨.char hq he hraw, rfl⟩

theorem readString_spec {cs rest : List Char} {s : String}
    (h : L.readString cs = some (s, rest)) :
    ∃ raw, Raw raw ∧ L.unescape raw = some s ∧ cs = raw ++ '"' :: rest := by
  obtain ⟨⟨raw, rest'⟩, hraw, hs⟩ := Option.bind_eq_some_iff.mp h
  obtain ⟨s', hs', hpair⟩ := Option.map_eq_some_iff.mp hs
  cases hpair
  obtain ⟨hr, rfl⟩ := readRaw_spec hraw
  exact ⟨raw, hr, hs', rfl⟩

theorem readFront_spec {keyed : Bool} {cs rest : List Char} {key : String}
    (h : L.readFront keyed cs = some (key, rest)) :
    ∃ front, cs = front ++ rest ∧ L.Front keyed front key := by
  unfold readFront at h
  cases keyed with
  | false =>
    cases h
    obtain ⟨sp, heq, hsp⟩ := skip_spec (L := L) cs
    exact ⟨sp, heq, .item hsp⟩
  | true =>
    rw [if_pos rfl] at h
    split_ifs at h with hq
    obtain ⟨⟨s, cs₁⟩, hs, h⟩ := Option.bind_eq_some_iff.mp h
    split_ifs at h with hc
    cases h
    obtain ⟨sp, hcs, hsp⟩ := skip_head hq
    obtain ⟨raw, hraw, hkey, htl⟩ := readString_spec hs
    obtain ⟨sp₁, hcs₁, hsp₁⟩ := skip_head hc
    obtain ⟨sp₂, hcs₂, hsp₂⟩ := skip_spec (L := L) (L.skip cs₁).tail
    refine ⟨_, ?_, .key hsp hraw hkey hsp₁ hsp₂⟩
    rw [hcs, htl]
    simp only [List.append_assoc, List.cons_append, ← hcs₂]
    rw [← hcs₁]

/-- Whatever is read is a text of the grammar. -/
theorem read_sound (n : ℕ) :
    (∀ {cs v rest}, L.readValue n cs = some (v, rest) → ∃ w, cs = w ++ rest ∧ L.Text w (.val v)) ∧
    ∀ {keyed first cs l rest}, L.readItems n keyed first cs = some (l, rest) →
      ∃ w, cs = w ++ rest ∧ L.Text w (.items keyed l) ∧ (first = false → l ≠ []) := by
  induction n with
  | zero => exact ⟨by simp [readValue], by simp [readItems]⟩
  | succ n ih =>
    obtain ⟨ihv, ihi⟩ := ih
    constructor
    · intro cs v rest h
      unfold readValue at h
      split_ifs at h with hq ha ho
      · obtain ⟨⟨s, rest'⟩, hs, hpair⟩ := Option.map_eq_some_iff.mp h
        cases hpair
        obtain ⟨raw, hraw, hun, htl⟩ := readString_spec hs
        refine ⟨'"' :: (raw ++ ['"']), ?_, .str hraw hun⟩
        rw [eq_cons_of_head hq, htl]
        simp
      · obtain ⟨⟨l, rest'⟩, hl, hpair⟩ := Option.map_eq_some_iff.mp h
        cases hpair
        obtain ⟨w, htl, ht, _⟩ := ihi hl
        exact ⟨'[' :: w, by rw [eq_cons_of_head ha, htl]; rfl, .arr ht⟩
      · obtain ⟨⟨l, rest'⟩, hl, hpair⟩ := Option.map_eq_some_iff.mp h
        cases hpair
        obtain ⟨w, htl, ht, _⟩ := ihi hl
        exact ⟨'{' :: w, by rw [eq_cons_of_head ho, htl]; rfl, .obj ht⟩
      · obtain ⟨v', hv, hpair⟩ := Option.map_eq_some_iff.mp h
        cases hpair
        exact ⟨_, (List.takeWhile_append_dropWhile ..).symm, .scalar hv⟩
    · intro keyed first cs l rest h
      unfold readItems at h
      split_ifs at h with hfirst
      · cases h
        obtain ⟨sp, hcs, hsp⟩ := skip_head hfirst.2
        exact ⟨sp ++ [closer keyed], by simpa using hcs, .close hsp, by simp [hfirst.1]⟩
      · obtain ⟨⟨key, cs₁⟩, hk, hkey⟩ := Option.bind_eq_some_iff.mp h
        obtain ⟨⟨v, cs₂⟩, hv, hval⟩ := Option.bind_eq_some_iff.mp hkey
        obtain ⟨front, rfl, hfront⟩ := readFront_spec hk
        obtain ⟨w, hw, htext⟩ := ihv hv
        simp only at hw hval
        split_ifs at hval with hc hb
        · obtain ⟨⟨l', rest'⟩, hl, hpair⟩ := Option.map_eq_some_iff.mp hval
          cases hpair
          obtain ⟨w', htl, ht', hne⟩ := ihi hl
          obtain ⟨sp, hcs, hsp⟩ := skip_head hc
          refine ⟨_, ?_, .more hfront htext hsp ht' (hne rfl), by simp⟩
          rw [hw, hcs, htl]
          simp
        · cases hval
          obtain ⟨sp, hcs, hsp⟩ := skip_head hb
          refine ⟨_, ?_, .last hfront htext hsp, by simp⟩
          rw [hw]
          nth_rewrite 1 [hcs]
          simp

/-! ### What is a text is read -/

theorem ne_of_scalarChar {c d : Char} (hd : scalarChar d = false) (h : scalarChar c = true) :
    c ≠ d := by
  rintro rfl
  rw [hd] at h
  cases h

theorem scalarChar_gt {c : Char} (h : scalarChar c = true) : 32 < c.toNat := by
  simp only [scalarChar, Bool.or_eq_true, List.contains_iff_mem] at h
  rcases h with h | h
  · simp only [Char.isDigit, Bool.and_eq_true, decide_eq_true_eq] at h
    have h0 : '0'.val ≤ c.val := h.1
    have : '0'.toNat ≤ c.toNat := h0
    exact lt_of_lt_of_le (by decide) this
  · have hall : "+-.eEtrufalsn".toList.all (fun d => decide (32 < d.toNat)) = true := by decide
    exact of_decide_eq_true (List.all_eq_true.mp hall c h)

theorem skip_cons {sp cs : List Char} {c : Char} (hsp : L.Blank sp) (hc : 32 < c.toNat) :
    L.skip (sp ++ c :: cs) = c :: cs := by
  have hs : L.space c = false := by
    cases h : L.space c with
    | false => rfl
    | true => exact absurd (L.space_le h) (by omega)
  unfold skip
  rw [List.dropWhile_append_of_pos hsp, List.dropWhile_cons_of_neg (by simp [hs])]

/-- A value begins with a character that neither is white space nor closes an array. -/
theorem text_head {w : List Char} {v : Json} (h : L.Text w (.val v)) :
    ∃ c u, w = c :: u ∧ 32 < c.toNat ∧ c ≠ ']' := by
  cases h with
  | scalar h =>
    obtain ⟨hne, hall⟩ := L.scalar_chars h
    obtain ⟨c, u, rfl⟩ := List.exists_cons_of_ne_nil hne
    have hc := hall c (List.mem_cons_self ..)
    exact ⟨c, u, rfl, scalarChar_gt hc, ne_of_scalarChar (by decide) hc⟩
  | str _ _ => exact ⟨_, _, rfl, by decide, by decide⟩
  | arr _ => exact ⟨_, _, rfl, by decide, by decide⟩
  | obj _ => exact ⟨_, _, rfl, by decide, by decide⟩

theorem readRaw_complete {raw : List Char} (h : Raw raw) (rest : List Char) :
    readRaw (raw ++ '"' :: rest) = some (raw, rest) := by
  induction h with
  | nil =>
    unfold readRaw
    simp
  | char hq he _ ih =>
    unfold readRaw
    simp [hq, he, ih]
  | escape _ ih =>
    unfold readRaw
    simp [ih]

theorem readFront_complete {keyed : Bool} {front cs : List Char} {key : String} {c : Char}
    (h : L.Front keyed front key) (hc : 32 < c.toNat) :
    L.readFront keyed (front ++ c :: cs) = some (key, c :: cs) := by
  cases h with
  | item hsp => simp [readFront, skip_cons hsp hc]
  | @key sp raw _ sp₁ sp₂ hsp hraw hkey h₁ h₂ =>
    have hquote : L.skip (sp ++ '"' :: (raw ++ '"' :: (sp₁ ++ ':' :: (sp₂ ++ c :: cs)))) =
        '"' :: (raw ++ '"' :: (sp₁ ++ ':' :: (sp₂ ++ c :: cs))) := skip_cons hsp (by decide)
    have hcolon : L.skip (sp₁ ++ ':' :: (sp₂ ++ c :: cs)) = ':' :: (sp₂ ++ c :: cs) :=
      skip_cons h₁ (by decide)
    simp [readFront, hquote, readString, readRaw_complete hraw, hkey, hcolon, skip_cons h₂ hc]

/-- Behind a number or a literal comes none of their characters. -/
def Delimited (rest : List Char) : Prop := ∀ c ∈ rest.head?, scalarChar c = false

theorem delimited_blank {sp cs : List Char} {c : Char} (hsp : L.Blank sp)
    (hc : scalarChar c = false) : Delimited (sp ++ c :: cs) := by
  cases sp with
  | nil =>
    intro d hd
    obtain rfl : c = d := by simpa using hd
    exact hc
  | cons e sp =>
    intro d hd
    obtain rfl : e = d := by simpa using hd
    cases hs : scalarChar e with
    | false => rfl
    | true =>
      have hle := L.space_le (hsp e (List.mem_cons_self ..))
      have hgt := scalarChar_gt hs
      omega

theorem scalar_span {w rest : List Char} (hw : ∀ c ∈ w, scalarChar c = true)
    (hrest : Delimited rest) :
    (w ++ rest).takeWhile scalarChar = w ∧ (w ++ rest).dropWhile scalarChar = rest := by
  rw [List.takeWhile_append_of_pos hw, List.dropWhile_append_of_pos hw]
  cases rest with
  | nil => simp
  | cons c rest =>
    have hc := hrest c (by simp)
    simp [hc]

/-- With enough fuel the reader reads this from the beginning of a text. -/
def ReadAt (L : Lexis) (n : ℕ) (w : List Char) : Node → Prop
  | .val v => ∀ rest, Delimited rest → L.readValue n (w ++ rest) = some (v, rest)
  | .items keyed l => ∀ first rest, (l = [] → first = true) →
      L.readItems n keyed first (w ++ rest) = some (l, rest)

theorem closer_gt (keyed : Bool) : 32 < (closer keyed).toNat := by cases keyed <;> decide

/-- What begins an item does not close the list. -/
theorem front_not_closer {keyed : Bool} {front cs : List Char} {key : String} {c : Char}
    (h : L.Front keyed front key) (hc : 32 < c.toNat) (ha : c ≠ ']') :
    (L.skip (front ++ c :: cs)).head? ≠ some (closer keyed) := by
  cases h with
  | item hsp => simpa [skip_cons hsp hc, closer] using ha
  | @key sp raw _ sp₁ sp₂ hsp hraw hkey h₁ h₂ =>
    have hquote : L.skip (sp ++ '"' :: (raw ++ '"' :: (sp₁ ++ ':' :: (sp₂ ++ c :: cs)))) =
        '"' :: (raw ++ '"' :: (sp₁ ++ ':' :: (sp₂ ++ c :: cs))) := skip_cons hsp (by decide)
    simp [hquote, closer]

/-- One item is read, and then what comes behind it. -/
theorem readItems_item {n : ℕ} {keyed first : Bool} {front w tail : List Char} {key : String}
    {v : Json} (hf : L.Front keyed front key) (ht : L.Text w (.val v))
    (hv : L.readValue n (w ++ tail) = some (v, tail)) :
    L.readItems (n + 1) keyed first (front ++ (w ++ tail)) =
      if (L.skip tail).head? = some ',' then
        (L.readItems n keyed false (L.skip tail).tail).map fun p => ((key, v) :: p.1, p.2)
      else if (L.skip tail).head? = some (closer keyed) then some ([(key, v)], (L.skip tail).tail)
      else none := by
  obtain ⟨c, u, rfl, hc, ha⟩ := text_head ht
  have hnot : (L.skip (front ++ (c :: u ++ tail))).head? ≠ some (closer keyed) :=
    front_not_closer hf hc ha
  have hfront : L.readFront keyed (front ++ (c :: u ++ tail)) = some (key, c :: u ++ tail) :=
    readFront_complete hf hc
  rw [readItems, if_neg (by simp only [hnot, and_false, not_false_eq_true])]
  simp only [hfront, Option.bind_some, hv]

theorem read_complete {w : List Char} {node : Node} (h : L.Text w node) :
    ∀ n, w.length ≤ n → ReadAt L n w node := by
  induction h with
  | @scalar w v h =>
    intro n hn rest hrest
    obtain ⟨hne, hall⟩ := L.scalar_chars h
    obtain ⟨htake, hdrop⟩ := scalar_span hall hrest
    obtain ⟨c, u, rfl⟩ := List.exists_cons_of_ne_nil hne
    have hc := hall c (List.mem_cons_self ..)
    have hq : c ≠ '"' := ne_of_scalarChar (by decide) hc
    have ha : c ≠ '[' := ne_of_scalarChar (by decide) hc
    have ho : c ≠ '{' := ne_of_scalarChar (by decide) hc
    obtain ⟨m, rfl⟩ : ∃ m, n = m + 1 := ⟨n - 1, by simp at hn; omega⟩
    rw [readValue, htake, hdrop]
    simp [hq, ha, ho, h]
  | @str raw s hraw h =>
    intro n hn rest _
    obtain ⟨m, rfl⟩ : ∃ m, n = m + 1 := ⟨n - 1, by simp at hn; omega⟩
    rw [readValue]
    simp [readString, readRaw_complete hraw, h]
  | @arr w l _ ih =>
    intro n hn rest _
    obtain ⟨m, rfl⟩ : ∃ m, n = m + 1 := ⟨n - 1, by simp at hn; omega⟩
    have hread := ih m (by simpa using hn) true rest (fun _ => rfl)
    rw [readValue]
    simp [hread]
  | @obj w l _ ih =>
    intro n hn rest _
    obtain ⟨m, rfl⟩ : ∃ m, n = m + 1 := ⟨n - 1, by simp at hn; omega⟩
    have hread := ih m (by simpa using hn) true rest (fun _ => rfl)
    rw [readValue]
    simp [hread]
  | @close keyed sp hsp =>
    intro n hn first rest hfirst
    obtain ⟨m, rfl⟩ : ∃ m, n = m + 1 := ⟨n - 1, by simp at hn; omega⟩
    have hskip : L.skip (sp ++ [closer keyed] ++ rest) = closer keyed :: rest := by
      rw [List.append_assoc]
      exact skip_cons hsp (closer_gt keyed)
    rw [readItems, hskip, if_pos ⟨hfirst rfl, rfl⟩]
    rfl
  | @last keyed front key w v sp hf h hsp ih =>
    intro n hn first rest _
    simp only [List.length_append, List.length_singleton] at hn
    obtain ⟨m, rfl⟩ : ∃ m, n = m + 1 := ⟨n - 1, by omega⟩
    have hdelim : Delimited (sp ++ closer keyed :: rest) :=
      delimited_blank hsp (by cases keyed <;> decide)
    have hv := ih m (by omega) _ hdelim
    have hskip : L.skip (sp ++ closer keyed :: rest) = closer keyed :: rest :=
      skip_cons hsp (closer_gt keyed)
    have hcomma : closer keyed ≠ ',' := by cases keyed <;> decide
    simp only [List.append_assoc, List.singleton_append]
    rw [readItems_item hf h hv, hskip]
    simp [hcomma]
  | @more keyed front key w v sp w' l hf h hsp h' hne ih ih' =>
    intro n hn first rest _
    simp only [List.length_append, List.length_cons] at hn
    obtain ⟨m, rfl⟩ : ∃ m, n = m + 1 := ⟨n - 1, by omega⟩
    have hdelim : Delimited (sp ++ ',' :: (w' ++ rest)) := delimited_blank hsp (by decide)
    have hv := ih m (by omega) _ hdelim
    have hrest := ih' m (by omega) false rest (fun h => absurd h hne)
    have hskip : L.skip (sp ++ ',' :: (w' ++ rest)) = ',' :: (w' ++ rest) :=
      skip_cons hsp (by decide)
    simp only [List.append_assoc, List.cons_append]
    rw [readItems_item hf h hv, hskip]
    simp [hrest]

/-- The reader reads an object exactly if the text has one. -/
theorem read_obj {t rest : List Char} {l : List (String × Json)} :
    L.read t = some (.obj l, rest) ↔
      ∃ lead w, t = lead ++ (w ++ rest) ∧ L.Blank lead ∧ L.Text w (.val (.obj l)) := by
  constructor
  · intro h
    obtain ⟨w, heq, htext⟩ := (read_sound _).1 h
    obtain ⟨lead, hlead, hblank⟩ := skip_spec (L := L) t
    exact ⟨lead, w, by rw [← heq]; exact hlead, hblank, htext⟩
  · rintro ⟨lead, w, rfl, hblank, htext⟩
    obtain ⟨w', rfl, hitems⟩ := text_obj htext
    have hread := read_complete hitems (lead ++ ('{' :: w' ++ rest)).length (by simp; omega) true
      rest (fun _ => rfl)
    have hskip : L.skip (lead ++ ('{' :: w' ++ rest)) = '{' :: (w' ++ rest) :=
      skip_cons hblank (by decide)
    rw [read, hskip, readValue, List.tail_cons, hread]
    simp

/-- The reader, for texts of any depth. -/
def reader (L : Lexis) : Reader where
  toLexis := L
  Skipped := L.Blank
  accepts _ := True
  parse := L.read
  skipped_blank h := h
  accepts_within _ _ := trivial
  parse_obj := by
    intro t l rest
    simpa using read_obj (L := L)

/-! ### Plain texts -/

/-- White space, literals and natural numbers, and strings without escapes. -/
def plainScalar (w : List Char) : Option Json :=
  if w = "null".toList then some .null
  else if w = "true".toList then some (.bool true)
  else if w = "false".toList then some (.bool false)
  else if w ≠ [] ∧ w.all Char.isDigit then some (.num (.fin (Decimal.readNat w 0).1))
  else none

def plain : Lexis where
  space c := decide (c.toNat ≤ 32)
  scalar := plainScalar
  unescape raw := if '\\' ∈ raw then none else some (String.ofList raw)
  space_le := by simp
  scalar_chars := by
    intro w v h
    unfold plainScalar at h
    split_ifs at h with h₁ h₂ h₃ h₄
    · subst h₁
      exact ⟨by decide, List.all_eq_true.mp (by decide)⟩
    · subst h₂
      exact ⟨by decide, List.all_eq_true.mp (by decide)⟩
    · subst h₃
      exact ⟨by decide, List.all_eq_true.mp (by decide)⟩
    · refine ⟨h₄.1, fun c hc => ?_⟩
      simp [scalarChar, List.all_eq_true.mp h₄.2 c hc]
  scalar_ne_obj := by
    intro w l
    unfold plainScalar
    split_ifs <;> simp
  unescape_plain := by
    intro raw s hraw h _
    rw [if_neg hraw] at h
    cases h
    simp

end Lexis
end CJson
