import Ucentral.Lib.Json

/-! JSON texts.

    A text is a list of bytes, each written as the character of its code. `Text` is the grammar: what
    is a text of a value, or of the rest of an array or an object after its bracket. What counts as
    white space, what a number or a literal stands for and what the escapes of a string stand for is
    left to a `Lexis`.

    A `Reader` reads the value at the beginning of a text, after white space, and does not care for
    what comes behind. All that is asked of it is about objects: it reads one exactly if the text has
    one there, and if it accepts how deep that is nested. -/

namespace CJson

/-- The characters of numbers and literals. -/
def scalarChar (c : Char) : Bool := c.isDigit || "+-.eEtrufalsn".toList.contains c

structure Lexis where
  space : Char → Bool
  scalar : List Char → Option Json
  unescape : List Char → Option String
  space_le : ∀ {c}, space c = true → c.toNat ≤ 32
  scalar_chars : ∀ {w v}, scalar w = some v → w ≠ [] ∧ ∀ c ∈ w, scalarChar c = true
  scalar_ne_obj : ∀ {w l}, scalar w ≠ some (.obj l)
  -- an ASCII string without escapes is its bytes
  unescape_plain : ∀ {raw s}, '\\' ∉ raw → unescape raw = some s →
    (∀ c ∈ s.toList, c.toNat < 128) → s.toList = raw

/-- What stands between the quotes: a quote only after a backslash. -/
inductive Raw : List Char → Prop
  | nil : Raw []
  | char {c raw} (hq : c ≠ '"') (he : c ≠ '\\') (h : Raw raw) : Raw (c :: raw)
  | escape {c raw} (h : Raw raw) : Raw ('\\' :: c :: raw)

/-- A value, or the items of an array or an object, where those of an array have no keys. -/
inductive Node
  | val (v : Json)
  | items (keyed : Bool) (l : List (String × Json))

/-- The bracket that closes a list of items. -/
def closer (keyed : Bool) : Char := if keyed then '}' else ']'

namespace Lexis
variable (L : Lexis)

def Blank (w : List Char) : Prop := ∀ c ∈ w, L.space c = true

/-- What stands before the value of an item. -/
inductive Front : Bool → List Char → String → Prop
  | item {sp} (hsp : L.Blank sp) : Front false sp ""
  | key {sp raw key sp₁ sp₂} (hsp : L.Blank sp) (hraw : Raw raw) (hkey : L.unescape raw = some key)
      (h₁ : L.Blank sp₁) (h₂ : L.Blank sp₂) :
      Front true (sp ++ '"' :: (raw ++ '"' :: (sp₁ ++ ':' :: sp₂))) key

/-- The grammar. -/
inductive Text : List Char → Node → Prop
  | scalar {w v} (h : L.scalar w = some v) : Text w (.val v)
  | str {raw s} (hraw : Raw raw) (h : L.unescape raw = some s) :
      Text ('"' :: (raw ++ ['"'])) (.val (.str s))
  | arr {w l} (h : Text w (.items false l)) : Text ('[' :: w) (.val (.arr (l.map (·.2))))
  | obj {w l} (h : Text w (.items true l)) : Text ('{' :: w) (.val (.obj l))
  | close {keyed sp} (hsp : L.Blank sp) : Text (sp ++ [closer keyed]) (.items keyed [])
  | last {keyed front key w v sp} (hf : L.Front keyed front key) (h : Text w (.val v))
      (hsp : L.Blank sp) :
      Text (front ++ (w ++ (sp ++ [closer keyed]))) (.items keyed [(key, v)])
  | more {keyed front key w v sp w' l} (hf : L.Front keyed front key) (h : Text w (.val v))
      (hsp : L.Blank sp) (h' : Text w' (.items keyed l)) (hne : l ≠ []) :
      Text (front ++ (w ++ (sp ++ ',' :: w'))) (.items keyed ((key, v) :: l))

variable {L}

theorem text_obj {w : List Char} {l : List (String × Json)} (h : L.Text w (.val (.obj l))) :
    ∃ w', w = '{' :: w' ∧ L.Text w' (.items true l) := by
  cases h with
  | scalar h => exact absurd h L.scalar_ne_obj
  | obj h => exact ⟨_, rfl, h⟩

end Lexis

/-- One value is a part of another. -/
inductive Within (x : Json) : Json → Prop
  | refl : Within x x
  | arr {v l} (hv : v ∈ l) (h : Within x v) : Within x (.arr l)
  | obj {m l} (hm : m ∈ l) (h : Within x m.2) : Within x (.obj l)

theorem sizeOf_lt_obj {m : String × Json} {l : List (String × Json)} (hm : m ∈ l) :
    sizeOf m.2 < sizeOf (Json.obj l) := by
  have hl := List.sizeOf_lt_of_mem hm
  obtain ⟨key, v⟩ := m
  simp only [Prod.mk.sizeOf_spec] at hl
  simp only [Json.obj.sizeOf_spec]
  omega

theorem sizeOf_le_of_within {x v : Json} (h : Within x v) : sizeOf x ≤ sizeOf v := by
  induction h with
  | refl => exact le_refl _
  | arr hv _ ih =>
    have := List.sizeOf_lt_of_mem hv
    simp only [Json.arr.sizeOf_spec]
    omega
  | obj hm _ ih => exact ih.trans (sizeOf_lt_obj hm).le

/-- `cJSON_ParseWithOpts` with the end of the parse: what it reads, and the text behind. -/
structure Reader extends Lexis where
  -- what is skipped before the value: white space, and a byte order mark before it
  Skipped : List Char → Prop
  -- the depths that are read
  accepts : Json → Prop
  parse : List Char → Option (Json × List Char)
  skipped_blank : ∀ {w}, toLexis.Blank w → Skipped w
  accepts_within : ∀ {x v}, Within x v → accepts v → accepts x
  parse_obj : ∀ {t l rest}, parse t = some (.obj l, rest) ↔
    ∃ lead w, t = lead ++ (w ++ rest) ∧ Skipped lead ∧ toLexis.Text w (.val (.obj l)) ∧
      accepts (.obj l)

theorem Reader.skipped_nil (r : Reader) : r.Skipped [] :=
  r.skipped_blank (by simp [Lexis.Blank])

end CJson
