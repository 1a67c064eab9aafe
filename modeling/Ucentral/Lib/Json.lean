import Mathlib.Data.Rat.Defs
import Mathlib.Algebra.Group.Int.Defs
import Mathlib.Algebra.Group.Nat.Defs
import Mathlib.Tactic.Common

/-! JSON values through the accessors of cJSON.

    A pointer to a value is an `Option Json`; every accessor takes a null pointer and gives one for
    a value of another type. Numbers are C doubles: `getNumberValue` of anything that is not a
    number is a NaN. A member name may occur more than once; the first one is found. -/

namespace CJson

/-- A C double. -/
inductive Double
  | nan
  | inf (neg : Bool)
  | fin (q : ℚ)
  deriving DecidableEq

namespace Double

/-- `!x`: only a zero is false. -/
def isZero : Double → Bool
  | .fin q => q == 0
  | _ => false

/-- `x >= n`: false for a NaN. -/
def geNat : Double → ℕ → Bool
  | .nan, _ => false
  | .inf neg, _ => !neg
  | .fin q, n => decide ((n : ℚ) ≤ q)

/-- `x == n`. -/
def eqNat : Double → ℕ → Bool
  | .fin q, n => q == n
  | _, _ => false

/-- The integer part, rounding towards zero; 0 where there is none. -/
def trunc : Double → ℤ
  | .fin q => q.num.tdiv q.den
  | _ => 0

/-- Conversion to an unsigned integer of `w` bits. -/
def toUInt (w : ℕ) (x : Double) : ℕ := (x.trunc % 2 ^ w).toNat

/-- Conversion to `int`; out of range it gives the least `int`. -/
def toInt : Double → ℤ
  | .fin q =>
    if -2 ^ 31 ≤ q.num.tdiv q.den ∧ q.num.tdiv q.den < 2 ^ 31 then q.num.tdiv q.den else -2 ^ 31
  | _ => -2 ^ 31

/-- Conversion to `time_t`, likewise with 64 bits. -/
def toTime : Double → ℤ
  | .fin q =>
    if -2 ^ 63 ≤ q.num.tdiv q.den ∧ q.num.tdiv q.den < 2 ^ 63 then q.num.tdiv q.den else -2 ^ 63
  | _ => -2 ^ 63

theorem toTime_range (x : Double) : -2 ^ 63 ≤ x.toTime ∧ x.toTime < 2 ^ 63 := by
  cases x with
  | nan => simp [toTime]
  | inf neg => simp [toTime]
  | fin q =>
    rw [toTime]
    split
    · assumption
    · simp

theorem eqNat_iff {x : Double} {n : ℕ} : x.eqNat n = true ↔ x = .fin n := by
  cases x with
  | nan => exact iff_of_false nofun nofun
  | inf neg => exact iff_of_false nofun nofun
  | fin q => simp [eqNat]

theorem eqNat_unique {x : Double} {m n : ℕ} (hm : x.eqNat m = true) (hn : x.eqNat n = true) :
    m = n := by
  rw [eqNat_iff] at hm hn
  rw [hm] at hn
  simpa using hn

/-! Conversions of an integer. -/

theorem trunc_intCast (z : ℤ) : (Double.fin (z : ℚ)).trunc = z := by
  change (z : ℚ).num.tdiv (z : ℚ).den = z
  rw [Rat.num_intCast, Rat.den_intCast]
  exact Int.tdiv_one _

theorem toUInt_intCast (w : ℕ) (z : ℤ) : ((Double.fin (z : ℚ)).toUInt w : ℤ) = z % 2 ^ w := by
  have hpos : (0 : ℤ) < 2 ^ w := Int.pow_pos (by decide)
  rw [toUInt, trunc_intCast, Int.toNat_of_nonneg (Int.emod_nonneg _ (Int.ne_of_gt hpos))]

theorem toUInt_natCast (w n : ℕ) : (Double.fin (n : ℚ)).toUInt w = n % 2 ^ w := by
  have h := toUInt_intCast w n
  exact_mod_cast h

theorem toInt_intCast (z : ℤ) :
    (Double.fin (z : ℚ)).toInt = if -2 ^ 31 ≤ z ∧ z < 2 ^ 31 then z else -2 ^ 31 := by
  change (if -2 ^ 31 ≤ (Double.fin (z : ℚ)).trunc ∧ (Double.fin (z : ℚ)).trunc < 2 ^ 31 then
    (Double.fin (z : ℚ)).trunc else -2 ^ 31) = _
  rw [trunc_intCast]

/-- A number of `w` bits. -/
theorem toUInt_lt (w : ℕ) (x : Double) : x.toUInt w < 2 ^ w := by
  have hpos : (0 : ℤ) < 2 ^ w := Int.pow_pos (by decide)
  have hlt := Int.emod_lt_of_pos x.trunc hpos
  have hcast : ((2 ^ w : ℕ) : ℤ) = 2 ^ w := by norm_cast
  rw [toUInt]
  omega

end Double

inductive Json
  | null
  | bool (b : Bool)
  | num (d : Double)
  | str (s : String)
  | arr (l : List Json)
  | obj (l : List (String × Json))

/-- A `cJSON *`. -/
abbrev Ptr := Option Json

/-- `cJSON_GetObjectItemCaseSensitive`. -/
def getItem (j : Ptr) (name : String) : Ptr :=
  match j with
  | some (.obj l) => (l.find? (·.1 == name)).map (·.2)
  | _ => none

/-- `cJSON_GetObjectItem`: names are compared without regard to case. -/
def getItemCI (j : Ptr) (name : String) : Ptr :=
  match j with
  | some (.obj l) =>
    (l.find? (fun m => m.1.toList.map Char.toLower == name.toList.map Char.toLower)).map (·.2)
  | _ => none

/-- The values `cJSON_ArrayForEach` visits. -/
def children (j : Ptr) : List Json :=
  match j with
  | some (.arr l) => l
  | some (.obj l) => l.map (·.2)
  | _ => []

/-- `cJSON_GetArraySize`. -/
def getArraySize (j : Ptr) : ℕ := (children j).length

/-- `cJSON_GetArrayItem`. -/
def getArrayItem (j : Ptr) (i : ℕ) : Ptr := (children j)[i]?

/-- `cJSON_GetStringValue`: null unless the value is a string. -/
def getStringValue (j : Ptr) : Option String :=
  match j with
  | some (.str s) => some s
  | _ => none

/-- `cJSON_GetNumberValue`. -/
def getNumberValue (j : Ptr) : Double :=
  match j with
  | some (.num d) => d
  | _ => .nan

/-- `cJSON_IsString`, `cJSON_IsNumber`, `cJSON_IsBool`, `cJSON_IsTrue`, `cJSON_IsArray`,
    `cJSON_IsObject`. -/
def isString (j : Ptr) : Bool := (getStringValue j).isSome

def isNumber (j : Ptr) : Bool :=
  match j with
  | some (.num _) => true
  | _ => false

def isBool (j : Ptr) : Bool :=
  match j with
  | some (.bool _) => true
  | _ => false

def isTrue (j : Ptr) : Bool :=
  match j with
  | some (.bool b) => b
  | _ => false

def isArray (j : Ptr) : Bool :=
  match j with
  | some (.arr _) => true
  | _ => false

def isObject (j : Ptr) : Bool :=
  match j with
  | some (.obj _) => true
  | _ => false

theorem isSome_of_member {j : Ptr} {name : String} (h : (getItem j name).isSome = true) :
    j.isSome = true := by
  cases j with
  | none => cases h
  | some j => rfl

theorem isSome_of_isString {j : Ptr} (h : isString j = true) : j.isSome = true := by
  cases j with
  | none => cases h
  | some j => rfl

theorem isSome_of_isNumber {j : Ptr} (h : isNumber j = true) : j.isSome = true := by
  cases j with
  | none => cases h
  | some j => rfl

theorem isSome_of_isBool {j : Ptr} (h : isBool j = true) : j.isSome = true := by
  cases j with
  | none => cases h
  | some j => rfl

theorem isSome_of_isArray {j : Ptr} (h : isArray j = true) : j.isSome = true := by
  cases j with
  | none => cases h
  | some j => rfl

@[simp] theorem getItem_none (name : String) : getItem none name = none := rfl

@[simp] theorem getStringValue_str (s : String) : getStringValue (some (.str s)) = some s := rfl

@[simp] theorem children_arr (l : List Json) : children (some (.arr l)) = l := rfl

theorem getItem_obj_cons (k name : String) (v : Json) (l : List (String × Json)) :
    getItem (some (.obj ((k, v) :: l))) name =
      if k = name then some v else getItem (some (.obj l)) name := by
  by_cases h : k = name
  · simp [getItem, h]
  · simp [getItem, List.find?_cons_of_neg, h]

end CJson
