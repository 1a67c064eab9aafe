import Mathlib.Data.List.TakeWhile
import Mathlib.Data.Nat.Notation
import Mathlib.Tactic.Common

/-! C strings in fields of a fixed size, and the tokens `strtok` finds in them.

    `strncpy` writes the whole field: the bytes of the string that fit, and zeros after them. A string
    as long as the field or longer is left without its terminator. -/

namespace CString

/-! ### Fields -/

/-- The bytes of a string before its terminator. -/
def bytes (s : String) : List UInt8 := s.toByteArray.data.toList.takeWhile (· != 0)

def strlen (s : String) : ℕ := (bytes s).length

/-- `n` bytes of a field from the bytes of a string: those that fit, and zeros after them. -/
def pad (n : ℕ) (bs : List UInt8) : List UInt8 := bs.take n ++ List.replicate (n - bs.length) 0

/-- `strncpy(field, s, n)` into a field of `n` bytes. -/
def strncpy (n : ℕ) (s : String) : List UInt8 := pad n (bytes s)

/-- `strncpy(field, src, n)` from another field of `n` bytes. -/
def strncpyField (n : ℕ) (src : List UInt8) : List UInt8 := pad n (src.takeWhile (· != 0))

/-- The field holds the string with its terminator. -/
def Holds (field : List UInt8) (s : String) : Prop := ∃ rest, field = bytes s ++ 0 :: rest

theorem strlen_le (s : String) : strlen s ≤ s.utf8ByteSize :=
  (List.takeWhile_sublist _).length_le

theorem pad_length (n : ℕ) (bs : List UInt8) : (pad n bs).length = n := by
  rw [pad, List.length_append, List.length_take, List.length_replicate]
  omega

theorem strncpy_holds {n : ℕ} {s : String} (h : strlen s < n) : Holds (strncpy n s) s := by
  obtain ⟨left, hleft⟩ := Nat.exists_eq_add_of_lt h
  refine ⟨List.replicate left 0, ?_⟩
  have hroom : n - (bytes s).length = left + 1 := by
    unfold strlen at hleft
    omega
  have hall : (bytes s).take n = bytes s := List.take_of_length_le (Nat.le_of_lt h)
  rw [strncpy, pad, hroom, hall, List.replicate_succ]

/-- A field holds the string copied into it exactly if that is shorter than the field. -/
theorem strncpy_holds_iff {n : ℕ} {s : String} : Holds (strncpy n s) s ↔ strlen s < n := by
  refine ⟨fun ⟨rest, h⟩ => ?_, strncpy_holds⟩
  have hlen := congrArg List.length h
  rw [strncpy, pad_length, List.length_append, List.length_cons] at hlen
  unfold strlen
  omega

theorem ne_zero_of_mem_bytes {s : String} {b : UInt8} (h : b ∈ bytes s) : (b != 0) = true :=
  List.all_eq_true.mp List.all_takeWhile b h

theorem takeWhile_pad {bs : List UInt8} (h : ∀ b ∈ bs, (b != 0) = true) (n : ℕ) :
    (pad n bs).takeWhile (· != 0) = bs.take n := by
  have hfront : ∀ b ∈ bs.take n, (b != 0) = true := fun b hb => h b (List.mem_of_mem_take hb)
  rw [pad, List.takeWhile_append_of_pos hfront]
  cases n - bs.length with
  | zero => exact List.append_nil _
  | succ left =>
    rw [List.replicate_succ, List.takeWhile_cons_of_neg (by decide), List.append_nil]

/-- Copying a field to another of its size changes nothing, cut or not. -/
theorem strncpyField_strncpy (n : ℕ) (s : String) :
    strncpyField n (strncpy n s) = strncpy n s := by
  unfold strncpyField strncpy
  rw [takeWhile_pad (fun _ hb => ne_zero_of_mem_bytes hb)]
  unfold pad
  rw [List.take_take, Nat.min_self, List.length_take]
  congr 2
  omega

/-- A text of one-byte characters has as many bytes as characters. -/
theorem utf8ByteSize_ofList : ∀ (cs : List Char), (∀ c ∈ cs, c.utf8Size = 1) →
    (String.ofList cs).utf8ByteSize = cs.length
  | [], _ => rfl
  | c :: cs, h => by
      obtain ⟨hc, hcs⟩ := List.forall_mem_cons.mp h
      rw [String.ofList_cons, String.utf8ByteSize_append, String.utf8ByteSize_singleton, hc,
        utf8ByteSize_ofList cs hcs, List.length_cons, Nat.add_comm]

/-! ### Tokens -/

/-- The pieces between separators that are not empty. -/
def tokens (sep : Char) (cs : List Char) : List (List Char) := (cs.splitOn sep).filter (· ≠ [])

/-- `strtok(s, sep)`, or `strtok(NULL, sep)` with what the call before left: a token and what is
    left, none if there is no token. -/
def strtok (sep : Char) (cs : List Char) : Option (List Char × List Char) :=
  match cs.dropWhile (· == sep) with
  | [] => none
  | c :: cs => some ((c :: cs).takeWhile (· != sep), ((c :: cs).dropWhile (· != sep)).drop 1)

theorem tokens_nil (sep : Char) : tokens sep [] = [] := rfl

theorem tokens_append (sep : Char) (xs ys : List Char) :
    tokens sep (xs ++ sep :: ys) = tokens sep xs ++ tokens sep ys := by
  unfold tokens
  have hcut : (xs ++ sep :: ys).splitOnP (· == sep) = xs.splitOnP (· == sep) ++ ys.splitOnP (· == sep) :=
    List.splitOnP_append_cons xs ys (beq_self_eq_true sep)
  rw [List.splitOn_eq_splitOnP, hcut, List.filter_append]
  rfl

theorem tokens_single {sep : Char} {p : List Char} (hne : p ≠ []) (h : sep ∉ p) :
    tokens sep p = [p] := by
  have hother : ∀ c ∈ p, (c == sep) = false := fun c hc =>
    beq_eq_false_iff_ne.mpr (ne_of_mem_of_not_mem hc h)
  unfold tokens
  rw [List.splitOn_eq_splitOnP, List.splitOnP_eq_singleton hother]
  exact List.filter_cons_of_pos (decide_eq_true hne)

/-- Separators at the front belong to no token. -/
theorem tokens_dropWhile (sep : Char) : ∀ (cs : List Char),
    tokens sep (cs.dropWhile (· == sep)) = tokens sep cs
  | [] => rfl
  | c :: cs => by
      rw [List.dropWhile_cons]
      split
      · rename_i h
        rw [eq_of_beq h, tokens_dropWhile sep cs]
        exact (tokens_append sep [] cs).symm
      · rfl

theorem tokens_of_strtok_none {sep : Char} {cs : List Char} (h : strtok sep cs = none) :
    tokens sep cs = [] := by
  unfold strtok at h
  split at h
  · rename_i hd
    rw [← tokens_dropWhile, hd, tokens_nil]
  · cases h

/-- A text that does not start with a separator starts with a token. -/
theorem tokens_cons {sep c : Char} (hc : (c != sep) = true) (cs : List Char) :
    tokens sep (c :: cs) = (c :: cs).takeWhile (· != sep) ::
      tokens sep (((c :: cs).dropWhile (· != sep)).drop 1) := by
  have htoken : (c :: cs).takeWhile (· != sep) ≠ [] := by
    intro h
    rw [List.takeWhile_cons, if_pos hc] at h
    cases h
  have hno : sep ∉ (c :: cs).takeWhile (· != sep) := by
    intro h
    have hother := List.mem_takeWhile_imp h
    rw [bne_self_eq_false] at hother
    cases hother
  have hone := tokens_single htoken hno
  have hsplit : (c :: cs).takeWhile (· != sep) ++ (c :: cs).dropWhile (· != sep) = c :: cs :=
    List.takeWhile_append_dropWhile
  cases hrest : (c :: cs).dropWhile (· != sep) with
  | nil =>
    rw [hrest, List.append_nil] at hsplit
    rw [List.drop_nil, tokens_nil, ← hone, hsplit]
  | cons d ds =>
    have hd : d = sep := by
      have hnot := List.head?_dropWhile_not (· != sep) (c :: cs)
      rw [hrest] at hnot
      simpa using hnot
    rw [hrest, hd] at hsplit
    have hcut := tokens_append sep ((c :: cs).takeWhile (· != sep)) ds
    rw [hsplit, hone] at hcut
    exact hcut

/-- Each call finds the next token. -/
theorem tokens_of_strtok {sep : Char} {cs p rest : List Char} (h : strtok sep cs = some (p, rest)) :
    tokens sep cs = p :: tokens sep rest := by
  unfold strtok at h
  split at h
  · cases h
  · rename_i c cs' hd
    have hc : (c != sep) = true := by
      have hnot := List.head?_dropWhile_not (· == sep) cs
      rw [hd] at hnot
      simpa using hnot
    cases h
    rw [← tokens_dropWhile, hd]
    exact tokens_cons hc cs'

end CString
