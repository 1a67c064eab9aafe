import Ucentral.Lib.Inet

/-! IPv6 text, as `inet_pton(AF_INET6, ...)` accepts it.

    Eight groups of up to four hexadecimal digits with colons between them; `::` stands once for one
    or more groups of zeros, and the last two groups may be an IPv4 address. Only whether a text is
    accepted is computed here, with the colon it must hold and the room it needs. -/

namespace Inet
open Decimal

/-- After the loop: a group that has been started is stored, and `::` must stand for something. -/
def pton6End (groups : ℕ) (colonp : Bool) (digits : ℕ) : Bool :=
  let stored := if 0 < digits then groups + 1 else groups
  if colonp then decide (stored < 8) else decide (stored = 8)

/-- The loop of `inet_pton6`: the text from the last colon on, the groups stored, whether `::` was
    seen, and how many digits the current group has. -/
def pton6Go : List Char → List Char → ℕ → Bool → ℕ → Bool
  | [], _, groups, colonp, digits => pton6End groups colonp digits
  | c :: cs, curtok, groups, colonp, digits =>
    if (hexVal c).isSome then
      decide (digits < 4) && pton6Go cs curtok groups colonp (digits + 1)
    else if c = ':' then
      if digits = 0 then !colonp && pton6Go cs cs groups true 0
      else if cs = [] then false
      else decide (groups + 1 ≤ 8) && pton6Go cs cs (groups + 1) colonp 0
    else
      decide (c = '.' ∧ groups + 2 ≤ 8) && (inetPton curtok).isSome && pton6End (groups + 2) colonp 0

/-- `inet_pton(AF_INET6, s, ...) == 1`: a colon at the front must be one of two. -/
def inetPton6 : List Char → Bool
  | [] => false
  | ':' :: ':' :: cs => pton6Go (':' :: cs) (':' :: cs) 0 false 0
  | ':' :: _ => false
  | cs => pton6Go cs cs 0 false 0

example : inetPton6 "::ffff:10.0.0.1".toList = true ∧ inetPton6 "1:2:3:4:5:6::8".toList = true ∧
    inetPton6 "1:2:3:4:5:6:7::8".toList = false ∧ inetPton6 "10.0.0.1".toList = false := by decide

/-! ### The characters of an address -/

/-- A character of one byte. -/
def Narrow (c : Char) : Prop := c.utf8Size = 1

instance (c : Char) : Decidable (Narrow c) := inferInstanceAs (Decidable (c.utf8Size = 1))

theorem narrow_of_le {c d : Char} (h : c ≤ d) (hd : d ≤ '~') : Narrow c :=
  Char.utf8Size_eq_one_iff.mpr (UInt32.le_trans h (UInt32.le_trans hd (by decide)))

theorem narrow_of_isDigit {c : Char} (h : c.isDigit = true) : Narrow c := by
  simp only [Char.isDigit, Bool.and_eq_true, decide_eq_true_eq] at h
  exact narrow_of_le (d := '9') h.2 (by decide)

theorem narrow_of_hexVal {c : Char} (h : (hexVal c).isSome = true) : Narrow c := by
  unfold hexVal at h
  split_ifs at h with hd hl hu
  · exact narrow_of_isDigit hd
  · exact narrow_of_le hl.2 (by decide)
  · exact narrow_of_le hu.2 (by decide)
  · cases h

/-- Digits that a started octet may still get. -/
def digitsLeft : Option ℕ → ℕ
  | none => 3
  | some o => if o = 0 ∨ 25 < o then 0 else if 2 < o then 1 else 2

theorem digitsLeft_digit {o d : ℕ} (h : ¬ (o = 0 ∨ 255 < 10 * o + d)) :
    digitsLeft (some (10 * o + d)) + 1 ≤ digitsLeft (some o) := by
  unfold digitsLeft
  dsimp only
  split_ifs <;> omega

/-- An IPv4 text is digits and dots, and short. -/
theorem ptonGo_some : ∀ (cs : List Char) (os : List ℕ) (cur : Option ℕ), os.length ≤ 3 →
    (ptonGo cs os cur).isSome = true →
    (∀ c ∈ cs, c.isDigit = true ∨ c = '.') ∧ cs.length ≤ 4 * (3 - os.length) + digitsLeft cur
  | [], _, _, _, _ => ⟨List.forall_mem_nil _, Nat.zero_le _⟩
  | c :: cs, os, cur, hos, h => by
      unfold ptonGo at h
      split at h
      · rename_i hd
        cases cur with
        | none =>
          dsimp only at h
          rw [if_neg (by omega)] at h
          obtain ⟨hcs, hlen⟩ := ptonGo_some cs os _ hos h
          have hleft : digitsLeft (some (digit c)) ≤ 2 := by
            unfold digitsLeft
            dsimp only
            split_ifs <;> omega
          refine ⟨List.forall_mem_cons.mpr ⟨Or.inl hd, hcs⟩, ?_⟩
          rw [List.length_cons, digitsLeft]
          omega
        | some o =>
          dsimp only at h
          split at h
          · cases h
          · rename_i ho
            obtain ⟨hcs, hlen⟩ := ptonGo_some cs os _ hos h
            have hleft := digitsLeft_digit ho
            refine ⟨List.forall_mem_cons.mpr ⟨Or.inl hd, hcs⟩, ?_⟩
            rw [List.length_cons]
            omega
      · cases cur with
        | none => cases h
        | some o =>
          dsimp only at h
          split at h
          · rename_i hdot
            have hos' : (os ++ [o]).length ≤ 3 := by
              rw [List.length_append, List.length_singleton]
              omega
            obtain ⟨hcs, hlen⟩ := ptonGo_some cs (os ++ [o]) none hos' h
            refine ⟨List.forall_mem_cons.mpr ⟨Or.inr hdot.1, hcs⟩, ?_⟩
            rw [List.length_append, List.length_singleton] at hlen
            simp only [List.length_cons, digitsLeft] at hlen ⊢
            omega
          · cases h

theorem inetPton_some {s : List Char} (h : (inetPton s).isSome = true) :
    (∀ c ∈ s, c.isDigit = true ∨ c = '.') ∧ s.length ≤ 15 := by
  refine ptonGo_some s [] none (Nat.zero_le _) ?_
  unfold inetPton at h
  split at h
  · rename_i hgo
    rw [hgo]
    rfl
  · cases h

theorem narrow_of_inetPton {s : List Char} (h : (inetPton s).isSome = true) : ∀ c ∈ s, Narrow c := by
  intro c hc
  rcases (inetPton_some h).1 c hc with hd | rfl
  · exact narrow_of_isDigit hd
  · decide

/-- Room for the rest of a text from the start of the current group on. -/
def room (groups : ℕ) (colonp : Bool) : ℕ := 5 * ((if colonp then 7 else 8) - groups) + 5

@[simp] theorem room_true (groups : ℕ) : room groups true = 5 * (7 - groups) + 5 := rfl

@[simp] theorem room_false (groups : ℕ) : room groups false = 5 * (8 - groups) + 5 := rfl

/-- After `::` a group is left over at the end. -/
theorem stored_lt_of_pton6End {groups digits : ℕ} (h : pton6End groups true digits = true) :
    groups ≤ 7 := by
  simp only [pton6End, if_true, decide_eq_true_eq] at h
  split_ifs at h <;> omega

/-- The last two groups may be an IPv4 address. -/
theorem pton6_ipv4 {curtok : List Char} {groups : ℕ} {colonp : Bool} (hg : groups + 2 ≤ 8)
    (hv4 : (inetPton curtok).isSome = true) (hend : pton6End (groups + 2) colonp 0 = true) :
    (∀ c ∈ curtok, Narrow c) ∧ curtok.length ≤ room groups colonp ∧ (colonp = true → groups ≤ 7) := by
  have hshort := (inetPton_some hv4).2
  refine ⟨narrow_of_inetPton hv4, ?_, ?_⟩
  · cases colonp with
    | true =>
      have hseven := stored_lt_of_pton6End hend
      rw [room_true]
      omega
    | false =>
      rw [room_false]
      omega
  · rintro rfl
    exact Nat.le_of_add_right_le (stored_lt_of_pton6End hend)

/-- An IPv6 text is of narrow characters and fits the room; `::` leaves a group to stand for. -/
theorem pton6Go_true : ∀ (cs curtok : List Char) (groups : ℕ) (colonp : Bool) (digits : ℕ),
    curtok.length = digits + cs.length → digits ≤ 4 → (∀ c ∈ cs, c ∈ curtok) →
    pton6Go cs curtok groups colonp digits = true →
    (∀ c ∈ cs, Narrow c) ∧ digits + cs.length ≤ room groups colonp ∧ (colonp = true → groups ≤ 7)
  | [], curtok, groups, colonp, digits, _, hdig, _, h => by
      refine ⟨List.forall_mem_nil _, ?_, ?_⟩
      · unfold room
        rw [List.length_nil]
        omega
      · rintro rfl
        exact stored_lt_of_pton6End h
  | c :: cs, curtok, groups, colonp, digits, hlen, hdig, hsub, h => by
      have hlen' : curtok.length = digits + 1 + cs.length := by
        rw [hlen, List.length_cons]
        omega
      rw [pton6Go] at h
      split_ifs at h with hx hcolon hzero hend
      · -- one more digit of the group
        obtain ⟨hd, h⟩ := (Bool.and_eq_true _ _).mp h |>.imp_left of_decide_eq_true
        obtain ⟨hcs, hroom, hg⟩ := pton6Go_true cs curtok groups colonp (digits + 1) hlen' hd
          (fun x hx => hsub x (List.mem_cons_of_mem _ hx)) h
        refine ⟨List.forall_mem_cons.mpr ⟨narrow_of_hexVal hx, hcs⟩, ?_, hg⟩
        rw [List.length_cons]
        omega
      · -- the second colon of `::`
        obtain ⟨hc, h⟩ := (Bool.and_eq_true _ _).mp h
        obtain ⟨hcs, hroom, hg⟩ := pton6Go_true cs cs groups true 0 (Nat.zero_add _).symm
          (Nat.zero_le _) (fun _ => id) h
        have hfirst : colonp = false := by simpa using hc
        subst hfirst hzero hcolon
        refine ⟨List.forall_mem_cons.mpr ⟨by decide, hcs⟩, ?_, fun hf => by cases hf⟩
        have hseven := hg rfl
        rw [room_true] at hroom
        rw [room_false, List.length_cons]
        omega
      · -- the colon after a group
        obtain ⟨hg8, h⟩ := (Bool.and_eq_true _ _).mp h |>.imp_left of_decide_eq_true
        obtain ⟨hcs, hroom, hg⟩ := pton6Go_true cs cs (groups + 1) colonp 0 (Nat.zero_add _).symm
          (Nat.zero_le _) (fun _ => id) h
        subst hcolon
        refine ⟨List.forall_mem_cons.mpr ⟨by decide, hcs⟩, ?_, fun hc => Nat.le_of_succ_le (hg hc)⟩
        rw [List.length_cons]
        cases colonp with
        | true =>
          have hseven := hg rfl
          rw [room_true] at hroom ⊢
          omega
        | false =>
          rw [room_false] at hroom ⊢
          omega
      · -- the last two groups as an IPv4 address
        simp only [Bool.and_eq_true, decide_eq_true_eq] at h
        obtain ⟨⟨⟨-, hg8⟩, hv4⟩, hend6⟩ := h
        obtain ⟨hnarrow, hroom, hseven⟩ := pton6_ipv4 hg8 hv4 hend6
        refine ⟨fun x hx => hnarrow x (hsub x hx), ?_, hseven⟩
        exact Nat.le_trans (Nat.le_of_eq hlen.symm) hroom

/-- Without a colon at most one group or an IPv4 address is stored. -/
theorem pton6Go_colon : ∀ (cs curtok : List Char) (digits : ℕ), ':' ∉ cs →
    pton6Go cs curtok 0 false digits = false
  | [], _, digits, _ => by
      simp only [pton6Go, pton6End, Bool.false_eq_true, if_false, decide_eq_false_iff_not]
      split <;> omega
  | c :: cs, curtok, digits, h => by
      obtain ⟨hc, hcs⟩ := not_or.mp (mt List.mem_cons.mpr h)
      rw [pton6Go, if_neg (Ne.symm hc)]
      split
      · rw [pton6Go_colon cs curtok _ hcs, Bool.and_false]
      · rw [show pton6End (0 + 2) false 0 = false from rfl, Bool.and_false]

/-! ### Accepted texts -/

theorem inetPton6_colon {s : List Char} (h : inetPton6 s = true) : ':' ∈ s := by
  by_contra hno
  unfold inetPton6 at h
  split at h
  · cases h
  · exact hno (List.mem_cons_self ..)
  · cases h
  · rw [pton6Go_colon _ _ _ hno] at h
    cases h

/-- It fits `INET6_ADDRSTRLEN` bytes with its terminator. -/
theorem inetPton6_true {s : List Char} (h : inetPton6 s = true) :
    (∀ c ∈ s, Narrow c) ∧ s.length ≤ 45 := by
  unfold inetPton6 at h
  split at h
  · cases h
  · rename_i cs
    have hcs' : pton6Go cs cs 0 true 0 = true := h
    obtain ⟨hcs, hroom, -⟩ := pton6Go_true cs cs 0 true 0 (Nat.zero_add _).symm (Nat.zero_le _)
      (fun _ => id) hcs'
    have hcolon : Narrow ':' := by decide
    refine ⟨List.forall_mem_cons.mpr ⟨hcolon, List.forall_mem_cons.mpr ⟨hcolon, hcs⟩⟩, ?_⟩
    rw [room_true] at hroom
    rw [List.length_cons, List.length_cons]
    omega
  · cases h
  · obtain ⟨hcs, hroom, -⟩ := pton6Go_true _ _ 0 false 0 (Nat.zero_add _).symm (Nat.zero_le _)
      (fun _ => id) h
    exact ⟨hcs, Nat.le_trans (Nat.le_of_eq (Nat.zero_add _).symm) hroom⟩

/-- No text is an address of both families. -/
theorem inetPton6_of_inetPton {s : List Char} (h : (inetPton s).isSome = true) :
    inetPton6 s = false := by
  by_contra hv6
  have hcolon := inetPton6_colon ((Bool.not_eq_false _).mp hv6)
  rcases (inetPton_some h).1 _ hcolon with hd | hd
  · exact absurd hd (by decide)
  · exact absurd hd (by decide)

end Inet
