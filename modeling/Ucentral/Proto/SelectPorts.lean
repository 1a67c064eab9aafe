import Mathlib.Data.List.TakeWhile
import Ucentral.Proto.PortIds

/-! The entries of `select-ports`, as strings.

    `proto_port_name_to_num` takes any result of `sscanf` but 0 for a success. What it makes of a string
    that is no wildcard:

        Eth            the text ends before the number: whatever is on the stack
        Ethernet       likewise, also with blanks behind it
        Ethernet 7x    7; blanks, a sign and leading zeros are skipped, the rest is not looked at
        Ethernet65537  1, as are all the numbers that leave 1 in 16 bits
        Ethernet255    the wildcard
        eth7           refused -/

namespace Ucentral.Proto
open CJson Plat Parse Decimal

/-! ### Numbers as `%u` reads them -/

/-- The text of a sign: is it negative? -/
def signText : Option Bool → List Char
  | none => []
  | some false => ['+']
  | some true => ['-']

/-- What becomes of a sign and the number after it. -/
def converted (sign : Option Bool) (n : ℕ) : ℕ := strtoul (sign.getD false) n

/-- Blanks. -/
def Blank (cs : List Char) : Prop := ∀ c ∈ cs, isCSpace c = true

/-- Blanks, a sign, digits, and a rest that starts with something else. -/
def Numeral (cs : List Char) (sign : Option Bool) (ds : List Char) : Prop :=
  ∃ ws rest, cs = ws ++ (signText sign ++ (ds ++ rest)) ∧ Blank ws ∧ ds ≠ [] ∧
    (∀ c ∈ ds, c.isDigit = true) ∧ startsDigit rest = false

theorem not_startsDigit_dropWhile (cs : List Char) :
    startsDigit (cs.dropWhile Char.isDigit) = false := by
  induction cs with
  | nil => rfl
  | cons c cs ih =>
    by_cases hc : c.isDigit = true
    · rw [List.dropWhile_cons_of_pos hc]
      exact ih
    · rw [List.dropWhile_cons_of_neg hc]
      exact Bool.eq_false_of_not_eq_true hc

/-- The digits at the front of a text. -/
theorem exists_digits {cs : List Char} (h : startsDigit cs = true) :
    ∃ ds rest, cs = ds ++ rest ∧ ds ≠ [] ∧ (∀ c ∈ ds, c.isDigit = true) ∧
      startsDigit rest = false := by
  refine ⟨cs.takeWhile Char.isDigit, cs.dropWhile Char.isDigit,
    (List.takeWhile_append_dropWhile ..).symm, ?_, fun c hc => ?_, not_startsDigit_dropWhile cs⟩
  · cases cs with
    | nil => cases h
    | cons c cs =>
      have hc : c.isDigit = true := h
      rw [List.takeWhile_cons_of_pos hc]
      exact List.cons_ne_nil _ _
  · exact List.mem_takeWhile_imp hc

/-- A digit is neither a blank nor a sign. -/
theorem digit_ne {c : Char} (h : c.isDigit = true) : isCSpace c = false ∧ c ≠ '-' ∧ c ≠ '+' := by
  refine ⟨?_, ?_, ?_⟩
  · cases hs : isCSpace c with
    | false => rfl
    | true =>
      simp only [isCSpace, Bool.or_eq_true, beq_iff_eq] at hs
      rcases hs with ((((rfl | rfl) | rfl) | rfl) | rfl) | rfl <;> simp at h
  · rintro rfl
    simp at h
  · rintro rfl
    simp at h

theorem startsDigit_append {ds rest : List Char} (hne : ds ≠ [])
    (hds : ∀ c ∈ ds, c.isDigit = true) : startsDigit (ds ++ rest) = true := by
  cases ds with
  | nil => exact absurd rfl hne
  | cons c ds => exact hds c (List.mem_cons_self ..)

/-- No blank and no sign at the front. -/
def Plain (cs : List Char) : Prop := ∀ c ∈ cs.head?, isCSpace c = false ∧ c ≠ '-' ∧ c ≠ '+'

/-- Every text falls into blanks, a sign or none, and what `%u` reads digits from. -/
theorem exists_sign (cs : List Char) :
    ∃ ws sign ds, cs = ws ++ (signText sign ++ ds) ∧ Blank ws ∧ (sign = none → Plain ds) := by
  have hblank : Blank (cs.takeWhile isCSpace) := fun c hc => List.mem_takeWhile_imp hc
  have hsplit : cs = cs.takeWhile isCSpace ++ cs.dropWhile isCSpace :=
    (List.takeWhile_append_dropWhile ..).symm
  have hhead := List.head?_dropWhile_not isCSpace cs
  cases hcs : cs.dropWhile isCSpace with
  | nil =>
    refine ⟨_, none, [], hsplit.trans (by rw [hcs]; rfl), hblank, fun _ c hc => ?_⟩
    cases hc
  | cons c ds =>
    rw [hcs] at hsplit hhead
    by_cases hminus : c = '-'
    · exact ⟨_, some true, ds, hsplit.trans (by rw [hminus]; rfl), hblank, fun h => by cases h⟩
    by_cases hplus : c = '+'
    · exact ⟨_, some false, ds, hsplit.trans (by rw [hplus]; rfl), hblank, fun h => by cases h⟩
    refine ⟨_, none, c :: ds, hsplit, hblank, fun _ d hd => ?_⟩
    obtain rfl : c = d := Option.some.inj hd
    exact ⟨by simpa using hhead, hminus, hplus⟩

theorem dropWhile_blank {ws cs : List Char} (hws : Blank ws)
    (hcs : ∀ c ∈ cs.head?, isCSpace c = false) : (ws ++ cs).dropWhile isCSpace = cs := by
  rw [List.dropWhile_append_of_pos hws]
  cases cs with
  | nil => rfl
  | cons c cs =>
    have hc := hcs c rfl
    rw [List.dropWhile_cons_of_neg (by rw [hc]; exact Bool.false_ne_true)]

/-- `%u` after the blanks and the sign. -/
theorem scanLu_sign {ws ds : List Char} (hws : Blank ws) (sign : Option Bool)
    (hds : sign = none → Plain ds) :
    scanLu (ws ++ (signText sign ++ ds)) =
      if startsDigit ds then some (converted sign (readNat ds 0).1) else none := by
  cases sign with
  | none =>
    have hplain := hds rfl
    have hdrop : (ws ++ ds).dropWhile isCSpace = ds :=
      dropWhile_blank hws fun c hc => (hplain c hc).1
    rw [signText, List.nil_append, scanLu, hdrop]
    split
    · exact absurd rfl (hplain '-' rfl).2.1
    · exact absurd rfl (hplain '+' rfl).2.2
    · rfl
  | some neg =>
    cases neg with
    | false =>
      have hdrop : (ws ++ '+' :: ds).dropWhile isCSpace = '+' :: ds :=
        dropWhile_blank hws fun c hc => by cases hc; rfl
      rw [signText, List.singleton_append, scanLu, hdrop]
      rfl
    | true =>
      have hdrop : (ws ++ '-' :: ds).dropWhile isCSpace = '-' :: ds :=
        dropWhile_blank hws fun c hc => by cases hc; rfl
      rw [signText, List.singleton_append, scanLu, hdrop]
      rfl

/-- `%u` reads exactly the numerals. -/
theorem scanLu_eq_some_iff {cs : List Char} {n : ℕ} :
    scanLu cs = some n ↔
      ∃ sign ds, Numeral cs sign ds ∧ n = converted sign (Nat.ofDigitChars 10 ds 0) := by
  constructor
  · intro h
    obtain ⟨ws, sign, ds, rfl, hws, hplain⟩ := exists_sign cs
    rw [scanLu_sign hws sign hplain] at h
    cases hstart : startsDigit ds with
    | false => rw [hstart] at h; cases h
    | true =>
      obtain ⟨digits, rest, rfl, hne, hdigits, hrest⟩ := exists_digits hstart
      rw [hstart, readNat_append digits rest 0 hdigits hrest] at h
      exact ⟨sign, digits, ⟨ws, rest, rfl, hws, hne, hdigits, hrest⟩, (Option.some.inj h).symm⟩
  · rintro ⟨sign, digits, ⟨ws, rest, rfl, hws, hne, hdigits, hrest⟩, rfl⟩
    have hstart : startsDigit (digits ++ rest) = true := startsDigit_append hne hdigits
    have hplain : Plain (digits ++ rest) := by
      cases digits with
      | nil => exact absurd rfl hne
      | cons d digits =>
        intro c hc
        obtain rfl : d = c := Option.some.inj hc
        exact digit_ne (hdigits d (List.mem_cons_self ..))
    rw [scanLu_sign hws sign fun _ => hplain, hstart, readNat_append digits rest 0 hdigits hrest]
    rfl

/-! ### Names -/

/-- What the string leaves in `fp_id`, of which 16 bits are taken; `junk` was there before. -/
inductive Reads (junk : ℕ) : List Char → ℕ → Prop
  | cut {cs rest : List Char} : cs ++ rest = "Ethernet".toList → rest ≠ [] → Reads junk cs (junk % 65536)
  | blank {ws : List Char} : Blank ws → Reads junk ("Ethernet".toList ++ ws) (junk % 65536)
  | number {cs ds : List Char} {sign : Option Bool} : Numeral cs sign ds →
      Reads junk ("Ethernet".toList ++ cs) (converted sign (Nat.ofDigitChars 10 ds 0) % 65536)

theorem scanU_eof_iff : ∀ {lit cs : List Char}, scanU lit cs = .eof ↔
    (∃ rest, cs ++ rest = lit ∧ rest ≠ []) ∨ ∃ ws, cs = lit ++ ws ∧ Blank ws
  | [], cs => by
      have hblank : cs.dropWhile isCSpace = [] ↔ Blank cs := List.dropWhile_eq_nil_iff
      by_cases hcs : cs.dropWhile isCSpace = []
      · rw [scanU, if_pos hcs]
        exact iff_of_true rfl (Or.inr ⟨cs, rfl, hblank.mp hcs⟩)
      · rw [scanU, if_neg hcs]
        refine iff_of_false (by cases scanLu cs <;> simp) ?_
        rintro (⟨rest, hrest, hne⟩ | ⟨ws, rfl, hws⟩)
        · exact hne (List.append_eq_nil_iff.mp hrest).2
        · exact hcs (hblank.mpr hws)
  | l :: lit, [] => iff_of_true rfl (Or.inl ⟨l :: lit, rfl, List.cons_ne_nil _ _⟩)
  | l :: lit, c :: cs => by
      by_cases hc : l = c
      · rw [scanU, if_pos hc, scanU_eof_iff]
        simp [hc]
      · rw [scanU, if_neg hc]
        refine iff_of_false (by simp) ?_
        rintro (⟨rest, hrest, -⟩ | ⟨ws, hws, -⟩)
        · exact hc (List.cons.inj hrest).1.symm
        · exact hc (List.cons.inj hws).1.symm

theorem scanU_value_iff {n : ℕ} : ∀ {lit cs : List Char}, scanU lit cs = .value n ↔
    ∃ t m, cs = lit ++ t ∧ scanLu t = some m ∧ n = m % 2 ^ 32
  | [], cs => by
      by_cases hcs : cs.dropWhile isCSpace = []
      · rw [scanU, if_pos hcs]
        refine iff_of_false (by simp) ?_
        rintro ⟨t, m, rfl, ht, -⟩
        have hnone : scanLu cs = none := by rw [scanLu, hcs]; rfl
        rw [ht] at hnone
        cases hnone
      · rw [scanU, if_neg hcs]
        constructor
        · intro h
          cases hm : scanLu cs with
          | none => rw [hm] at h; cases h
          | some m =>
            rw [hm] at h
            cases h
            exact ⟨cs, m, rfl, hm, rfl⟩
        · rintro ⟨t, m, rfl, ht, rfl⟩
          rw [ht]
  | l :: lit, [] => iff_of_false (by simp [scanU]) (by simp)
  | l :: lit, c :: cs => by
      by_cases hc : l = c
      · rw [scanU, if_pos hc, scanU_value_iff]
        simp [hc]
      · rw [scanU, if_neg hc]
        refine iff_of_false (by simp) ?_
        rintro ⟨t, m, ht, -⟩
        exact hc (List.cons.inj ht).1.symm

/-- `Ethernet*` or `eth*`. -/
def IsWildcard (s : String) : Prop := s = "Ethernet*" ∨ s = "eth*"

/-- A string that is no wildcard is taken for a port exactly if it leaves something in `fp_id`. -/
theorem protoPortNameToNum_iff {junk k : ℕ} {s : String} (hs : ¬ IsWildcard s) :
    protoPortNameToNum junk s = some k ↔ Reads junk s.toList k := by
  rw [protoPortNameToNum, if_neg (show ¬ (s = "Ethernet*" ∨ s = "eth*") from hs)]
  constructor
  · intro h
    cases hscan : scanU "Ethernet".toList s.toList with
    | mismatch => rw [hscan] at h; cases h
    | eof =>
      rw [hscan] at h
      cases h
      rcases scanU_eof_iff.mp hscan with ⟨rest, hrest, hne⟩ | ⟨ws, hcs, hws⟩
      · exact .cut hrest hne
      · rw [hcs]
        exact .blank hws
    | value n =>
      rw [hscan] at h
      cases h
      obtain ⟨t, m, hcs, ht, rfl⟩ := scanU_value_iff.mp hscan
      obtain ⟨sign, ds, hnum, rfl⟩ := scanLu_eq_some_iff.mp ht
      rw [hcs, Nat.mod_mod_of_dvd _ (by decide)]
      exact .number hnum
  · intro h
    generalize hcs : s.toList = cs at h
    cases h with
    | cut hrest hne => rw [scanU_eof_iff.mpr (Or.inl ⟨_, hrest, hne⟩)]
    | blank hws => rw [scanU_eof_iff.mpr (Or.inr ⟨_, rfl, hws⟩)]
    | number hnum =>
      rw [scanU_value_iff.mpr ⟨_, _, rfl, scanLu_eq_some_iff.mpr ⟨_, _, hnum, rfl⟩, rfl⟩]
      simp only [Nat.mod_mod_of_dvd _ (show 65536 ∣ 2 ^ 32 by decide)]

/-! ### Entries -/

/-- What becomes of an entry of `select-ports`. -/
inductive Outcome
  | port (k : ℕ)
  | all
  | rejected
  deriving DecidableEq

/-- The body of the loop over `select-ports`. -/
def selectEntry (ports : Ports) (s : String) : Outcome :=
  match protoPortNameToNum ports.junk s with
  | none => .rejected
  | some id =>
    if id = portIdSelectAllPorts then .all
    else if id < maxNumOfPorts && ports.avail id then .port id
    else .rejected

/-- How the loop ends if this becomes of its first entry; `ps` are the entries after it. -/
def Outcome.after (ports : Ports) (ps : List Json) (t : Selection) :
    Outcome → Except Stop Unit × Selection
  | .port k => selectPortsGo ports ps ⟨t.bmap.setBit k, t.num + 1⟩
  | .all => (.ok (),
      ⟨ports.names.foldl (fun b name => b.setBit (ports.pid name)) t.bmap, ports.names.length⟩)
  | .rejected => (.error .reject, t)

theorem selectPortsGo_entry (ports : Ports) (s : String) (ps : List Json) (t : Selection) :
    selectPortsGo ports (.str s :: ps) t = (selectEntry ports s).after ports ps t := by
  have htext : ∀ y : Unit → Parser Selection Unit,
      (text (getStringValue (some (.str s))) >>= y) t = y () t := fun y => pass_bind _ y t
  have hstr : strOf (some (.str s)) = s := rfl
  rw [selectPortsGo, htext, hstr, selectEntry]
  cases protoPortNameToNum ports.junk s with
  | none => rfl
  | some id =>
    by_cases hall : id = portIdSelectAllPorts
    · simp only [if_pos hall]
      rfl
    · simp only [if_neg hall, need_bind]
      cases decide (id < maxNumOfPorts) && ports.avail id with
      | true => rfl
      | false => rfl

/-- The outcomes are told apart by how the loop ends. -/
theorem after_injective {ports : Ports} {o o' : Outcome}
    (h : ∀ t, o.after ports [] t = o'.after ports [] t) : o = o' := by
  have hstart := h ⟨Bitmap.clear, ports.names.length⟩
  cases o with
  | port k =>
    cases o' with
    | port k' =>
      have hbit := congrArg (fun r => r.2.bmap k) hstart
      have hk : (k == k || false) = (k == k' || false) := hbit
      rw [Bool.or_false, Bool.or_false, beq_self_eq_true] at hk
      have hk : k = k' := eq_of_beq hk.symm
      rw [hk]
    | all => exact absurd (congrArg (fun r => r.2.num) hstart) (Nat.succ_ne_self _)
    | rejected => cases congrArg Prod.fst hstart
  | all =>
    cases o' with
    | port k => exact absurd (congrArg (fun r => r.2.num) hstart) (Nat.succ_ne_self _).symm
    | all => rfl
    | rejected => cases congrArg Prod.fst hstart
  | rejected =>
    cases o' with
    | port k => cases congrArg Prod.fst hstart
    | all => cases congrArg Prod.fst hstart
    | rejected => rfl

/-- A platform whose ports have these numbers, and what is on the stack. -/
def platform (ks : List UInt16) (junk : ℕ) (stack : Inet.InAddr) : Ports :=
  ⟨some (ks.map portName), junk, stack⟩

theorem avail_platform (ks : List UInt16) (junk : ℕ) (stack : Inet.InAddr) (k : ℕ) :
    (platform ks junk stack).avail k = true ↔ k ∈ ks.map UInt16.toNat := by
  have hpid : ∀ p, (platform ks junk stack).pid (portName p) = p.toNat := by
    intro p
    rw [Ports.pid, nameToPid_portName]
    rfl
  have hfold : ∀ (ps : List UInt16) (b : Bitmap),
      (ps.map portName).foldl (fun b name => b.setBit ((platform ks junk stack).pid name)) b k =
        true ↔ k ∈ ps.map UInt16.toNat ∨ b k = true := by
    intro ps
    induction ps with
    | nil => intro b; simp
    | cons p ps ih =>
      intro b
      rw [List.map_cons, List.foldl_cons, ih, hpid, List.map_cons, List.mem_cons]
      simp only [Bitmap.setBit, Bool.or_eq_true, beq_iff_eq]
      tauto
  refine (hfold ks Bitmap.clear).trans ?_
  simp [Bitmap.clear]

/-- The outcome is one that the string asks for. -/
def Honest (ks : List UInt16) (s : String) : Outcome → Prop
  | .port k => k ∈ ks.map UInt16.toNat ∧ s = pidToName k
  | .all => IsWildcard s
  | .rejected => True

/-- A string that is no wildcard leaves a number in `fp_id` that stands for all ports, or that a port
    has whose name is another. -/
def Misread (ks : List UInt16) (junk : ℕ) (s : String) : Prop :=
  ¬ IsWildcard s ∧ ∃ k, Reads junk s.toList k ∧
    (k = portIdSelectAllPorts ∨
      k < maxNumOfPorts ∧ k ∈ ks.map UInt16.toNat ∧ s ≠ pidToName k)

theorem honest_selectEntry_iff (ks : List UInt16) (junk : ℕ) (stack : Inet.InAddr) (s : String) :
    Honest ks s (selectEntry (platform ks junk stack) s) ↔ ¬ Misread ks junk s := by
  by_cases hwild : IsWildcard s
  · have hall : selectEntry (platform ks junk stack) s = .all := by
      have hnum : protoPortNameToNum (platform ks junk stack).junk s = some portIdSelectAllPorts :=
        if_pos hwild
      rw [selectEntry, hnum]
      rfl
    rw [hall]
    exact iff_of_true hwild fun h => h.1 hwild
  · have hreads : ∀ k, Reads junk s.toList k ↔ protoPortNameToNum junk s = some k :=
      fun k => (protoPortNameToNum_iff hwild).symm
    have hjunk : (platform ks junk stack).junk = junk := rfl
    simp only [Misread, hreads, hwild, not_false_eq_true, true_and]
    rw [selectEntry, hjunk]
    cases protoPortNameToNum junk s with
    | none => simp [Honest]
    | some id =>
      simp only [Option.some.injEq, exists_eq_left']
      by_cases hall : id = portIdSelectAllPorts
      · rw [if_pos hall]
        exact iff_of_false hwild fun h => h (Or.inl hall)
      · rw [if_neg hall]
        by_cases hid : id < maxNumOfPorts ∧ id ∈ ks.map UInt16.toNat
        · have htest : (decide (id < maxNumOfPorts) && (platform ks junk stack).avail id) = true := by
            rw [Bool.and_eq_true, decide_eq_true_iff, avail_platform]
            exact hid
          rw [if_pos htest]
          simp only [Honest, hall, hid, false_or, true_and, not_not]
        · have htest : ¬ (decide (id < maxNumOfPorts) && (platform ks junk stack).avail id) = true := by
            rw [Bool.and_eq_true, decide_eq_true_iff, avail_platform]
            exact hid
          rw [if_neg htest]
          refine iff_of_true trivial ?_
          rintro (h | ⟨hlt, hmem, -⟩)
          · exact hall h
          · exact hid ⟨hlt, hmem⟩

/-- Wherever the string stands in the array, the loop does with it what it asks for. -/
def EntryHonest (ports : Ports) (ks : List UInt16) (s : String) : Prop :=
  ∃ o, Honest ks s o ∧ ∀ ps t, selectPortsGo ports (.str s :: ps) t = o.after ports ps t

/-- An entry selects the port that it names, all ports if it is a wildcard, and is refused otherwise,
    exactly if it is not misread. -/
theorem entryHonest_iff (ks : List UInt16) (junk : ℕ) (stack : Inet.InAddr) (s : String) :
    EntryHonest (platform ks junk stack) ks s ↔ ¬ Misread ks junk s := by
  rw [← honest_selectEntry_iff ks junk stack s]
  constructor
  · rintro ⟨o, ho, hrun⟩
    have heq : o = selectEntry (platform ks junk stack) s := after_injective fun t =>
      (hrun [] t).symm.trans (selectPortsGo_entry _ s [] t)
    rwa [← heq]
  · exact fun h => ⟨_, h, selectPortsGo_entry _ s⟩

/-- A number that stands for all ports, a name with more behind the number, and a name cut short with 1
    on the stack. -/
theorem names_misread :
    selectEntry (platform [1, 2] 0 .zero) "Ethernet255" = .all ∧
    selectEntry (platform [1, 2] 0 .zero) "Ethernet65537x" = .port 1 ∧
    selectEntry (platform [1, 2] 1 .zero) "Ethe" = .port 1 ∧
    ¬ EntryHonest (platform [1, 2] 0 .zero) [1, 2] "Ethernet255" := by
  have hall : selectEntry (platform [1, 2] 0 .zero) "Ethernet255" = .all := by decide +kernel
  refine ⟨hall, by decide +kernel, by decide +kernel, ?_⟩
  rintro ⟨o, ho, hrun⟩
  have heq : o = .all := after_injective fun t => by
    rw [← hrun [] t, selectPortsGo_entry, hall]
  rw [heq] at ho
  rcases ho with h | h
  · exact absurd h (by decide)
  · exact absurd h (by decide)

end Ucentral.Proto
