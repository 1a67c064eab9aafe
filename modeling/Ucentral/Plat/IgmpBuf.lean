import Ucentral.Lib.Block
import Ucentral.Lib.CString
import Ucentral.Lib.Inet
import Ucentral.Lib.Json

/-! The IGMP groups of a VLAN, by way of a text.

    `gnma_igmp_iface_groups_get` prints the groups of an answer into the buffer of its caller, who asks
    for the size first and for the text then. It copies one byte less than the buffer has, however long
    the text is:

        text      [ . . . ]          length L
        size L    [ . . .            the last byte is missing
        size L+1  [ . . . ]          and the zero of the buffer
        size L+2  [ . . . ] 0        and that of the text
        beyond    [ . . . ] 0 ?      what is behind the text -/

namespace Ucentral.Plat.IgmpBuf
open CJson

/-! ### The two functions -/

/-- What `cJSON_PrintUnformatted` gives, if it finds memory for it, is a C string and not empty. -/
structure Prints (print : Json → Option (List UInt8)) : Prop where
  nonempty : ∀ {v t}, print v = some t → t ≠ []
  nul : ∀ {v t}, print v = some t → 0 ∉ t

def groupsOf (root : Ptr) : Ptr :=
  let groups := getItem root "openconfig-network-instance-deviation:interface"
  let groups := getArrayItem groups 0
  let groups := getItem groups "staticgrps"
  getItem groups "static-multicast-group"

/-- What `gnma_igmp_iface_groups_get` returns, and leaves in `*out_buf_size` and `out_buf`. -/
structure GroupsRet where
  ret : ℤ
  size : ℕ
  buf : Option (Block UInt8)

/-- `gnma_igmp_iface_groups_get`; none where it reads or writes outside of the blocks. The answer is none
    if there is none that can be parsed. -/
def gnmaIgmpIfaceGroupsGet (print : Json → Option (List UInt8)) (root : Ptr)
    (buf : Option (Block UInt8)) (size : ℕ) : Option GroupsRet :=
  match root with
  | none => some ⟨-1, size, buf⟩
  | some root =>
    let groups := groupsOf (some root)
    if getArraySize groups = 0 then some ⟨0, 0, buf⟩
    else
      match groups.bind print with
      | none => some ⟨-1, size, buf⟩
      | some json =>
        if size < json.length then some ⟨-2, json.length + 1, buf⟩
        else do
          let out ← buf
          let out ← (Block.holding (json ++ [0])).copy out (size - 1)
          return ⟨0, size, some out⟩

/-- A `calloc` of so many bytes. -/
def zeros (n : ℕ) : Block UInt8 := Block.holding (List.replicate n 0)

/-- The first half of `plat_vlan_igmp_info_get`: the text that it parses, or what it returns before. -/
def platIgmpText (print : Json → Option (List UInt8)) (calloc : Bool) (first second : Ptr) :
    Option (ℤ ⊕ List UInt8) := do
  let r ← gnmaIgmpIfaceGroupsGet print first none 0
  if r.ret = 0 ∧ r.size = 0 then return .inl 0
  else if r.ret ≠ -2 then return .inl (-1)
  else if !calloc then return .inl (-1)
  else
    let t ← gnmaIgmpIfaceGroupsGet print second (some (zeros r.size)) r.size
    if t.ret ≠ 0 then return .inl (-1)
    else
      let buf ← t.buf
      let text ← buf.readText
      return .inr text

/-- A group: `addr`, and the names of `egress_ports_list`. -/
structure Group where
  addr : Inet.InAddr
  egressPortsList : List (List UInt8)

/-- The loop over `outgoing-interface`; `calloc` tells which of the nodes there is memory for. -/
def fillPorts (calloc : ℕ → Bool) : ℕ → List Json → List (List UInt8) → Option (List (List UInt8))
  | _, [], ports => some ports
  | i, iface :: ifaces, ports =>
    match getStringValue (some iface) with
    | none => none
    | some name =>
      if calloc i then fillPorts calloc (i + 1) ifaces (CString.strncpy 32 name :: ports) else none

/-- The loop over the groups. -/
def fillGroups (calloc : ℕ → ℕ → Bool) : ℕ → List Json → Option (List Group)
  | _, [] => some []
  | i, group :: groups => do
    let state := getItem (some group) "state"
    if !isObject state then none
    else
      let gaddr ← getStringValue (getItem state "group")
      let ifaces := getItem state "outgoing-interface"
      if !isArray ifaces then none
      else
        let addr ← Inet.inetPton gaddr.toList
        let ports ← fillPorts (calloc i) 0 (children ifaces) []
        let rest ← fillGroups calloc (i + 1) groups
        return ⟨addr, ports⟩ :: rest

/-- `plat_vlan_igmp_info_get`: what it returns, and the groups if it fills them in; `calloc` tells what
    there is memory for: the text, the groups, and the ports of a group. -/
def platVlanIgmpInfoGet (parse : List UInt8 → Ptr) (print : Json → Option (List UInt8))
    (calloc : Bool × Bool × (ℕ → ℕ → Bool)) (first second : Ptr) :
    Option (ℤ × Option (List Group)) := do
  match ← platIgmpText print calloc.1 first second with
  | .inl ret => return (ret, none)
  | .inr text =>
    match parse text with
    | none => return (-1, none)
    | some groups =>
      if !calloc.2.1 then return (-1, none)
      else
        match fillGroups calloc.2.2 0 (children (some groups)) with
        | none => return (-1, none)
        | some l => return (0, some l)

/-! ### What is promised -/

/-- The printed groups of an answer, if it has any. -/
def groupsText (print : Json → Option (List UInt8)) (root : Ptr) : Option (List UInt8) :=
  if getArraySize (groupsOf root) = 0 then none else (groupsOf root).bind print

/-- The block begins with the text and a NUL. -/
def HoldsText (out : Block UInt8) (text : List UInt8) : Prop :=
  ∃ rest, out = Block.holding text ++ some 0 :: rest

/-- Nothing outside of the blocks is read or written, and with `GNMA_OK` the buffer holds the printed
    groups, if there are any. -/
def Delivers (print : Json → Option (List UInt8)) (root : Ptr) (size : ℕ) : Prop :=
  ∃ r, gnmaIgmpIfaceGroupsGet print root (some (zeros size)) size = some r ∧
    (r.ret = 0 → ∀ text, groupsText print root = some text →
      ∃ out, r.buf = some out ∧ HoldsText out text)

/-- The buffer is too small for the groups, or it is theirs with a NUL, or has one byte more. -/
def Fits (print : Json → Option (List UInt8)) (root : Ptr) (size : ℕ) : Prop :=
  ∀ text, groupsText print root = some text →
    size < text.length ∨ size = text.length + 1 ∨ size = text.length + 2

/-! ### One call -/

section Call

variable {print : Json → Option (List UInt8)} {root : Ptr}

/-- Without groups that are printed, the call ends before the copy. -/
theorem groupsGet_none (h : groupsText print root = none) (buf : Option (Block UInt8)) (size : ℕ) :
    gnmaIgmpIfaceGroupsGet print root buf size = some ⟨-1, size, buf⟩ ∨
      gnmaIgmpIfaceGroupsGet print root buf size = some ⟨0, 0, buf⟩ := by
  unfold groupsText at h
  cases root with
  | none => exact Or.inl rfl
  | some root =>
    unfold gnmaIgmpIfaceGroupsGet
    by_cases hempty : getArraySize (groupsOf (some root)) = 0
    · dsimp only
      rw [if_pos hempty]
      exact Or.inr rfl
    · rw [if_neg hempty] at h
      dsimp only
      rw [if_neg hempty, h]
      exact Or.inl rfl

theorem groupsGet_some {text : List UInt8} (h : groupsText print root = some text)
    (buf : Option (Block UInt8)) (size : ℕ) : gnmaIgmpIfaceGroupsGet print root buf size =
      if size < text.length then some ⟨-2, text.length + 1, buf⟩
      else do
        let out ← buf
        let out ← (Block.holding (text ++ [0])).copy out (size - 1)
        return ⟨0, size, some out⟩ := by
  unfold groupsText at h
  cases root with
  | none => cases h
  | some root =>
    by_cases hempty : getArraySize (groupsOf (some root)) = 0
    · rw [if_pos hempty] at h
      cases h
    · rw [if_neg hempty] at h
      unfold gnmaIgmpIfaceGroupsGet
      dsimp only
      rw [if_neg hempty, h]

theorem printed_of_groupsText {text : List UInt8} (h : groupsText print root = some text) :
    ∃ v, print v = some text := by
  unfold groupsText at h
  split at h
  · cases h
  · obtain ⟨v, -, hv⟩ := Option.bind_eq_some_iff.mp h
    exact ⟨v, hv⟩

/-- What the copy into a buffer of zeros leaves, if it stays in the text and its NUL. -/
theorem copy_zeros (text : List UInt8) {size : ℕ} (hsize : size ≠ 0) :
    (Block.holding (text ++ [0])).copy (zeros size) (size - 1) =
      if size ≤ text.length + 2 then some (Block.holding ((text ++ [0]).take (size - 1) ++ [0]))
      else none := by
  have hlen : (Block.holding (text ++ [0])).length = text.length + 1 := by
    rw [Block.length_holding, List.length_append, List.length_singleton]
  have hzeros : (zeros size).length = size := by
    rw [zeros, Block.length_holding, List.length_replicate]
  have hlast : (zeros size).drop (size - 1) = Block.holding [0] := by
    have hone : size - (size - 1) = 1 := by omega
    rw [zeros, Block.holding, ← List.map_drop, List.drop_replicate, hone]
    rfl
  unfold Block.copy
  rw [hlen, hzeros, hlast]
  by_cases hroom : size ≤ text.length + 2
  · rw [if_pos hroom, if_pos (by omega), Block.holding, ← List.map_take, Block.holding,
      ← List.map_append]
    rfl
  · rw [if_neg hroom, if_neg (by omega)]

/-- The copy leaves the text and a NUL exactly in a buffer of the right size. -/
theorem holdsText_take (text : List UInt8) {size : ℕ} (hge : text.length ≤ size)
    (hle : size ≤ text.length + 2) (hsize : size ≠ 0) :
    HoldsText (Block.holding ((text ++ [0]).take (size - 1) ++ [0])) text ↔
      size = text.length + 1 ∨ size = text.length + 2 := by
  constructor
  · rintro ⟨rest, hrest⟩
    have hlen := congrArg List.length hrest
    simp only [Block.length_holding, List.length_append, List.length_take, List.length_cons,
      List.length_nil] at hlen
    omega
  · rintro (rfl | rfl)
    · refine ⟨[], ?_⟩
      rw [Nat.add_sub_cancel, List.take_left, Block.holding, List.map_append]
      rfl
    · refine ⟨[some 0], ?_⟩
      have hall : text.length + 2 - 1 = (text ++ [0]).length := by simp
      rw [hall, List.take_length, Block.holding, List.map_append, List.map_append, List.append_assoc]
      rfl

/-- A buffer that is not too small: the call copies, or leaves the text and its NUL. -/
theorem groupsGet_copies {text : List UInt8} (h : groupsText print root = some text) {size : ℕ}
    (hge : text.length ≤ size) (hsize : size ≠ 0) :
    gnmaIgmpIfaceGroupsGet print root (some (zeros size)) size =
      if size ≤ text.length + 2 then
        some ⟨0, size, some (Block.holding ((text ++ [0]).take (size - 1) ++ [0]))⟩
      else none := by
  rw [groupsGet_some h, if_neg (Nat.not_lt.mpr hge)]
  simp only [Option.bind_eq_bind, Option.bind_some, copy_zeros text hsize]
  split <;> rfl

theorem delivers_iff_fits (hprint : Prints print) (root : Ptr) (size : ℕ) :
    Delivers print root size ↔ Fits print root size := by
  unfold Delivers Fits
  cases htext : groupsText print root with
  | none =>
    refine iff_of_true ?_ (fun _ h => by cases h)
    rcases groupsGet_none htext (some (zeros size)) size with h | h
    · exact ⟨_, h, fun _ _ h => by cases h⟩
    · exact ⟨_, h, fun _ _ h => by cases h⟩
  | some text =>
    obtain ⟨v, hv⟩ := printed_of_groupsText htext
    have hne : 0 < text.length := List.length_pos_of_ne_nil (hprint.nonempty hv)
    simp only [Option.some.injEq, forall_eq']
    by_cases hlt : size < text.length
    · refine iff_of_true ⟨⟨-2, text.length + 1, some (zeros size)⟩, ?_, nofun⟩ (Or.inl hlt)
      rw [groupsGet_some htext, if_pos hlt]
    · have hge : text.length ≤ size := Nat.not_lt.mp hlt
      have hsize : size ≠ 0 := by omega
      rw [groupsGet_copies htext hge hsize]
      by_cases hroom : size ≤ text.length + 2
      · rw [if_pos hroom, or_iff_right hlt, ← holdsText_take text hge hroom hsize]
        simp
      · rw [if_neg hroom]
        refine iff_of_false ?_ (by omega)
        rintro ⟨r, hr, -⟩
        cases hr

/-! ### Two calls -/

/-- With groups in both answers, the text that is parsed is that of the second one exactly if this is as
    long as the first, or one byte shorter. -/
theorem platIgmpText_iff (hprint : Prints print) {first second : Ptr}
    {t₁ t₂ : List UInt8}
    (h₁ : groupsText print first = some t₁) (h₂ : groupsText print second = some t₂) :
    platIgmpText print true first second = some (.inr t₂) ↔
      t₂.length = t₁.length ∨ t₂.length + 1 = t₁.length := by
  obtain ⟨v₁, hv₁⟩ := printed_of_groupsText h₁
  obtain ⟨v₂, hv₂⟩ := printed_of_groupsText h₂
  have hne : 0 < t₁.length := List.length_pos_of_ne_nil (hprint.nonempty hv₁)
  have hfirst : gnmaIgmpIfaceGroupsGet print first none 0 = some ⟨-2, t₁.length + 1, none⟩ := by
    rw [groupsGet_some h₁, if_pos hne]
  unfold platIgmpText
  simp only [hfirst, Option.bind_eq_bind, Option.bind_some]
  by_cases hlt : t₁.length + 1 < t₂.length
  · rw [groupsGet_some h₂, if_pos hlt]
    refine iff_of_false ?_ (by omega)
    simp
  · have hge : t₂.length ≤ t₁.length + 1 := Nat.not_lt.mp hlt
    rw [groupsGet_copies h₂ hge (Nat.succ_ne_zero _)]
    by_cases hroom : t₁.length + 1 ≤ t₂.length + 2
    · have hholds := holdsText_take t₂ hge hroom (Nat.succ_ne_zero _)
      have hread : (Block.holding ((t₂ ++ [0]).take (t₁.length + 1 - 1) ++ [0])).readText = some t₂ ↔
          t₁.length + 1 = t₂.length + 1 ∨ t₁.length + 1 = t₂.length + 2 := by
        rw [Block.readText_eq_some_iff, and_iff_right (hprint.nul hv₂)]
        exact hholds
      have hparsed : (∃ a, (Block.holding ((t₂ ++ [0]).take (t₁.length + 1 - 1) ++ [0])).readText =
          some a ∧ a = t₂) ↔ t₂.length = t₁.length ∨ t₂.length + 1 = t₁.length := by
        rw [exists_eq_right, hread]
        omega
      rw [if_pos hroom, ← hparsed]
      simp [Option.bind_eq_some_iff]
    · rw [if_neg hroom]
      exact iff_of_false (by simp) (by omega)

/-- A parser that reads the printed groups back then gives the groups of the second answer, and these are
    filled in. -/
theorem platVlanIgmpInfoGet_second (hprint : Prints print) {parse : List UInt8 → Ptr} {first second : Ptr}
    {t₁ t₂ : List UInt8} (h₁ : groupsText print first = some t₁) (h₂ : groupsText print second = some t₂)
    (hlen : t₂.length = t₁.length ∨ t₂.length + 1 = t₁.length) (hparse : parse t₂ = groupsOf second)
    (calloc : ℕ → ℕ → Bool) :
    platVlanIgmpInfoGet parse print (true, true, calloc) first second =
      match fillGroups calloc 0 (children (groupsOf second)) with
      | none => some (-1, none)
      | some l => some (0, some l) := by
  have htext := (platIgmpText_iff hprint h₁ h₂).mpr hlen
  cases hgroups : groupsOf second with
  | none =>
    unfold groupsText at h₂
    rw [hgroups] at h₂
    cases h₂
  | some groups =>
    unfold platVlanIgmpInfoGet
    simp only [htext, hparse, hgroups, Option.bind_eq_bind, Option.bind_some]
    cases fillGroups calloc 0 (children (some groups)) <;> rfl

/-- Groups that are gone in the second answer: the buffer stays as `calloc` leaves it, and its empty text
    cannot be parsed. The function fails then, while it is content if the first answer has none. -/
theorem platVlanIgmpInfoGet_gone (hprint : Prints print) {parse : List UInt8 → Ptr}
    (hparse : parse [] = none) {gone : Json} (hgone : getArraySize (groupsOf (some gone)) = 0)
    (calloc : Bool × Bool × (ℕ → ℕ → Bool)) :
    (∀ first t, groupsText print first = some t →
      platVlanIgmpInfoGet parse print calloc first (some gone) = some (-1, none)) ∧
    ∀ second, platVlanIgmpInfoGet parse print calloc (some gone) second = some (0, none) := by
  have hnone : ∀ (buf : Option (Block UInt8)) (size : ℕ),
      gnmaIgmpIfaceGroupsGet print (some gone) buf size = some ⟨0, 0, buf⟩ := by
    intro buf size
    rw [gnmaIgmpIfaceGroupsGet]
    exact if_pos hgone
  refine ⟨fun first t ht => ?_, fun second => ?_⟩
  · obtain ⟨v, hv⟩ := printed_of_groupsText ht
    have hne : 0 < t.length := List.length_pos_of_ne_nil (hprint.nonempty hv)
    have hfirst : gnmaIgmpIfaceGroupsGet print first none 0 = some ⟨-2, t.length + 1, none⟩ := by
      rw [groupsGet_some ht, if_pos hne]
    have hempty : (zeros (t.length + 1)).readText = some [] :=
      Block.readText_eq_some_iff.mpr ⟨List.not_mem_nil, _, rfl⟩
    unfold platVlanIgmpInfoGet platIgmpText
    cases hcalloc : calloc.1 <;> simp [hfirst, hnone, hempty, hparse]
  · unfold platVlanIgmpInfoGet platIgmpText
    simp [hnone]

end Call

/-- The buffer holds the printed groups after every call exactly if its size is right for them. The text
    that `plat_vlan_igmp_info_get` parses is that of the second answer exactly if the list has kept its
    length or lost one byte in between. -/
theorem groupsGet_delivers_iff {print : Json → Option (List UInt8)} (hprint : Prints print) :
    (∀ (root : Ptr) (size : ℕ), Delivers print root size ↔ Fits print root size) ∧
    ∀ (first second : Ptr) (t₁ t₂ : List UInt8), groupsText print first = some t₁ →
      groupsText print second = some t₂ →
      (platIgmpText print true first second = some (.inr t₂) ↔
        t₂.length = t₁.length ∨ t₂.length + 1 = t₁.length) :=
  ⟨delivers_iff_fits hprint, fun _ _ _ _ => platIgmpText_iff hprint⟩

/-! ### A list that changes -/

/-- An answer with one group, which goes to no port. -/
def oneGroup (group : String) : Ptr :=
  some (.obj [("openconfig-network-instance-deviation:interface", .arr [.obj [("staticgrps",
    .obj [("static-multicast-group", .arr [.obj [("state",
      .obj [("group", .str group), ("outgoing-interface", .arr [])])]])])]])])

/-- How a list with one such group is printed. -/
def printGroup : Json → Option (List UInt8)
  | .arr [.obj [(_, .obj [(_, .str group), _])]] =>
    some ("[\x7b\"state\":\x7b\"group\":\"".toList.map Char.toUInt8 ++ CString.bytes group ++
      "\",\"outgoing-interface\":[]\x7d\x7d]".toList.map Char.toUInt8)
  | _ => some ("[]".toList.map Char.toUInt8)

theorem prints_printGroup : Prints printGroup := by
  constructor
  · intro v t h
    unfold printGroup at h
    split at h
    · cases h
      simp
    · cases h
      simp
  · intro v t h
    unfold printGroup at h
    split at h
    · cases h
      rw [List.mem_append, List.mem_append, not_or, not_or]
      refine ⟨⟨by decide, fun hmem => ?_⟩, by decide⟩
      exact absurd (CString.ne_zero_of_mem_bytes hmem) (by decide)
    · cases h
      decide

theorem groupsGet_delivers_iff_oneGroup :
    (Delivers printGroup (oneGroup "224.1.2.3") 58 ↔ Fits printGroup (oneGroup "224.1.2.3") 58) ∧
    ∃ t₁ t₂, groupsText printGroup (oneGroup "224.1.2.34") = some t₁ ∧
      groupsText printGroup (oneGroup "224.1.2.3") = some t₂ ∧
      (platIgmpText printGroup true (oneGroup "224.1.2.34") (oneGroup "224.1.2.3") = some (.inr t₂) ↔
        t₂.length = t₁.length ∨ t₂.length + 1 = t₁.length) :=
  ⟨(groupsGet_delivers_iff prints_printGroup).1 _ _, _, _, rfl, rfl,
    (groupsGet_delivers_iff prints_printGroup).2 _ _ _ _ rfl rfl⟩

theorem length_oneGroup :
    (groupsText printGroup (oneGroup "224.1.2.3")).map List.length = some 57 ∧
    (groupsText printGroup (oneGroup "224.1.2.34")).map List.length = some 58 := by
  decide +kernel

/-- A buffer as long as the text loses its last byte, and so does a text that has grown by one. -/
theorem groups_cut_short : (¬ ∀ (root : Ptr) (size : ℕ), Delivers printGroup root size) ∧
    ¬ ∀ (first second : Ptr) (t₁ t₂ : List UInt8), groupsText printGroup first = some t₁ →
      groupsText printGroup second = some t₂ →
      platIgmpText printGroup true first second = some (.inr t₂) := by
  obtain ⟨⟨t₁, h₁, hlen₁⟩, t₂, h₂, hlen₂⟩ := length_oneGroup.imp Option.map_eq_some_iff.mp
    Option.map_eq_some_iff.mp
  constructor
  · intro h
    have hfits := (delivers_iff_fits prints_printGroup _ _).mp (h (oneGroup "224.1.2.3") 57) t₁ h₁
    omega
  · intro h
    have hlen := (platIgmpText_iff prints_printGroup h₁ h₂).mp (h _ _ t₁ t₂ h₁ h₂)
    omega

end Ucentral.Plat.IgmpBuf
