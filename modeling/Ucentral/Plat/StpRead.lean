import Ucentral.Lib.Latest
import Ucentral.Plat.Ports
import Ucentral.Plat.Switch
import Ucentral.Proto.SelectPorts

/-! The spanning tree instances of the VLANs, sent to the switch and read back.

    `gnma_stp_vid_set` sends all attributes of an instance, or only the flag that disables it.
    `gnma_stp_vid_bulk_get` takes every entry for an enabled instance, and reads nothing of it but the
    priority; where `sscanf` stores no number, the one of the entry before is used again, and an entry
    that ends before its number ends the loop with it. -/

namespace Ucentral.Plat
open CJson Parse Effect Latest
open Proto (Scan scanU scanU_value_iff)

variable {δ : Type}

/-! ### What is sent -/

/-- The entry of `gnma_stp_vid_enable`. -/
def stpVidEnableEntry (vid : ℕ) (attr : StpAttr) : Json :=
  .obj [("name", .str (vlanToName vid)), ("enabled", .bool true),
    ("priority", .num (.fin attr.priority)), ("forward_delay", .num (.fin attr.forwardDelay)),
    ("hello_time", .num (.fin attr.helloTime)), ("max_age", .num (.fin attr.maxAge))]

/-- An entry of `gnma_stp_vids_set`. -/
def stpVidsEntry (enable : Bool) (vid : ℕ) : Json :=
  .obj [("name", .str (vlanToName vid)), ("enabled", .bool enable)]

/-- What is set at `/sonic-spanning-tree:sonic-spanning-tree/STP_VLAN`. -/
def stpVlanBody (entries : List Json) : Json :=
  .obj [("sonic-spanning-tree:STP_VLAN", .obj [("STP_VLAN_LIST", .arr entries)])]

/-- The bodies of the requests about single VLANs. -/
def Op.stpVlanBody : Op → Option Json
  | .stpVlanSet vid attr => some (Plat.stpVlanBody [stpVidEnableEntry vid attr])
  | .stpVlanEnabledSet vids enable => some (Plat.stpVlanBody (vids.map (stpVidsEntry enable)))
  | _ => none

/-! ### The entries on the switch -/

/-- The members of the entries, by name. -/
abbrev StpTable := String → Option (List (String × Json))

/-- New members, and the old ones beside them. -/
def mergeMembers (old new : List (String × Json)) : List (String × Json) :=
  new ++ old.filter fun m => !new.any (·.1 == m.1)

/-- An entry that is sent is merged into the one of its name. -/
def StpTable.merge (t : StpTable) (entry : Json) : StpTable :=
  match entry, getStringValue (getItem (some entry) "name") with
  | .obj members, some name => Function.update t name (some (mergeMembers ((t name).getD []) members))
  | _, _ => t

/-- A granted request stores the entries of its body. -/
def StpTable.store (t : StpTable) (op : Op) : StpTable :=
  match op.stpVlanBody with
  | none => t
  | some body =>
    (children (getItem (getItem (some body) "sonic-spanning-tree:STP_VLAN") "STP_VLAN_LIST")).foldl
      StpTable.merge t

/-- The entries in some order. -/
structure StpListing (t : StpTable) where
  names : List String
  mem_iff : ∀ name, name ∈ names ↔ (t name).isSome = true

/-- The entry of a name. -/
def StpTable.entry (t : StpTable) (name : String) : Json := .obj ((t name).getD [])

/-- A reply with entries. -/
def stpReply (entries : List Json) : Ptr :=
  some (.obj [("sonic-spanning-tree:STP_VLAN_LIST", .arr entries)])

def StpListing.reply {t : StpTable} (l : StpListing t) : Ptr := stpReply (l.names.map t.entry)

/-! ### Reading the entries -/

/-- Has the text ended before the number? -/
def endsEarly (name : String) : Bool :=
  match scanU "Vlan".toList name.toList with
  | .eof => true
  | _ => false

/-- The number is read back from the name. -/
theorem scanU_vlanToName (vid : ℕ) :
    scanU "Vlan".toList (vlanToName vid).toList = .value (vid % 65536) := by
  have hprint : scanLu (Decimal.print (vid % 65536)) = some (vid % 65536) := scanLu_print (by omega)
  refine scanU_value_iff.mpr ⟨_, vid % 65536, toList_vlanToName vid, hprint, ?_⟩
  exact (Nat.mod_eq_of_lt (by omega)).symm

theorem vlanToName_inj {u v : ℕ} (hu : u < 65536) (hv : v < 65536) (h : vlanToName u = vlanToName v) :
    u = v := by
  have hscan := scanU_vlanToName u
  rw [h, scanU_vlanToName, Nat.mod_eq_of_lt hu, Nat.mod_eq_of_lt hv] at hscan
  exact (Scan.value.inj hscan).symm

theorem getItem_mergeMembers {old new : List (String × Json)} {key : String} {j : Json}
    (h : getItem (some (.obj new)) key = some j) :
    getItem (some (.obj (mergeMembers old new))) key = some j := by
  unfold getItem mergeMembers at *
  dsimp only at h ⊢
  rw [List.find?_append]
  rcases hfind : new.find? (·.1 == key) with _ | m
  · rw [hfind] at h
    cases h
  · rw [hfind] at h ⊢
    exact h

/-- The entry of a VLAN has its name, and the priority if it was last enabled. -/
structure StpEntryOf (vid : ℕ) (attr : StpAttr) (members : List (String × Json)) : Prop where
  name : getItem (some (.obj members)) "name" = some (.str (vlanToName vid))
  priority : attr.enabled = true →
    getItem (some (.obj members)) "priority" = some (.num (.fin attr.priority))

/-- There are entries of the VLANs that were set, and no others. -/
structure StpTableOf (last : ℕ → Option StpAttr) (t : StpTable) : Prop where
  lt : ∀ vid attr, last vid = some attr → vid < 65536
  entry : ∀ vid attr, last vid = some attr →
    ∃ members, t (vlanToName vid) = some members ∧ StpEntryOf vid attr members
  known : ∀ name, (t name).isSome = true → ∃ vid, name = vlanToName vid ∧ (last vid).isSome = true

/-- The request of a call. -/
def stpVidOp (vid : ℕ) (attr : StpAttr) : Op :=
  if attr.enabled then .stpVlanSet vid attr else .stpVlanEnabledSet [vid] false

theorem store_stpVidOp (t : StpTable) (vid : ℕ) (attr : StpAttr) : ∃ members,
    t.store (stpVidOp vid attr) = Function.update t (vlanToName vid) (some members) ∧
      StpEntryOf vid attr members := by
  unfold stpVidOp
  cases henabled : attr.enabled with
  | true =>
    refine ⟨_, rfl, getItem_mergeMembers rfl, fun _ => getItem_mergeMembers rfl⟩
  | false =>
    refine ⟨_, rfl, getItem_mergeMembers rfl, ?_⟩
    rw [henabled]
    exact nofun

theorem StpTableOf.store {last : ℕ → Option StpAttr} {t : StpTable} (h : StpTableOf last t) {vid : ℕ}
    (hvid : vid < 65536) (attr : StpAttr) :
    StpTableOf (Function.update last vid (some attr)) (t.store (stpVidOp vid attr)) := by
  obtain ⟨members, hstore, hentry⟩ := store_stpVidOp t vid attr
  rw [hstore]
  constructor
  · intro u a hu
    by_cases huv : u = vid
    · rw [huv]
      exact hvid
    · rw [Function.update_of_ne huv] at hu
      exact h.lt u a hu
  · intro u a hu
    by_cases huv : u = vid
    · subst huv
      rw [Function.update_self] at hu
      cases hu
      exact ⟨members, Function.update_self .., hentry⟩
    · rw [Function.update_of_ne huv] at hu
      have hname : vlanToName u ≠ vlanToName vid := fun heq =>
        huv (vlanToName_inj (h.lt u a hu) hvid heq)
      rw [Function.update_of_ne hname]
      exact h.entry u a hu
  · intro name hname
    by_cases hvlan : name = vlanToName vid
    · exact ⟨vid, hvlan, by rw [Function.update_self]; rfl⟩
    · rw [Function.update_of_ne hvlan] at hname
      obtain ⟨u, rfl, hu⟩ := h.known name hname
      have huv : u ≠ vid := by
        rintro rfl
        exact hvlan rfl
      exact ⟨u, rfl, by rwa [Function.update_of_ne huv]⟩

/-- The number of an entry, if `sscanf` stores one. -/
def stpNumber (iter : Json) : Option ℕ :=
  match scanU "Vlan".toList ((getStringValue (getItem (some iter) "name")).getD "").toList with
  | .value n => some n
  | _ => none

/-- The loop ends at an entry without a name, or whose name ends before the number. -/
def stpEnds (iter : Json) : Bool := endsEarly ((getStringValue (getItem (some iter) "name")).getD "")

/-- The priority in the last of the entries that are read for a VLAN. -/
def told (reads : List (ℕ × ℕ)) (vid : ℕ) : Option ℕ :=
  ((reads.filter fun r => r.1 == vid).getLast?).map Prod.snd

section Entries

variable {size p : ℕ}

/-- An entry that is read under the number of the one before it. -/
def noNumber (iter : Json) : Bool := (stpNumber iter).isNone && !stpEnds iter

variable {rest : List Json}

end Entries

end Ucentral.Plat
