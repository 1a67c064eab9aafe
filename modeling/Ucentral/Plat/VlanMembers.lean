import Ucentral.Lib.Json
import Ucentral.Lib.Parser
import Ucentral.Plat.PortCache
import Ucentral.Plat.Vlans

/-! The members of a VLAN: what the switch lists, the changes of `plat_vlan_memberlist_set`, and the
    members that are left when the changes are made.

    The switch may have ports that no configuration can name: `gnma_vlan_member_bmap_get` takes them
    below `GNMA_MAX_PORT_ID`, the change set stops at `MAX_NUM_OF_PORTS`. -/

namespace Ucentral.Plat
open CJson Parse

def gnmaMaxPortId : ℕ := 256

/-! ### Reading the members -/

/-- `sscanf(vlan_name, "Vlan%hu", &vid)`. -/
def nameToVlan (name : String) : Option ℕ :=
  let cs := name.toList
  if cs.take 4 = "Vlan".toList then scanHu (cs.drop 4) else none

namespace VlanMemberBmap

/-- `calloc` -/
def zeroed : VlanMemberBmap := ⟨fun _ => Bitmap.clear, fun _ => Bitmap.clear⟩

/-- One member more. -/
def add (m : VlanMemberBmap) (vid pid : ℕ) (tagged : Bool) : VlanMemberBmap where
  portMember := Function.update m.portMember vid ((m.portMember vid).setBit pid)
  portTagged :=
    if tagged then Function.update m.portTagged vid ((m.portTagged vid).setBit pid) else m.portTagged

end VlanMemberBmap

/-- The rest of an entry whose names are both read. -/
def vlanMemberStore (vid pid : ℕ) (tagged : Ptr) : Parser VlanMemberBmap Unit := do
  need (decide (vid < maxVlans))
  need (decide (pid < gnmaMaxPortId))
  Parser.fill fun m => m.add vid pid (decide (getStringValue tagged = some "tagged"))

/-- The interface of an entry. One that is no `Ethernet<k>` is passed over. -/
def vlanMemberPort (vid : ℕ) (member : Json) : Parser VlanMemberBmap Unit := do
  let memberName := getStringValue (getItem (some member) "ifname")
  let tagged := getItem (some member) "tagging_mode"
  need memberName.isSome
  need (isString tagged)
  match nameToPid (memberName.getD "") with
  | none => return ()
  | some pid => vlanMemberStore vid pid tagged

/-- One turn of the loop over the entries. -/
def vlanMemberEntry (member : Json) : Parser VlanMemberBmap Unit := do
  let vlanName := getStringValue (getItem (some member) "name")
  need vlanName.isSome
  match nameToVlan (vlanName.getD "") with
  | none => return ()
  | some vid => vlanMemberPort vid member

/-- `gnma_vlan_member_bmap_get`; without a reply, or with one that is not JSON, it fails. -/
def gnmaVlanMemberBmapGet (reply : Ptr) : Parser VlanMemberBmap Unit := do
  let membersArr := getItem reply "sonic-vlan:VLAN_MEMBER_LIST"
  need reply.isSome
  Parser.when (isArray membersArr) (forM (children membersArr) vlanMemberEntry)

/-! ### The members on the switch -/

/-- The tagging mode of the members, by VLAN and interface. -/
abbrev Members := ℕ → String → Option Bool

/-- A member as the getter can take it. -/
structure MemberEntry where
  vid : ℕ
  port : ℕ
  tagged : Bool
  vid_lt : vid < maxVlans
  port_lt : port < gnmaMaxPortId

/-- Its entry in the reply. -/
def MemberEntry.json (e : MemberEntry) : Json :=
  .obj [("name", .str (vlanToName e.vid)), ("ifname", .str (pidToName e.port)),
    ("tagging_mode", .str (if e.tagged then "tagged" else "untagged"))]

def memberReply (entries : List MemberEntry) : Ptr :=
  some (.obj [("sonic-vlan:VLAN_MEMBER_LIST", .arr (entries.map MemberEntry.json))])

/-- The entries, in whatever order, are the members. -/
def Lists (entries : List MemberEntry) (t : Members) : Prop :=
  ∀ vid name tagged, t vid name = some tagged ↔
    ∃ e ∈ entries, e.vid = vid ∧ pidToName e.port = name ∧ e.tagged = tagged

/-- One change made. To create a member that is there changes its tagging mode. -/
def VlanChange.make (t : Members) : VlanChange → Members
  | .vlanCreate _ => t
  | .memberRemove vid port => Function.update t vid (Function.update (t vid) port none)
  | .memberCreate vid port tagged =>
    Function.update t vid (Function.update (t vid) port (some tagged))

def VlanChange.isDelete : VlanChange → Bool
  | .memberRemove _ _ => true
  | _ => false

/-- One set request: the deletes come before the updates. -/
def makeChanges (t : Members) (changes : List VlanChange) : Members :=
  (changes.filter (!·.isDelete)).foldl VlanChange.make
    ((changes.filter (·.isDelete)).foldl VlanChange.make t)

/-! ### What the getter reads -/

theorem nameToVlan_vlanToName (v : ℕ) : nameToVlan (vlanToName v) = some (v % 65536) := by
  have hlen : "Vlan".toList.length = 4 := rfl
  unfold nameToVlan
  simp only [toList_vlanToName]
  rw [List.take_left' hlen, List.drop_left' hlen, if_pos rfl, scanHu, scanLu_print (by omega)]
  simp

theorem vlanMemberEntry_json (e : MemberEntry) (m : VlanMemberBmap) :
    vlanMemberEntry e.json m = (.ok (), m.add e.vid e.port e.tagged) := by
  have hvid : e.vid % 65536 = e.vid := Nat.mod_eq_of_lt (e.vid_lt.trans (by decide))
  have hport : e.port % 65536 = e.port := Nat.mod_eq_of_lt (e.port_lt.trans (by decide))
  have htagged : decide (getStringValue (some (.str (if e.tagged then "tagged" else "untagged"))) =
      some "tagged") = e.tagged := by
    cases e.tagged <;> decide
  have hname : getItem (some e.json) "name" = some (.str (vlanToName e.vid)) := rfl
  have hifname : getItem (some e.json) "ifname" = some (.str (pidToName e.port)) := rfl
  have hmode : getItem (some e.json) "tagging_mode" =
    some (.str (if e.tagged then "tagged" else "untagged")) := rfl
  unfold vlanMemberEntry vlanMemberPort vlanMemberStore
  simp only [hname, hifname, hmode, getStringValue, isString, Option.getD_some, Option.isSome_some,
    nameToVlan_vlanToName, nameToPid_pidToName, hvid, hport, need_bind, if_true, e.vid_lt, e.port_lt,
    decide_true]
  exact congrArg (fun b => (Except.ok (), m.add e.vid e.port b)) htagged

theorem forM_vlanMemberEntry (entries : List MemberEntry) (m : VlanMemberBmap) :
    forM (entries.map MemberEntry.json) vlanMemberEntry m =
      (.ok (), entries.foldl (fun m e => m.add e.vid e.port e.tagged) m) := by
  induction entries generalizing m with
  | nil => rfl
  | cons e entries ih =>
    rw [List.map_cons, List.forM_cons, Parser.bind_of_ok (vlanMemberEntry_json e m), ih]
    rfl

theorem gnmaVlanMemberBmapGet_reply (entries : List MemberEntry) :
    gnmaVlanMemberBmapGet (memberReply entries) VlanMemberBmap.zeroed =
      (.ok (), entries.foldl (fun m e => m.add e.vid e.port e.tagged) VlanMemberBmap.zeroed) :=
  forM_vlanMemberEntry entries _

theorem portMember_add {m : VlanMemberBmap} {vid pid v k : ℕ} {tagged : Bool} :
    (m.add vid pid tagged).portMember v k = true ↔ (vid = v ∧ pid = k) ∨ m.portMember v k = true := by
  unfold VlanMemberBmap.add Bitmap.setBit
  by_cases hv : v = vid
  · subst hv
    simp [@eq_comm _ pid k]
  · simp [hv, Ne.symm hv]

theorem portTagged_add {m : VlanMemberBmap} {vid pid v k : ℕ} {tagged : Bool} :
    (m.add vid pid tagged).portTagged v k = true ↔
      (vid = v ∧ pid = k ∧ tagged = true) ∨ m.portTagged v k = true := by
  unfold VlanMemberBmap.add Bitmap.setBit
  cases tagged
  · simp
  · by_cases hv : v = vid
    · subst hv
      simp [@eq_comm _ pid k]
    · simp [hv, Ne.symm hv]

/-- The bits of all the entries. -/
theorem foldl_memberAdd (entries : List MemberEntry) (m : VlanMemberBmap) (v k : ℕ) :
    ((entries.foldl (fun m e => m.add e.vid e.port e.tagged) m).portMember v k = true ↔
      (∃ e ∈ entries, e.vid = v ∧ e.port = k) ∨ m.portMember v k = true) ∧
    ((entries.foldl (fun m e => m.add e.vid e.port e.tagged) m).portTagged v k = true ↔
      (∃ e ∈ entries, e.vid = v ∧ e.port = k ∧ e.tagged = true) ∨ m.portTagged v k = true) := by
  induction entries generalizing m with
  | nil => simp
  | cons e entries ih =>
    rw [List.foldl_cons, (ih _).1, (ih _).2, portMember_add, portTagged_add]
    constructor
    · rw [List.exists_mem_cons_iff, or_left_comm, or_assoc]
    · rw [List.exists_mem_cons_iff, or_left_comm, or_assoc]

/-- The bitmaps say of each port that can have a name what the switch says. -/
structure Shows (m : VlanMemberBmap) (t : Members) : Prop where
  member : ∀ vid k, k < 65536 → (m.portMember vid k = true ↔ ∃ tagged, t vid (pidToName k) = some tagged)
  tagged : ∀ vid k, k < 65536 → (m.portTagged vid k = true ↔ t vid (pidToName k) = some true)

theorem shows_reply {entries : List MemberEntry} {t : Members} (h : Lists entries t) :
    Shows (entries.foldl (fun m e => m.add e.vid e.port e.tagged) VlanMemberBmap.zeroed) t := by
  have hname : ∀ (e : MemberEntry) k, k < 65536 → (pidToName e.port = pidToName k ↔ e.port = k) := by
    intro e k hk
    exact ⟨pidToName_inj (e.port_lt.trans (by decide)) hk, fun heq => by rw [heq]⟩
  constructor
  · intro vid k hk
    rw [(foldl_memberAdd entries _ vid k).1]
    simp only [VlanMemberBmap.zeroed, Bitmap.clear, Bool.false_eq_true, or_false, h vid, hname _ k hk]
    constructor
    · rintro ⟨e, he, hvid, hport⟩
      exact ⟨e.tagged, e, he, hvid, hport, rfl⟩
    · rintro ⟨_, e, he, hvid, hport, -⟩
      exact ⟨e, he, hvid, hport⟩
  · intro vid k hk
    rw [(foldl_memberAdd entries _ vid k).2, h vid]
    simp [VlanMemberBmap.zeroed, Bitmap.clear, hname _ k hk]

/-! ### What is wanted -/

/-- The list has the port, under whatever spelling of its number. -/
def Wanted (members : List VlanMember) (k : ℕ) : Prop := ∃ pv ∈ members, nameToPid pv.name = some k

/-- One of its entries says that the port is tagged. -/
def WantedTagged (members : List VlanMember) (k : ℕ) : Prop :=
  ∃ pv ∈ members, nameToPid pv.name = some k ∧ pv.tagged = true

/-- The members are those of the list, tagged where it says so. -/
def AsWanted (members : List VlanMember) (t : String → Option Bool) : Prop :=
  ∀ name tagged, t name = some tagged ↔
    ∃ k, pidToName k = name ∧ Wanted members k ∧ (tagged = true ↔ WantedTagged members k)

theorem wanted_cons {pv : VlanMember} {members : List VlanMember} {k : ℕ} :
    Wanted (pv :: members) k ↔ nameToPid pv.name = some k ∨ Wanted members k :=
  List.exists_mem_cons_iff ..

theorem wantedTagged_cons {pv : VlanMember} {members : List VlanMember} {k : ℕ} :
    WantedTagged (pv :: members) k ↔
      (nameToPid pv.name = some k ∧ pv.tagged = true) ∨ WantedTagged members k :=
  List.exists_mem_cons_iff ..

/-- The fold over the list, from any bits. -/
theorem foldlM_members {members : List VlanMember} (hports : ∀ pv ∈ members, PortFits pv.name)
    (b : Bitmap × Bitmap) : ∃ b' : Bitmap × Bitmap,
      members.foldlM (fun b pv => (nameToPid pv.name).map fun pid =>
        (b.1.setBit pid, if pv.tagged then b.2.setBit pid else b.2)) b = some b' ∧
      (∀ k, b'.1 k = true ↔ Wanted members k ∨ b.1 k = true) ∧
      ∀ k, b'.2 k = true ↔ WantedTagged members k ∨ b.2 k = true := by
  induction members generalizing b with
  | nil => exact ⟨b, rfl, by simp [Wanted], by simp [WantedTagged]⟩
  | cons pv members ih =>
    obtain ⟨pid, hpid, -⟩ := hports pv List.mem_cons_self
    obtain ⟨b', hrun, hmember, htagged⟩ := ih (fun pv hpv => hports pv (List.mem_cons_of_mem _ hpv))
      (b.1.setBit pid, if pv.tagged then b.2.setBit pid else b.2)
    refine ⟨b', ?_, ?_, ?_⟩
    · rw [List.foldlM_cons, hpid]
      exact hrun
    · intro k
      have hbit : b.1.setBit pid k = true ↔ nameToPid pv.name = some k ∨ b.1 k = true := by
        simp [Bitmap.setBit, hpid, @eq_comm _ k pid]
      rw [hmember k, wanted_cons, or_assoc, or_left_comm]
      exact or_congr_right hbit
    · intro k
      have hbit : (if pv.tagged then b.2.setBit pid else b.2) k = true ↔
          (nameToPid pv.name = some k ∧ pv.tagged = true) ∨ b.2 k = true := by
        cases pv.tagged <;> simp [Bitmap.setBit, hpid, @eq_comm _ k pid]
      rw [htagged k, wantedTagged_cons, or_assoc, or_left_comm]
      exact or_congr_right hbit

theorem memberBits_of_fits {members : List VlanMember} (hports : ∀ pv ∈ members, PortFits pv.name) :
    ∃ member tagged : Bitmap, memberBits members = some (member, tagged) ∧
      (∀ k, member k = true ↔ Wanted members k) ∧ ∀ k, tagged k = true ↔ WantedTagged members k := by
  obtain ⟨⟨member, tagged⟩, hrun, hmember, htagged⟩ :=
    foldlM_members hports (Bitmap.clear, Bitmap.clear)
  refine ⟨member, tagged, hrun, ?_, ?_⟩
  · simpa [Bitmap.clear] using hmember
  · simpa [Bitmap.clear] using htagged

/-! ### Making the changes -/

theorem make_remove (t : Members) (vid : ℕ) (port name : String) :
    VlanChange.make t (.memberRemove vid port) vid name =
      if name = port then none else t vid name := by
  simp [VlanChange.make, Function.update_apply]

theorem make_create (t : Members) (vid : ℕ) (port name : String) (tagged : Bool) :
    VlanChange.make t (.memberCreate vid port tagged) vid name =
      if name = port then some tagged else t vid name := by
  simp [VlanChange.make, Function.update_apply]

/-- The members after the removals. -/
theorem foldl_memberRemove (ks : List ℕ) (t : Members) (vid : ℕ) (name : String) :
    (ks.map fun k => VlanChange.memberRemove vid (pidToName k)).foldl VlanChange.make t vid name =
      if name ∈ ks.map pidToName then none else t vid name := by
  induction ks generalizing t with
  | nil => simp
  | cons k ks ih =>
    rw [List.map_cons, List.foldl_cons, ih, make_remove, List.map_cons]
    by_cases hmem : name ∈ ks.map pidToName
    · simp [hmem]
    · simp only [List.mem_cons, hmem, or_false, if_false]

/-- The members after the creations; no two of the ports share a name. -/
theorem foldl_memberCreate (tagged : Bitmap) {ks : List ℕ} (hks : ∀ k ∈ ks, k < 65536) (t : Members)
    (vid : ℕ) :
    (∀ k < 65536, (ks.map fun k => VlanChange.memberCreate vid (pidToName k) (tagged k)).foldl
      VlanChange.make t vid (pidToName k) =
        if k ∈ ks then some (tagged k) else t vid (pidToName k)) ∧
    ∀ name ∉ ks.map pidToName, (ks.map fun k => VlanChange.memberCreate vid (pidToName k) (tagged k)).foldl
      VlanChange.make t vid name = t vid name := by
  induction ks generalizing t with
  | nil => simp
  | cons j ks ih =>
    obtain ⟨hnamed, hother⟩ := ih (fun k hk => hks k (List.mem_cons_of_mem _ hk))
      (VlanChange.make t (.memberCreate vid (pidToName j) (tagged j)))
    rw [List.map_cons, List.foldl_cons]
    constructor
    · intro k hk
      rw [hnamed k hk, make_create]
      by_cases hkj : k = j
      · simp [hkj]
      · have hne : pidToName k ≠ pidToName j := fun h =>
          hkj (pidToName_inj hk (hks j List.mem_cons_self) h)
        simp [hkj, hne]
    · intro name hname
      rw [List.map_cons, List.mem_cons, not_or] at hname
      rw [hother name hname.2, make_create, if_neg hname.1]

/-- The ports that are taken off, and those that are put on. -/
def stalePorts (mbr : VlanMemberBmap) (vid : ℕ) (member : Bitmap) : List ℕ :=
  ((mbr.portMember vid).bitsSet maxNumOfPorts).filter (!member ·)

def freshPorts (mbr : VlanMemberBmap) (vid : ℕ) (member tagged : Bitmap) : List ℕ :=
  (member.bitsSet maxNumOfPorts).filter fun i =>
    !(mbr.portMember vid i && tagged i == mbr.portTagged vid i)

theorem mem_stalePorts {mbr : VlanMemberBmap} {vid k : ℕ} {member : Bitmap} :
    k ∈ stalePorts mbr vid member ↔
      k < maxNumOfPorts ∧ mbr.portMember vid k = true ∧ member k = false := by
  simp [stalePorts, Bitmap.mem_bitsSet, and_assoc]

theorem mem_freshPorts {mbr : VlanMemberBmap} {vid k : ℕ} {member tagged : Bitmap} :
    k ∈ freshPorts mbr vid member tagged ↔ k < maxNumOfPorts ∧ member k = true ∧
      (mbr.portMember vid k = true → tagged k ≠ mbr.portTagged vid k) := by
  simp [freshPorts, Bitmap.mem_bitsSet, and_assoc, imp_iff_not_or]

theorem makeChanges_eq (t : Members) (vid : ℕ) (stale fresh : List ℕ) (tagged : Bitmap) :
    makeChanges t (.vlanCreate vid :: stale.map (fun i => .memberRemove vid (pidToName i)) ++
        fresh.map fun i => .memberCreate vid (pidToName i) (tagged i)) =
      (fresh.map fun i => VlanChange.memberCreate vid (pidToName i) (tagged i)).foldl VlanChange.make
        ((stale.map fun i => VlanChange.memberRemove vid (pidToName i)).foldl VlanChange.make t) := by
  have hcreates : (fresh.map fun i => VlanChange.memberCreate vid (pidToName i) (tagged i)).filter
      (·.isDelete) = [] := by simp [List.filter_eq_nil_iff, VlanChange.isDelete]
  have hremoves : (stale.map fun i => VlanChange.memberRemove vid (pidToName i)).filter
      (!·.isDelete) = [] := by simp [List.filter_eq_nil_iff, VlanChange.isDelete]
  have hcreates' : (fresh.map fun i => VlanChange.memberCreate vid (pidToName i) (tagged i)).filter
      (!·.isDelete) = fresh.map fun i => .memberCreate vid (pidToName i) (tagged i) := by
    simp [List.filter_eq_self, VlanChange.isDelete]
  have hremoves' : (stale.map fun i => VlanChange.memberRemove vid (pidToName i)).filter
      (·.isDelete) = stale.map fun i => .memberRemove vid (pidToName i) := by
    simp [List.filter_eq_self, VlanChange.isDelete]
  unfold makeChanges
  rw [List.cons_append, List.filter_cons, List.filter_cons, List.filter_append, List.filter_append,
    hcreates, hremoves, hcreates', hremoves']
  simp [VlanChange.isDelete, VlanChange.make]

/-- A port after the changes. `o` is its mode before, of which the bitmaps say `pm` and `pt`; `d` is
    whether it is wanted, and `g` whether tagged. -/
theorem changed_port {o : Option Bool} {pm pt d g b : Bool} (hm : pm = true ↔ ∃ c, o = some c)
    (ht : pt = true ↔ o = some true) :
    (if d = true ∧ (pm = true → g ≠ pt) then some g else if pm = true ∧ d = false then none else o) =
      some b ↔ d = true ∧ (b = true ↔ g = true) := by
  cases d with
  | false =>
    -- not wanted: gone, if it was there
    have hgone : (if pm = true then none else o) = none := by
      rcases o with _ | c
      · exact ite_self none
      · rw [if_pos (hm.mpr ⟨c, rfl⟩)]
    simp [hgone]
  | true =>
    by_cases hskip : pm = true → g ≠ pt
    · rw [if_pos ⟨rfl, hskip⟩]
      cases g <;> cases b <;> simp
    · -- there already, with this mode
      push Not at hskip
      obtain ⟨hpm, hg⟩ := hskip
      obtain ⟨c, rfl⟩ := hm.mp hpm
      have hc : c = g := by
        rw [hg, Bool.eq_iff_iff, ht, Option.some.injEq]
      rw [if_neg fun h => h.2 hpm hg, if_neg (by simp), hc]
      cases g <;> cases b <;> simp

/-- The members that are left are those that are wanted up to `MAX_NUM_OF_PORTS`, and those there were
    from there on. -/
structure LeftBy (members : List VlanMember) (before after : String → Option Bool) : Prop where
  low : ∀ k < maxNumOfPorts, ∀ tagged, after (pidToName k) = some tagged ↔
    Wanted members k ∧ (tagged = true ↔ WantedTagged members k)
  high : ∀ name, (∀ k < maxNumOfPorts, pidToName k ≠ name) → after name = before name

/-- The members of the VLAN after the whole change set. -/
theorem makeChanges_memberlistSet {mbr : VlanMemberBmap} {t : Members} (hshows : Shows mbr t)
    {vlan : PlatVlan} (hports : ∀ pv ∈ vlan.members, PortFits pv.name) :
    ∃ changes, platVlanMemberlistSet mbr vlan = some changes ∧
      LeftBy vlan.members (t vlan.id) (makeChanges t changes vlan.id) := by
  obtain ⟨member, tagged, hbits, hmember, htagged⟩ := memberBits_of_fits hports
  have hrun : platVlanMemberlistSet mbr vlan = some (.vlanCreate vlan.id ::
      (stalePorts mbr vlan.id member).map (fun i => .memberRemove vlan.id (pidToName i)) ++
      (freshPorts mbr vlan.id member tagged).map
        fun i => .memberCreate vlan.id (pidToName i) (tagged i)) := by
    unfold platVlanMemberlistSet
    rw [hbits]
    rfl
  have hwide : ∀ k, k < maxNumOfPorts → k < 65536 := fun k hk => hk.trans (by decide)
  have hfresh : ∀ k ∈ freshPorts mbr vlan.id member tagged, k < 65536 := fun k hk =>
    hwide k (mem_freshPorts.mp hk).1
  refine ⟨_, hrun, ?_, ?_⟩
  · intro k hk b
    obtain ⟨hm, ht⟩ := And.intro (hshows.member vlan.id k (hwide k hk))
      (hshows.tagged vlan.id k (hwide k hk))
    have hstale : pidToName k ∈ (stalePorts mbr vlan.id member).map pidToName ↔
        k ∈ stalePorts mbr vlan.id member := by
      constructor
      · intro h
        obtain ⟨j, hj, hname⟩ := List.mem_map.mp h
        rwa [← pidToName_inj (hwide j (mem_stalePorts.mp hj).1) (hwide k hk) hname]
      · exact List.mem_map_of_mem
    rw [makeChanges_eq, (foldl_memberCreate tagged hfresh _ vlan.id).1 k (hwide k hk),
      foldl_memberRemove, ← hmember k, ← htagged k]
    simp only [hstale, mem_stalePorts, mem_freshPorts, hk, true_and]
    exact changed_port hm ht
  · intro name hname
    have hother : ∀ ks : List ℕ, (∀ k ∈ ks, k < maxNumOfPorts) → name ∉ ks.map pidToName := by
      intro ks hks h
      obtain ⟨k, hk, heq⟩ := List.mem_map.mp h
      exact hname k (hks k hk) heq
    rw [makeChanges_eq, (foldl_memberCreate tagged hfresh _ vlan.id).2 name
      (hother _ fun k hk => (mem_freshPorts.mp hk).1), foldl_memberRemove,
      if_neg (hother _ fun k hk => (mem_stalePorts.mp hk).1)]

theorem wanted_lt {members : List VlanMember} (hports : ∀ pv ∈ members, PortFits pv.name) {k : ℕ}
    (h : Wanted members k) : k < maxNumOfPorts := by
  obtain ⟨pv, hpv, hname⟩ := h
  obtain ⟨pid, hpid, hlt⟩ := hports pv hpv
  rw [hname] at hpid
  cases hpid
  exact hlt

theorem pidToName_inj_of_lt {j k : ℕ} (hj : j < gnmaMaxPortId) (hk : k < gnmaMaxPortId)
    (h : pidToName j = pidToName k) : j = k :=
  pidToName_inj (hj.trans (by decide)) (hk.trans (by decide)) h

section Left

variable {members : List VlanMember} {before after : String → Option Bool}

/-- If only wanted members are left, there were none that no configuration can name. -/
theorem LeftBy.clear (h : LeftBy members before after)
    (hports : ∀ pv ∈ members, PortFits pv.name) (hwanted : AsWanted members after) {k : ℕ}
    (hle : maxNumOfPorts ≤ k) (hlt : k < gnmaMaxPortId) : before (pidToName k) = none := by
  have hkept := h.high (pidToName k) fun j hj heq =>
    absurd (pidToName_inj_of_lt (hj.trans (by decide)) hlt heq) (by omega)
  rw [← hkept]
  rcases hafter : after (pidToName k) with _ | tagged
  · rfl
  · obtain ⟨j, hname, hj, -⟩ := (hwanted _ _).mp hafter
    have hj := wanted_lt hports hj
    have hjk := pidToName_inj_of_lt (hj.trans (by decide)) hlt hname
    omega

/-- And if there were none of those, the wanted members are left. -/
theorem LeftBy.asWanted (h : LeftBy members before after)
    (hports : ∀ pv ∈ members, PortFits pv.name)
    (hnamed : ∀ name tagged, before name = some tagged → ∃ k < gnmaMaxPortId, pidToName k = name)
    (hclear : ∀ k, maxNumOfPorts ≤ k → k < gnmaMaxPortId → before (pidToName k) = none) :
    AsWanted members after := by
  intro name tagged
  by_cases hport : ∃ k < maxNumOfPorts, pidToName k = name
  · obtain ⟨k, hk, rfl⟩ := hport
    rw [h.low k hk]
    constructor
    · rintro ⟨hwant, htag⟩
      exact ⟨k, rfl, hwant, htag⟩
    · rintro ⟨j, hname, hwant, htag⟩
      have hj := (wanted_lt hports hwant).trans (show maxNumOfPorts < gnmaMaxPortId by decide)
      obtain rfl := pidToName_inj_of_lt hj (hk.trans (by decide)) hname
      exact ⟨hwant, htag⟩
  · have hkept := h.high name fun k hk heq => hport ⟨k, hk, heq⟩
    refine iff_of_false ?_ ?_
    · -- such a member would be among the ports from the bound on
      intro hafter
      rw [hkept] at hafter
      obtain ⟨k, hk, rfl⟩ := hnamed _ _ hafter
      have hle : maxNumOfPorts ≤ k := by
        by_contra hlt
        exact hport ⟨k, by omega, rfl⟩
      rw [hclear k hle hk] at hafter
      cases hafter
    · rintro ⟨k, hname, hwant, -⟩
      exact hport ⟨k, wanted_lt hports hwant, hname⟩

end Left

/-- The change set leaves the VLAN with the members that are wanted exactly if the switch has none at
    the ports from `MAX_NUM_OF_PORTS` on. -/
theorem asWanted_iff (entries : List MemberEntry) (t : Members) (vlan : PlatVlan)
    (hlists : Lists entries t) (hports : ∀ pv ∈ vlan.members, PortFits pv.name) :
    ∃ mbr changes, gnmaVlanMemberBmapGet (memberReply entries) VlanMemberBmap.zeroed = (.ok (), mbr) ∧
      platVlanMemberlistSet mbr vlan = some changes ∧
      (AsWanted vlan.members (makeChanges t changes vlan.id) ↔
        ∀ k, maxNumOfPorts ≤ k → k < gnmaMaxPortId → t vlan.id (pidToName k) = none) := by
  obtain ⟨changes, hset, hleft⟩ := makeChanges_memberlistSet (shows_reply hlists) hports
  refine ⟨_, changes, gnmaVlanMemberBmapGet_reply entries, hset, ?_⟩
  constructor
  · intro hwanted k hle hlt
    exact hleft.clear hports hwanted hle hlt
  · refine hleft.asWanted hports fun name tagged hmember => ?_
    obtain ⟨e, -, -, hname, -⟩ := (hlists _ _ _).mp hmember
    exact ⟨e.port, e.port_lt, hname⟩

/-- A switch with one untagged member, `Ethernet<port>` of VLAN 10. -/
def oneMember (port : ℕ) : Members := fun vid name =>
  if vid = 10 ∧ name = pidToName port then some false else none

theorem lists_oneMember (port : ℕ) (h : port < gnmaMaxPortId) :
    Lists [⟨10, port, false, by decide, h⟩] (oneMember port) := by
  intro vid name tagged
  simp [oneMember, @eq_comm _ 10 vid, @eq_comm _ (pidToName port) name, and_assoc]

/-- VLAN 10 with the untagged member `Ethernet0`. -/
def vlan10 : PlatVlan where
  members := [⟨"Ethernet0", 0, false⟩]
  id := 10

theorem asWanted_moved : ∃ mbr changes,
    gnmaVlanMemberBmapGet (memberReply [⟨10, 5, false, by decide, by decide⟩]) VlanMemberBmap.zeroed =
      (.ok (), mbr) ∧ platVlanMemberlistSet mbr vlan10 = some changes ∧
    AsWanted vlan10.members (makeChanges (oneMember 5) changes 10) := by
  have hports : ∀ pv ∈ vlan10.members, PortFits pv.name := by
    intro pv hpv
    rw [List.mem_singleton.mp hpv]
    exact ⟨0, by decide +kernel, by decide⟩
  obtain ⟨mbr, changes, hget, hset, hiff⟩ := asWanted_iff [⟨10, 5, false, by decide, by decide⟩]
    (oneMember 5) vlan10 (lists_oneMember 5 (by decide)) hports
  refine ⟨mbr, changes, hget, hset, hiff.mpr ?_⟩
  intro k hle hlt
  have hne : pidToName k ≠ pidToName 5 := fun h => by
    have hk := pidToName_inj (hlt.trans (by decide)) (by decide) h
    rw [hk] at hle
    revert hle
    decide
  exact if_neg fun h => hne h.2

/-- The member `Ethernet100` is read, but it is not taken off. -/
theorem stale_member_left : ∃ mbr,
    gnmaVlanMemberBmapGet (memberReply [⟨10, 100, false, by decide, by decide⟩])
      VlanMemberBmap.zeroed = (.ok (), mbr) ∧ mbr.portMember 10 100 = true ∧
    platVlanMemberlistSet mbr vlan10 =
      some [.vlanCreate 10, .memberCreate 10 "Ethernet0" false] ∧
    makeChanges (oneMember 100) [.vlanCreate 10, .memberCreate 10 "Ethernet0" false] 10
      "Ethernet100" = some false ∧
    ¬ AsWanted vlan10.members (makeChanges (oneMember 100)
      [.vlanCreate 10, .memberCreate 10 "Ethernet0" false] 10) := by
  have hleft : makeChanges (oneMember 100) [.vlanCreate 10, .memberCreate 10 "Ethernet0" false] 10
    "Ethernet100" = some false := by decide +kernel
  refine ⟨_, gnmaVlanMemberBmapGet_reply _, by decide, by decide +kernel, hleft, ?_⟩
  intro h
  obtain ⟨k, hname, ⟨pv, hpv, hk⟩, -⟩ := (h _ _).mp hleft
  rw [List.mem_singleton.mp hpv, show nameToPid "Ethernet0" = some 0 by decide +kernel] at hk
  cases hk
  revert hname
  decide +kernel

end Ucentral.Plat
