import Mathlib.Data.Option.Basic
import Ucentral.Lib.Decimal
import Ucentral.Lib.Groups
import Ucentral.Plat.MacList

/-! The learned MAC addresses in the state of the device.

    The entries are grouped by port and VLAN, in an object that has the overflow flag beside the ports:

        Ethernet0 10 m1, Ethernet4 10 m2, Ethernet0 10 m3

        { "overflow": false, "Ethernet0": { "10": [ m1, m3 ] }, "Ethernet4": { "10": [ m2 ] } } -/

namespace Ucentral.Proto.MacTable
open CString Decimal Groups Plat.MacList

/-- A C string, by its bytes. -/
abbrev Text := List UInt8

/-! ### Nodes -/

inductive Kind
  | bool (b : Bool) | object | array | str (text : Text)
  deriving DecidableEq

/-- A `cJSON`. A node of any kind can have children; those of an array have no names. -/
structure Node where
  kind : Kind
  kids : List (Option Text × Node)

namespace Node

def ofKind (kind : Kind) : Node := ⟨kind, []⟩

/-- The first child of that name, and its place. -/
def find (name : Text) : List (Option Text × Node) → Option (ℕ × Node)
  | [] => none
  | (k, child) :: kids =>
    if k = some name then some (0, child) else (find name kids).map fun c => (c.1 + 1, c.2)

/-- `cJSON_GetObjectItemCaseSensitive`, which takes a node of any kind for an object. -/
def getItem (n : Node) (name : Text) : Option (ℕ × Node) := find name n.kids

/-- `cJSON_AddItemToObject` and `cJSON_AddItemToArray`, which neither ask for the kind of the node. -/
def addItem (n : Node) (name : Option Text) (child : Node) : Node :=
  ⟨n.kind, n.kids ++ [(name, child)]⟩

/-- The node, after its child at that place has changed. -/
def setItem (n : Node) (i : ℕ) (child : Node) : Node :=
  ⟨n.kind, n.kids.modify i fun c => (c.1, child)⟩

/-- The child of that name, and where it is. If there is none, a new one is added, unless there is no
    memory for it. -/
def getOrAdd (alloc : Bool) (n : Node) (name : Text) (kind : Kind) : Option (Node × ℕ × Node) :=
  match n.getItem name with
  | some (i, child) => some (n, i, child)
  | none => if alloc then some (n.addItem (some name) (ofKind kind), n.kids.length, ofKind kind) else none

end Node

/-! ### The function -/

/-- The calls that need memory, by the turn of the loop. -/
inductive Call
  | flag | port (i : ℕ) | vid (i : ℕ) | mac (i : ℕ)
  deriving DecidableEq

/-- What a field holds before its first NUL. -/
def text (field : List UInt8) : Text := field.takeWhile (· != 0)

/-- A field read as a C string; none if it has no NUL. -/
def cText (field : List UInt8) : Option Text := if 0 ∈ field then some (text field) else none

/-- `snprintf(vid_key, 6, "%u", vid)` -/
def vidKey (vid : ℤ) : Text := (printBytes (vid % 2 ^ 32).toNat).take 5

/-- The body of the loop: 0, or -1 if it ends there, and the object. -/
def fillEntry (alloc : Call → Bool) (i : ℕ) (e : LearnedMac) (root : Node) : Option (ℤ × Node) := do
  let name ← cText e.port
  match root.getOrAdd (alloc (.port i)) name .object with
  | none => return (-1, root)
  | some (root, atPort, port) =>
    match port.getOrAdd (alloc (.vid i)) (vidKey e.vid) .array with
    | none => return (-1, root)
    | some (port, atVid, vid) =>
      let mac ← cText e.mac
      if alloc (.mac i) then
        let vid := vid.addItem none (.ofKind (.str mac))
        return (0, root.setItem atPort (port.setItem atVid vid))
      else return (-1, root.setItem atPort port)

def fillEntries (alloc : Call → Bool) : List LearnedMac → ℕ → Node → Option (ℤ × Node)
  | [], _, root => some (0, root)
  | e :: es, i, root => do
    let (ret, root) ← fillEntry alloc i e root
    if ret ≠ 0 then return (ret, root)
    fillEntries alloc es (i + 1) root

/-- `state_fill_mac_addr_list_data`: what it returns, and the object; none where it reads a field past
    its end. -/
def stateFillMacAddrListData (alloc : Call → Bool) (learned : List LearnedMac) (maxMacCount : ℕ)
    (root : Node) : Option (ℤ × Node) :=
  let overflow := decide (maxMacCount < learned.length) || decide (maxMacCount = 0)
  let numElem := if overflow then maxMacCount else learned.length
  if !alloc .flag then some (-1, root)
  else
    fillEntries alloc (learned.take numElem) 0
      (root.addItem (some (bytes "overflow")) (.ofKind (.bool overflow)))

/-! ### What is read of the object -/

/-- The members, as they are printed: what is below a node that is no object is not. -/
def members (n : Node) : List (Text × Node) :=
  match n.kind with
  | .object => n.kids.filterMap fun c => c.1.map fun name => (name, c.2)
  | _ => []

/-- The strings of an array. -/
def strings (n : Node) : List Text :=
  match n.kind with
  | .array => n.kids.filterMap fun c => match c.2.kind with
    | .str s => some s
    | _ => none
  | _ => []

/-- All MACs, under the names of their port and their VLAN. -/
def filed (out : Node) : List (Text × Text × Text) :=
  (members out).flatMap fun p => (members p.2).flatMap fun v => (strings v.2).map fun m => (p.1, v.1, m)

/-- The flag is there, and tells whether this is so. -/
def FlagSays (out : Node) (p : Prop) : Prop :=
  ∃ b kids, (members out).lookup (bytes "overflow") = some ⟨.bool b, kids⟩ ∧ (b = true ↔ p)

/-- The entries that there is room for. -/
def reported (learned : List LearnedMac) (maxMacCount : ℕ) : List LearnedMac :=
  learned.take (min learned.length maxMacCount)

/-- The MACs of the entries of a port and a VLAN. -/
def macsOf (es : List LearnedMac) (port : Text) (vid : ℕ) : List Text :=
  (es.filter fun e => decide (text e.port = port ∧ e.vid = (vid : ℤ))).map fun e => text e.mac

/-- The entries are found again, for these ports: each MAC is under the port and the VLAN of its entry,
    in order, and no name is there twice. -/
structure Regroups (ports : Text → Prop) (es : List LearnedMac) (out : Node) : Prop where
  macs : ∀ port, ports port → ∀ vid < 65536,
    under port (printBytes vid) (filed out) = macsOf es port vid
  rows : ∀ row ∈ filed out, ∃ e ∈ es, row = (text e.port, vidKey e.vid, text e.mac)
  once : KeysOnce (members out) ∧ ∀ p ∈ members out, KeysOnce (members p.2)

/-! ### An item is found or added -/

theorem find_set (name : Text) (new : Node) (f : Node → Node) : ∀ {kids : List (Option Text × Node)}
    {i : ℕ} {child : Node}, Node.find name kids = some (i, child) →
    (kids.modify i fun c => (c.1, f child)) = upsert (some name) new f kids
  | (k, x) :: kids, i, child, h => by
      rw [Node.find] at h
      rw [upsert]
      by_cases hk : k = some name
      · rw [if_pos hk] at h
        cases h
        rw [if_pos hk]
        rfl
      · rw [if_neg hk] at h
        obtain ⟨⟨j, y⟩, hfind, hc⟩ := Option.map_eq_some_iff.mp h
        cases hc
        rw [if_neg hk, List.modify_succ_cons, find_set name new f hfind]

theorem find_none_add (name : Text) (new : Node) (f : Node → Node) :
    ∀ {kids : List (Option Text × Node)}, Node.find name kids = none →
    ((kids ++ [(some name, new)]).modify kids.length fun c => (c.1, f new)) =
      upsert (some name) new f kids
  | [], _ => rfl
  | (k, x) :: kids, h => by
      rw [Node.find] at h
      by_cases hk : k = some name
      · rw [if_pos hk] at h
        cases h
      · rw [if_neg hk, Option.map_eq_none_iff] at h
        rw [upsert, if_neg hk, List.cons_append, List.length_cons, List.modify_succ_cons,
          find_none_add name new f h]

/-- What is done to the item is an upsert of the children. -/
theorem getOrAdd_set {alloc : Bool} {n n' : Node} {name : Text} {kind : Kind} {i : ℕ} {child : Node}
    (h : n.getOrAdd alloc name kind = some (n', i, child)) (f : Node → Node) :
    n'.setItem i (f child) = ⟨n.kind, upsert (some name) (.ofKind kind) f n.kids⟩ := by
  unfold Node.getOrAdd Node.getItem at h
  cases hfind : Node.find name n.kids with
  | some c =>
    rw [hfind] at h
    cases h
    rw [Node.setItem, find_set name (.ofKind kind) f hfind]
  | none =>
    rw [hfind] at h
    cases alloc with
    | false => cases h
    | true =>
      cases h
      rw [Node.setItem, Node.addItem, find_none_add name (.ofKind kind) f hfind]

/-- A MAC is added to the array of a VLAN, and below the object of a port. -/
def addMac (mac : Text) (vid : Node) : Node := vid.addItem none (.ofKind (.str mac))

def addToPort (key mac : Text) (port : Node) : Node :=
  ⟨port.kind, upsert (some key) (.ofKind .array) (addMac mac) port.kids⟩

/-- A turn of the loop that does not end it. -/
theorem fillEntry_ok {alloc : Call → Bool} {i : ℕ} {e : LearnedMac} {root root' : Node}
    (h : fillEntry alloc i e root = some (0, root')) :
    root' = ⟨root.kind, upsert (some (text e.port)) (.ofKind .object)
      (addToPort (vidKey e.vid) (text e.mac)) root.kids⟩ := by
  unfold fillEntry cText at h
  split at h
  · dsimp only [Option.bind_eq_bind, Option.bind_some] at h
    split at h
    · cases h
    · rename_i root₁ atPort port hport
      split at h
      · cases h
      · rename_i port₁ atVid vid hvid
        split at h
        · dsimp only [Option.bind_some] at h
          split at h
          · cases h
            have hset : port₁.setItem atVid (vid.addItem none (.ofKind (.str (text e.mac)))) =
              addToPort (vidKey e.vid) (text e.mac) port := getOrAdd_set hvid (addMac (text e.mac))
            rw [hset]
            exact getOrAdd_set hport (addToPort (vidKey e.vid) (text e.mac))
          · cases h
        · cases h
  · cases h

/-! ### The table -/

/-- The array of a VLAN, and the object of a port. -/
def vidNode (macs : List Text) : Node := ⟨.array, macs.map fun mac => (none, .ofKind (.str mac))⟩

def portNode (vids : List (Text × List Text)) : Node := ⟨.object, vids.map (Prod.map some vidNode)⟩

/-- The object, with what has come to be below the flag. -/
def rootNode (flag : Bool) (below : List (Option Text × Node)) (t : Table Text Text Text) : Node :=
  ⟨.object, (some (bytes "overflow"), ⟨.bool flag, below⟩) :: t.groups.map (Prod.map some portNode)⟩

/-- What is filed of an entry. -/
def rowOf (e : LearnedMac) : Text × Text × Text := (text e.port, vidKey e.vid, text e.mac)

/-- Has the port a name of its own? -/
def ownName (e : LearnedMac) : Bool := decide (text e.port ≠ bytes "overflow")

theorem addMac_vidNode (mac : Text) (macs : List Text) :
    addMac mac (vidNode macs) = vidNode (macs ++ [mac]) := by
  simp [addMac, vidNode, Node.addItem]

theorem addToPort_portNode (key mac : Text) (vids : List (Text × List Text)) :
    addToPort key mac (portNode vids) = portNode (upsert key [] (· ++ [mac]) vids) :=
  congrArg (Node.mk .object)
    (upsert_map (Option.some_injective _) vidNode [] (addMac_vidNode mac) vids)

/-- An entry is put into the table; one of a port called as the flag goes below the flag. -/
theorem fillEntry_rootNode {alloc : Call → Bool} {i : ℕ} {e : LearnedMac} {flag : Bool}
    {below : List (Option Text × Node)} {t : Table Text Text Text} {root : Node}
    (h : fillEntry alloc i e (rootNode flag below t) = some (0, root)) :
    ∃ below', root = rootNode flag below' (t.fill ([e].filter ownName |>.map rowOf)) := by
  rw [fillEntry_ok h]
  by_cases hname : text e.port = bytes "overflow"
  · have hown : [e].filter ownName = [] := by simp [ownName, hname]
    rw [hown, rootNode, upsert, if_pos (congrArg some hname.symm)]
    exact ⟨_, rfl⟩
  · have hown : [e].filter ownName = [e] := by simp [ownName, hname]
    have hports := upsert_map (Option.some_injective _) portNode (k := text e.port) []
      (addToPort_portNode (vidKey e.vid) (text e.mac)) t.groups
    rw [hown, rootNode, upsert, if_neg fun heq => hname (Option.some.inj heq).symm]
    exact ⟨below, congrArg (fun ports => Node.mk .object (_ :: ports)) hports⟩

/-- The loop fills the table with the entries, in order. -/
theorem fillEntries_rootNode {alloc : Call → Bool} {flag : Bool} {out : Node} :
    ∀ {es : List LearnedMac} {i : ℕ} {below : List (Option Text × Node)} {t : Table Text Text Text},
    fillEntries alloc es i (rootNode flag below t) = some (0, out) →
    ∃ below', out = rootNode flag below' (t.fill (es.filter ownName |>.map rowOf))
  | [], i, below, t, h => by
      cases h
      exact ⟨below, rfl⟩
  | e :: es, i, below, t, h => by
      rw [fillEntries] at h
      obtain ⟨⟨ret, root⟩, hentry, h⟩ := Option.bind_eq_some_iff.mp h
      dsimp only at h
      split at h
      · rename_i hret
        cases h
        exact absurd rfl hret
      · rename_i hret
        rw [not_not.mp hret] at hentry
        obtain ⟨below₁, rfl⟩ := fillEntry_rootNode hentry
        obtain ⟨below₂, hout⟩ := fillEntries_rootNode h
        refine ⟨below₂, ?_⟩
        rw [hout, Table.fill, Table.fill, Table.fill, ← List.foldl_append, ← List.map_append,
          ← List.filter_append, List.singleton_append]

/-! ### Reading the table -/

theorem filterMap_named {β : Type} (form : β → Node) : ∀ l : List (Text × β),
    (l.map (Prod.map some form)).filterMap (fun c => c.1.map fun name => (name, c.2)) =
      l.map (Prod.map id form)
  | [] => rfl
  | g :: l => congrArg ((g.1, form g.2) :: ·) (filterMap_named form l)

theorem members_portNode (vids : List (Text × List Text)) :
    members (portNode vids) = vids.map (Prod.map id vidNode) := filterMap_named vidNode vids

theorem members_rootNode (flag : Bool) (below : List (Option Text × Node)) (t : Table Text Text Text) :
    members (rootNode flag below t) =
      (bytes "overflow", ⟨.bool flag, below⟩) :: t.groups.map (Prod.map id portNode) :=
  congrArg (_ :: ·) (filterMap_named portNode t.groups)

theorem strings_vidNode (macs : List Text) : strings (vidNode macs) = macs := by
  unfold strings vidNode
  rw [List.filterMap_map]
  exact List.filterMap_some

/-- What is below the flag is lost; everything else is found. -/
theorem filed_rootNode (flag : Bool) (below : List (Option Text × Node)) (t : Table Text Text Text) :
    filed (rootNode flag below t) = t.rows := by
  have hport : ∀ g : Text × List (Text × List Text),
      ((members (portNode g.2)).flatMap fun v => (strings v.2).map fun m => (g.1, v.1, m)) =
        g.2.flatMap fun h => h.2.map fun m => (g.1, h.1, m) := by
    intro g
    rw [members_portNode, List.flatMap_map]
    exact List.flatMap_congr fun h _ => congrArg _ (strings_vidNode h.2)
  unfold filed Table.rows
  rw [members_rootNode, List.flatMap_cons, List.flatMap_map]
  exact (List.nil_append _).trans (List.flatMap_congr fun g _ => hport g)

theorem vidKey_eq_iff {v : ℤ} {vid : ℕ} (hv : 0 ≤ v ∧ v < 65536) :
    vidKey v = printBytes vid ↔ v = (vid : ℤ) := by
  have hmod : ((v % 2 ^ 32).toNat : ℤ) = v := by omega
  have hlt : (v % 2 ^ 32).toNat < 65536 := by omega
  unfold vidKey
  rw [List.take_of_length_le (length_printBytes_le hlt)]
  constructor
  · intro h
    rw [← hmod, printBytes_inj h]
  · intro h
    rw [← hmod] at h
    rw [Int.ofNat.inj h]

/-- The rows of a port and a VLAN are the entries of that port and VLAN. -/
theorem under_rows {es : List LearnedMac} (hvid : ∀ e ∈ es, 0 ≤ e.vid ∧ e.vid < 65536) {port : Text}
    (hport : port ≠ bytes "overflow") (vid : ℕ) :
    under port (printBytes vid) ((es.filter ownName).map rowOf) = macsOf es port vid := by
  unfold under macsOf
  rw [List.filter_map, List.map_map, List.filter_filter]
  refine congrArg _ (List.filter_congr fun e he => ?_)
  have hkey : vidKey e.vid = printBytes vid ↔ e.vid = (vid : ℤ) := vidKey_eq_iff (hvid e he)
  rw [Bool.eq_iff_iff, Bool.and_eq_true, decide_eq_true_iff]
  constructor
  · rintro ⟨hrow, -⟩
    obtain ⟨hp, hk⟩ := of_decide_eq_true hrow
    exact ⟨hp, hkey.mp hk⟩
  · rintro ⟨hp, hk⟩
    refine ⟨decide_eq_true ⟨hp, hkey.mpr hk⟩, decide_eq_true ?_⟩
    rw [hp]
    exact hport

theorem regroups_rootNode {es : List LearnedMac} (hvid : ∀ e ∈ es, 0 ≤ e.vid ∧ e.vid < 65536)
    (flag : Bool) (below : List (Option Text × Node)) :
    Regroups (fun port => port ≠ bytes "overflow") es
      (rootNode flag below (Table.empty.fill (es.filter ownName |>.map rowOf))) where
  macs port hport vid _ := by
    rw [filed_rootNode, Table.under_fill]
    exact under_rows hvid hport vid
  rows row hrow := by
    rw [filed_rootNode] at hrow
    obtain ⟨e, he, rfl⟩ := List.mem_map.mp (Table.mem_of_mem_fill hrow)
    exact ⟨e, List.mem_of_mem_filter he, rfl⟩
  once := by
    rw [members_rootNode]
    constructor
    · unfold KeysOnce
      rw [List.map_cons, List.map_map]
      refine List.nodup_cons.mpr ⟨fun hmem => ?_, (Table.empty.fill _).once⟩
      rcases Table.mem_keys_fill hmem with hempty | hrows
      · exact List.not_mem_nil hempty
      · obtain ⟨row, hrow, hname⟩ := List.mem_map.mp hrows
        obtain ⟨e, he, rfl⟩ := List.mem_map.mp hrow
        exact of_decide_eq_true (List.mem_filter.mp he).2 hname
    · refine List.forall_mem_cons.mpr ⟨List.nodup_nil, fun p hp => ?_⟩
      obtain ⟨g, hg, rfl⟩ := List.mem_map.mp hp
      have honce := (Table.empty.fill _).once_inner g hg
      unfold KeysOnce at honce ⊢
      rw [Prod.map_snd, members_portNode, List.map_map]
      exact honce

/-- With 0, the object is that of a table with all entries that there is room for. -/
theorem stateFillMacAddrListData_ok {alloc : Call → Bool} {learned : List LearnedMac} {maxMacCount : ℕ}
    {out : Node} (h : stateFillMacAddrListData alloc learned maxMacCount (.ofKind .object) = some (0, out)) :
    ∃ below, out = rootNode (decide (maxMacCount < learned.length) || decide (maxMacCount = 0)) below
      (Table.empty.fill ((reported learned maxMacCount).filter ownName |>.map rowOf)) := by
  unfold stateFillMacAddrListData at h
  have hnum : (if decide (maxMacCount < learned.length) || decide (maxMacCount = 0) then maxMacCount
      else learned.length) = min learned.length maxMacCount := by
    split <;> rename_i hover <;> simp at hover <;> omega
  dsimp only at h
  rw [hnum] at h
  split at h
  · cases h
  · exact fillEntries_rootNode h

theorem overflow_iff (learned : List LearnedMac) (maxMacCount : ℕ) :
    (decide (maxMacCount < learned.length) || decide (maxMacCount = 0)) = true ↔
      reported learned maxMacCount ≠ learned ∨ maxMacCount = 0 := by
  have hleft : reported learned maxMacCount ≠ learned ↔ maxMacCount < learned.length := by
    unfold reported
    constructor
    · intro hne
      by_contra hle
      exact hne (List.take_of_length_le (by omega))
    · intro hlt heq
      have hlen := congrArg List.length heq
      rw [List.length_take] at hlen
      omega
  rw [hleft, Bool.or_eq_true, decide_eq_true_iff, decide_eq_true_iff]

/-! ### There is a result -/

theorem getOrAdd_memory (n : Node) (name : Text) (kind : Kind) :
    ∃ c, n.getOrAdd true name kind = some c := by
  unfold Node.getOrAdd
  cases n.getItem name with
  | some c => exact ⟨_, rfl⟩
  | none => exact ⟨_, rfl⟩

theorem fillEntry_memory (i : ℕ) {e : LearnedMac} (hport : 0 ∈ e.port) (hmac : 0 ∈ e.mac) (root : Node) :
    ∃ root', fillEntry (fun _ => true) i e root = some (0, root') := by
  unfold fillEntry cText
  rw [if_pos hport, if_pos hmac]
  obtain ⟨⟨root₁, atPort, port⟩, hroot⟩ := getOrAdd_memory root (text e.port) .object
  obtain ⟨⟨port₁, atVid, vid⟩, hitem⟩ := getOrAdd_memory port (vidKey e.vid) .array
  refine ⟨root₁.setItem atPort (port₁.setItem atVid (vid.addItem none (.ofKind (.str (text e.mac))))), ?_⟩
  simp [hroot, hitem]

/-- If there is memory and all texts end within their fields, the function returns 0. -/
theorem stateFillMacAddrListData_memory {learned : List LearnedMac}
    (hends : ∀ e ∈ learned, 0 ∈ e.port ∧ 0 ∈ e.mac) (maxMacCount : ℕ) (root : Node) :
    ∃ out, stateFillMacAddrListData (fun _ => true) learned maxMacCount root = some (0, out) := by
  have hloop : ∀ (es : List LearnedMac) (i : ℕ) (root : Node), (∀ e ∈ es, 0 ∈ e.port ∧ 0 ∈ e.mac) →
      ∃ out, fillEntries (fun _ => true) es i root = some (0, out) := by
    intro es
    induction es with
    | nil => exact fun _ root _ => ⟨root, rfl⟩
    | cons e es ih =>
      intro i root hes
      obtain ⟨he, hes⟩ := List.forall_mem_cons.mp hes
      obtain ⟨root', hentry⟩ := fillEntry_memory i he.1 he.2 root
      obtain ⟨out, hrest⟩ := ih (i + 1) root' hes
      refine ⟨out, ?_⟩
      simp [fillEntries, hentry, hrest]
  unfold stateFillMacAddrListData
  exact hloop _ 0 _ fun e he => hends e (List.mem_of_mem_take he)

/-! ### A flag without cause, and a port without its addresses -/

/-- An entry of the VLAN 10. -/
def entry (port mac : String) : LearnedMac := ⟨strncpy 32 port, 10, strncpy 18 mac⟩

/-- With room for none the flag is set for no entries, and the address of a port called as the flag is
    below the flag. -/
theorem flag_overflows :
    (¬ ∀ (alloc : Call → Bool) (learned : List LearnedMac) (maxMacCount : ℕ) (out : Node),
      (∀ e ∈ learned, 0 ≤ e.vid ∧ e.vid < 65536) →
      stateFillMacAddrListData alloc learned maxMacCount (.ofKind .object) = some (0, out) →
      FlagSays out (reported learned maxMacCount ≠ learned)) ∧
    ¬ ∀ (alloc : Call → Bool) (learned : List LearnedMac) (maxMacCount : ℕ) (out : Node),
      (∀ e ∈ learned, 0 ≤ e.vid ∧ e.vid < 65536) →
      stateFillMacAddrListData alloc learned maxMacCount (.ofKind .object) = some (0, out) →
      Regroups (fun _ => True) (reported learned maxMacCount) out := by
  constructor
  · intro h
    obtain ⟨b, kids, hflag, hb⟩ := h (fun _ => true) [] 0 _ (List.forall_mem_nil _) rfl
    cases hflag
    exact hb.mp rfl rfl
  · intro h
    have hmacs := (h (fun _ => true) [entry "overflow" "00:11:22:33:44:55"] 2000 _
      (List.forall_mem_singleton.mpr (by decide)) rfl).macs (bytes "overflow") trivial 10 (by decide)
    exact absurd hmacs (by decide +kernel)

/-- The flag is set if an entry is left out, and whenever there is room for none. The entries that are
    not left out are found again under their ports, except for a port called as the flag is. -/
theorem stateFillMacAddrListData_regroups (alloc : Call → Bool) (learned : List LearnedMac)
    (maxMacCount : ℕ) (out : Node) (hvid : ∀ e ∈ learned, 0 ≤ e.vid ∧ e.vid < 65536)
    (hrun : stateFillMacAddrListData alloc learned maxMacCount (.ofKind .object) = some (0, out)) :
    FlagSays out (reported learned maxMacCount ≠ learned ∨ maxMacCount = 0) ∧
      Regroups (fun port => port ≠ bytes "overflow") (reported learned maxMacCount) out := by
  obtain ⟨below, rfl⟩ := stateFillMacAddrListData_ok hrun
  constructor
  · refine ⟨_, below, ?_, overflow_iff learned maxMacCount⟩
    rw [members_rootNode, List.lookup_cons_self]
  · exact regroups_rootNode (fun e he => hvid e (List.mem_of_mem_take he)) _ below

theorem stateFillMacAddrListData_regroups_two_ports :
    ∃ out, stateFillMacAddrListData (fun _ => true)
        [entry "Ethernet0" "00:11:22:33:44:55", entry "Ethernet4" "00:11:22:33:44:66",
          entry "Ethernet0" "00:11:22:33:44:77"] 2 (.ofKind .object) = some (0, out) ∧
      FlagSays out True ∧
      under (bytes "Ethernet0") (printBytes 10) (filed out) = [bytes "00:11:22:33:44:55"] ∧
      under (bytes "Ethernet4") (printBytes 10) (filed out) = [bytes "00:11:22:33:44:66"] := by
  obtain ⟨hflag, hregroups⟩ := stateFillMacAddrListData_regroups (fun _ => true)
    [entry "Ethernet0" "00:11:22:33:44:55", entry "Ethernet4" "00:11:22:33:44:66",
      entry "Ethernet0" "00:11:22:33:44:77"] 2 _ (by decide) rfl
  refine ⟨_, rfl, ?_, ?_, ?_⟩
  · obtain ⟨b, kids, hb, hiff⟩ := hflag
    refine ⟨b, kids, hb, hiff.trans (iff_true_intro (Or.inl fun heq => ?_))⟩
    exact absurd (congrArg List.length heq) (by decide)
  · exact (hregroups.macs _ (by decide +kernel) 10 (by decide)).trans (by decide +kernel)
  · exact (hregroups.macs _ (by decide +kernel) 10 (by decide)).trans (by decide +kernel)

end Ucentral.Proto.MacTable
