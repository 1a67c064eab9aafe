import Ucentral.Lib.CString
import Ucentral.Lib.Inet6
import Ucentral.Lib.Json
import Ucentral.Lib.ParserStates

/-! What the switch says about an LLDP peer, read into `plat_port_lldp_peer_info`.

    The management addresses come as one string with commas. Each token is tried as an IPv4 address
    and, only if it is one, as an IPv6 address; a token is refused if both reads succeed. -/

namespace Ucentral.Plat.LldpPeer
open CJson Parse CString Inet

def maxMgmtIps : ℕ := 2

def inet6Addrstrlen : ℕ := 46

/-- `struct plat_port_lldp_peer_info`; `mgmt_ips` by the bytes of its slots. -/
structure PeerInfo where
  isBridge : Bool
  isRouter : Bool
  isWlanAp : Bool
  isStation : Bool
  name : String
  mac : String
  description : String
  mgmtIps : ℕ → List UInt8
  port : String

/-- The capability that a station is announced by is stored as that of an access point. -/
def PeerInfo.setCapability (info : PeerInfo) (name : String) (enabled : Bool) : PeerInfo :=
  if name = "openconfig-lldp-types:MAC_BRIDGE" then { info with isBridge := enabled }
  else if name = "openconfig-lldp-types:ROUTER" then { info with isRouter := enabled }
  else if name = "openconfig-lldp-types:WLAN_ACCESS_POINT" then { info with isWlanAp := enabled }
  else if name = "openconfig-lldp-types:STATION_ONLY" then { info with isWlanAp := enabled }
  else info

def strOf (j : Ptr) : String := (getStringValue j).getD ""

/-- The body of the loop over the capabilities. -/
def capabilityParse (it : Json) : Parser PeerInfo Unit := do
  let name := getItem (some it) "name"
  let enabled := getItem (getItem (some it) "state") "enabled"
  need (name.isSome && enabled.isSome && (getStringValue name).isSome && isBool enabled)
  Parser.fill fun info => info.setCapability (strOf name) (isTrue enabled)

/-- The loop over the tokens; `left` rounds are left and `p` is what `strtok` gave last. -/
def mgmtLoop : ℕ → ℕ → Option (List Char × List Char) → Parser PeerInfo Unit
  | left + 1, i, some (p, rest) => do
    Parser.when (inetPton p).isSome (need (!inetPton6 p))
    Parser.fill fun info => { info with
      mgmtIps := Function.update info.mgmtIps i (strncpy inet6Addrstrlen (String.ofList p)) }
    mgmtLoop left (i + 1) (strtok ',' rest)
  | _, _, _ => pure ()

/-- `__lldp_peer_info_buf_parse`, from the parsed answer on. -/
def lldpPeerInfoBufParse (lldp : Ptr) : Parser PeerInfo Unit := do
  need lldp.isSome
  let state := getItem lldp "state"
  let capabilities := getItem lldp "capabilities"
  let capability := getItem capabilities "capability"
  need (state.isSome && capabilities.isSome && capability.isSome && isArray capability)
  forM (children capability) capabilityParse
  let description := getItem state "system-description"
  let mgmtAddress := getItem state "management-address"
  let systemName := getItem state "system-name"
  let chassisId := getItem state "chassis-id"
  need (isString description && isString mgmtAddress && isString systemName && isString chassisId)
  copy (getStringValue systemName) 64
  Parser.fill fun info => { info with name := strOf systemName }
  copy (getStringValue description) 512
  Parser.fill fun info => { info with description := strOf description }
  copy (getStringValue chassisId) 18
  Parser.fill fun info => { info with mac := strOf chassisId }
  mgmtLoop maxMgmtIps 0 (strtok ',' (strOf mgmtAddress).toList)
  let id := getItem lldp "id"
  need (isString id)
  copy (getStringValue id) 32
  Parser.fill fun info => { info with port := strOf id }

/-! ### Answers -/

/-- The text of the management addresses. -/
def mgmtText (lldp : Json) : List Char :=
  (strOf (getItem (getItem (some lldp) "state") "management-address")).toList

/-- The tokens that are read. -/
def mgmtTokens (lldp : Json) : List (List Char) := (tokens ',' (mgmtText lldp)).take maxMgmtIps

/-- Everything but the addresses is as the parser wants it. -/
structure Complete (lldp : Json) : Prop where
  capability : isArray (getItem (getItem (some lldp) "capabilities") "capability") = true
  capabilities : ∀ it ∈ children (getItem (getItem (some lldp) "capabilities") "capability"),
    isString (getItem (some it) "name") = true ∧
      isBool (getItem (getItem (some it) "state") "enabled") = true
  mgmtAddress : isString (getItem (getItem (some lldp) "state") "management-address") = true
  systemName :
    fits (getStringValue (getItem (getItem (some lldp) "state") "system-name")) (some 64) = true
  description :
    fits (getStringValue (getItem (getItem (some lldp) "state") "system-description")) (some 512) = true
  chassisId :
    fits (getStringValue (getItem (getItem (some lldp) "state") "chassis-id")) (some 18) = true
  id : fits (getStringValue (getItem (some lldp) "id")) (some 32) = true

def IsAddress (p : List Char) : Prop := (inetPton p).isSome = true ∨ inetPton6 p = true

instance (p : List Char) : Decidable (IsAddress p) := inferInstanceAs (Decidable (_ ∨ _))

/-- The parser succeeds exactly if the tokens are addresses, and then has them in their slots. -/
def ReadsAddresses (lldp : Json) (info : PeerInfo) : Prop :=
  let (ret, after) := lldpPeerInfoBufParse (some lldp) info
  (ret = .ok () ↔ ∀ p ∈ mgmtTokens lldp, IsAddress p) ∧
    (ret = .ok () → ∀ i p, (mgmtTokens lldp)[i]? = some p → Holds (after.mgmtIps i) (String.ofList p))

/-! ### The loop over the tokens -/

/-- No token is refused: the slots from the `i`th on are filled, and those before stay. -/
theorem mgmtLoop_run : ∀ (left i : ℕ) (cs : List Char) (info : PeerInfo),
    ∃ after, mgmtLoop left i (strtok ',' cs) info = (.ok (), after) ∧
      (∀ k < i, after.mgmtIps k = info.mgmtIps k) ∧
      ∀ j p, ((tokens ',' cs).take left)[j]? = some p →
        after.mgmtIps (i + j) = strncpy inet6Addrstrlen (String.ofList p)
  | 0, i, cs, info => by
      refine ⟨info, by unfold mgmtLoop; rfl, fun _ _ => rfl, fun j p h => ?_⟩
      rw [List.take_zero] at h
      cases h
  | left + 1, i, cs, info => by
      cases htok : strtok ',' cs with
      | none =>
        refine ⟨info, rfl, fun _ _ => rfl, fun j p h => ?_⟩
        rw [tokens_of_strtok_none htok] at h
        cases h
      | some next =>
        obtain ⟨p, rest⟩ := next
        have hpass : ∀ info : PeerInfo,
            Parser.when (inetPton p).isSome (need (!inetPton6 p)) info = (.ok (), info) := by
          intro info
          unfold Parser.when
          split
          · rename_i hv4
            rw [inetPton6_of_inetPton hv4]
            rfl
          · rfl
        let stored : PeerInfo := { info with
          mgmtIps := Function.update info.mgmtIps i (strncpy inet6Addrstrlen (String.ofList p)) }
        obtain ⟨after, hrun, hkeep, hslots⟩ := mgmtLoop_run left (i + 1) rest stored
        refine ⟨after, ?_, fun k hk => ?_, fun j q h => ?_⟩
        · rw [mgmtLoop, Parser.bind_of_ok (hpass info), fill_bind, hrun]
        · rw [hkeep k (Nat.lt_succ_of_lt hk)]
          exact Function.update_of_ne (Nat.ne_of_lt hk) _ _
        · rw [tokens_of_strtok htok, List.take_succ_cons] at h
          cases j with
          | zero =>
            cases h
            rw [Nat.add_zero, hkeep i (Nat.lt_succ_self i)]
            exact Function.update_self _ _ _
          | succ j =>
            rw [← hslots j q h]
            congr 1
            omega

/-! ### The whole parser -/

theorem capabilityParse_run {it : Json} (hname : isString (getItem (some it) "name") = true)
    (henabled : isBool (getItem (getItem (some it) "state") "enabled") = true) (info : PeerInfo) :
    capabilityParse it info = (.ok (), info.setCapability (strOf (getItem (some it) "name"))
      (isTrue (getItem (getItem (some it) "state") "enabled"))) := by
  have htext : (getStringValue (getItem (some it) "name")).isSome = true := hname
  unfold capabilityParse
  rw [need_bind, isSome_of_isString hname, isSome_of_isBool henabled, htext, henabled]
  rfl

theorem copy_bind_of_fits {v : Option String} {n : ℕ} (h : fits v (some n) = true)
    (y : Unit → Parser PeerInfo Unit) (s : PeerInfo) : (copy v n >>= y) s = y () s := by
  have hholds : (Check.text v (some n)).holds = true := h
  rw [copy, pass_bind, if_pos hholds]

theorem isString_of_fits {j : Ptr} {room : Option ℕ} (h : fits (getStringValue j) room = true) :
    isString j = true := by
  unfold isString
  cases hs : getStringValue j with
  | none =>
    rw [hs] at h
    cases h
  | some s => rfl

/-- A complete answer is always taken, and its tokens are stored. -/
theorem lldpPeerInfoBufParse_run {lldp : Json} (h : Complete lldp) (info : PeerInfo) :
    ∃ after, lldpPeerInfoBufParse (some lldp) info = (.ok (), after) ∧
      ∀ i p, (mgmtTokens lldp)[i]? = some p →
        after.mgmtIps i = strncpy inet6Addrstrlen (String.ofList p) := by
  have hstate := isSome_of_member (isSome_of_isString h.mgmtAddress)
  have hcapability := isSome_of_isArray h.capability
  obtain ⟨t, hcaps⟩ : ∃ t, forM (children (getItem (getItem (some lldp) "capabilities") "capability"))
      capabilityParse info = (.ok (), t) :=
    ⟨_, forM_run (fun it info hit => capabilityParse_run hit.1 hit.2 info) _ info h.capabilities⟩
  obtain ⟨after, hloop, -, hslots⟩ := mgmtLoop_run maxMgmtIps 0 (mgmtText lldp)
    { t with
      name := strOf (getItem (getItem (some lldp) "state") "system-name")
      description := strOf (getItem (getItem (some lldp) "state") "system-description")
      mac := strOf (getItem (getItem (some lldp) "state") "chassis-id") }
  refine ⟨{ after with port := strOf (getItem (some lldp) "id") }, ?_, fun i p hp => ?_⟩
  · unfold lldpPeerInfoBufParse
    have hlldp : (some lldp).isSome = true := rfl
    rw [need_bind, if_pos hlldp]
    dsimp only
    rw [need_bind, hstate, isSome_of_member hcapability, hcapability, h.capability]
    simp only [Bool.and_self, if_true]
    rw [Parser.bind_of_ok hcaps, need_bind,
      isString_of_fits h.description, h.mgmtAddress, isString_of_fits h.systemName,
      isString_of_fits h.chassisId]
    simp only [Bool.and_self, if_true]
    rw [copy_bind_of_fits h.systemName, fill_bind, copy_bind_of_fits h.description, fill_bind,
      copy_bind_of_fits h.chassisId, fill_bind]
    unfold mgmtText at hloop
    rw [Parser.bind_of_ok hloop, need_bind, if_pos (isString_of_fits h.id), copy_bind_of_fits h.id]
    rfl
  · have hslot := hslots i p hp
    rw [Nat.zero_add] at hslot
    exact hslot

/-! ### When the addresses are read -/

theorem holds_of_isAddress {p : List Char} (h : IsAddress p) :
    Holds (strncpy inet6Addrstrlen (String.ofList p)) (String.ofList p) := by
  have hshort : (∀ c ∈ p, Narrow c) ∧ p.length ≤ 45 := by
    rcases h with hv4 | hv6
    · exact ⟨narrow_of_inetPton hv4, Nat.le_trans (inetPton_some hv4).2 (by decide)⟩
    · exact inetPton6_true hv6
  refine strncpy_holds (Nat.lt_of_le_of_lt (strlen_le _) ?_)
  rw [utf8ByteSize_ofList p hshort.1]
  exact Nat.lt_succ_of_le hshort.2

/-- A complete answer is read right exactly if its tokens are addresses: it is never refused. -/
theorem readsAddresses_iff {lldp : Json} (h : Complete lldp) (info : PeerInfo) :
    ReadsAddresses lldp info ↔ ∀ p ∈ mgmtTokens lldp, IsAddress p := by
  obtain ⟨after, hrun, hslots⟩ := lldpPeerInfoBufParse_run h info
  unfold ReadsAddresses
  rw [hrun]
  dsimp only
  constructor
  · rintro ⟨hiff, -⟩
    exact hiff.mp rfl
  · intro hall
    refine ⟨iff_of_true rfl hall, fun _ i p hp => ?_⟩
    rw [hslots i p hp]
    exact holds_of_isAddress (hall p (List.mem_of_getElem? hp))

/-! ### Answers of a switch -/

/-- An answer with the addresses `mgmt`. -/
def answer (mgmt : String) : Json :=
  .obj [("id", .str "Ethernet1"),
    ("state", .obj [("system-name", .str "spine"), ("system-description", .str "switch"),
      ("chassis-id", .str "00:11:22:33:44:55"), ("management-address", .str mgmt)]),
    ("capabilities", .obj [("capability", .arr [
      .obj [("name", .str "openconfig-lldp-types:ROUTER"), ("state", .obj [("enabled", .bool true)])]])])]

theorem answer_complete (mgmt : String) : Complete (answer mgmt) where
  capability := rfl
  capabilities it hit := by
    rw [List.mem_singleton.mp hit]
    exact ⟨rfl, rfl⟩
  mgmtAddress := rfl
  systemName := (by decide : fits (some "spine") (some 64) = true)
  description := (by decide : fits (some "switch") (some 512) = true)
  chassisId := (by decide : fits (some "00:11:22:33:44:55") (some 18) = true)
  id := (by decide : fits (some "Ethernet1") (some 32) = true)

def noInfo : PeerInfo := ⟨false, false, false, false, "", "", "", fun _ => List.replicate 46 0, ""⟩

theorem mgmtTokens_answer (mgmt : String) :
    mgmtTokens (answer mgmt) = (tokens ',' mgmt.toList).take maxMgmtIps := rfl

theorem readsAddresses_iff_two : Complete (answer "10.0.0.1,fe80::1") ∧
    ReadsAddresses (answer "10.0.0.1,fe80::1") noInfo := by
  have hiff := readsAddresses_iff (answer_complete "10.0.0.1,fe80::1") noInfo
  refine And.intro (answer_complete _) ?_
  have hsplit : "10.0.0.1,fe80::1".toList = "10.0.0.1".toList ++ ',' :: "fe80::1".toList := by
    decide
  have hv4 : tokens ',' "10.0.0.1".toList = ["10.0.0.1".toList] :=
    tokens_single (by decide) (by decide)
  have hv6 : tokens ',' "fe80::1".toList = ["fe80::1".toList] :=
    tokens_single (by decide) (by decide)
  rw [hiff, mgmtTokens_answer, hsplit, tokens_append, hv4, hv6]
  exact List.forall_mem_cons.mpr ⟨by decide, List.forall_mem_singleton.mpr (by decide)⟩

/-- A name in place of an address is taken. -/
theorem takes_a_name : Complete (answer "switch.local") ∧
    (lldpPeerInfoBufParse (some (answer "switch.local")) noInfo).1 = .ok () ∧
    ¬ IsAddress "switch.local".toList ∧ ¬ ReadsAddresses (answer "switch.local") noInfo := by
  obtain ⟨after, hrun, -⟩ := lldpPeerInfoBufParse_run (answer_complete "switch.local") noInfo
  have hone : tokens ',' "switch.local".toList = ["switch.local".toList] :=
    tokens_single (by decide) (by decide)
  have hno : ¬ IsAddress "switch.local".toList := by decide
  refine And.intro (answer_complete _) (And.intro ?_ (And.intro hno ?_))
  · rw [hrun]
  · unfold ReadsAddresses
    rw [hrun, mgmtTokens_answer, hone]
    dsimp only
    intro h
    exact hno (h.1.mp rfl _ (List.mem_singleton_self _))

end Ucentral.Plat.LldpPeer
