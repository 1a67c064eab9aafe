import Ucentral.Lib.Json
import Ucentral.Lib.Parser
import Ucentral.Plat.Device

/-! How `plat_state_init` reads the DHCP relays of the VLANs into the cache.

    `gnma_vlan_dhcp_relay_server_list_get` takes the room for addresses and gives back their number in
    one variable, and the loop over the VLANs has one such variable for all of them. The entry of a VLAN
    has room for one address; from the second VLAN on, the room that the getter is told is the number of
    addresses of the VLAN before. -/

namespace Ucentral.Plat
open CJson Inet Parse

/-! ### The queries -/

/-- The replies about the relay of each VLAN; none if the get fails or its body is not JSON. -/
structure RelayReplies where
  helperAddress : ℕ → Ptr
  circuitId : ℕ → Ptr
  policyAction : ℕ → Ptr
  maxHopCount : ℕ → Ptr

/-- What `gnma_vlan_dhcp_relay_server_list_get` is given and gives back: `*list_size`, the first of the
    addresses, and how many from there on it has written. -/
structure ServerList where
  size : ℕ
  first : InAddr
  slots : ℕ

/-- `arr_len > *list_size` -/
def serverRoom (arrLen : ℕ) : Parser ServerList Unit := fun l =>
  if l.size < arrLen then (.error .reject, { l with size := arrLen }) else (.ok (), l)

/-- `inet_pton` into the next slot, which keeps what it has if the text is no address. -/
def serverPut (addr : Json) (l : ServerList) : ServerList where
  size := l.size + 1
  first := if l.size = 0 then (inetPton ((getStringValue (some addr)).getD "").toList).getD l.first
    else l.first
  slots := max l.slots (l.size + 1)

/-- `gnma_vlan_dhcp_relay_server_list_get`. The length of the array is counted in 16 bits. -/
def gnmaVlanDhcpRelayServerListGet (reply : Ptr) : Parser ServerList Unit := do
  let addrArr := getItem reply "openconfig-relay-agent:helper-address"
  need (isArray addrArr)
  serverRoom ((children addrArr).length % 65536)
  -- `memset` of as many addresses as there is room for
  Parser.fill fun l => ⟨0, if l.size = 0 then l.first else InAddr.zero, max l.slots l.size⟩
  forM (children addrArr) fun addr => do
    text (getStringValue (some addr))
    Parser.fill (serverPut addr)

/-- The text of a circuit id; it is set as `%i` and read as `%u`. -/
def circuitIdFrom (str : String) : Option RelayCircuitId :=
  if str = "%h:%p" then some .hp else if str = "%u" then some .i else if str = "%p" then some .p else none

/-- `gnma_vlan_dhcp_relay_ciruit_id_get`. -/
def gnmaVlanDhcpRelayCiruitIdGet (reply : Ptr) : Parser CachedRelay Unit := do
  let circId := getItem reply "openconfig-relay-agent:circuit-id"
  let id := circuitIdFrom ((getStringValue circId).getD "")
  need (isString circId)
  need id.isSome
  Parser.fill fun r => { r with circId := id.getD r.circId }

def policyActionFrom (str : String) : Option RelayPolicyAction :=
  if str = "DISCARD" then some .discard else if str = "APPEND" then some .append
  else if str = "REPLACE" then some .replace else none

/-- `gnma_vlan_dhcp_relay_policy_action_get`. -/
def gnmaVlanDhcpRelayPolicyActionGet (reply : Ptr) : Parser CachedRelay Unit := do
  let policyAct := getItem reply "openconfig-relay-agent-ext:policy-action"
  let act := policyActionFrom ((getStringValue policyAct).getD "")
  need (isString policyAct)
  need act.isSome
  Parser.fill fun r => { r with policyAct := act.getD r.policyAct }

/-- `gnma_vlan_dhcp_relay_max_hop_cnt_get`. -/
def gnmaVlanDhcpRelayMaxHopCntGet (reply : Ptr) : Parser CachedRelay Unit := do
  let hopCnt := getItem reply "openconfig-relay-agent-ext:max-hop-count"
  need (isNumber hopCnt)
  Parser.fill fun r => { r with maxHopCnt := (getNumberValue hopCnt).toUInt 8 }

/-! ### The loop -/

def platDhcpRelayMaxServers : ℕ := 1

/-- `arr_size`, the relays of `plat_state`, and how many addresses each call has written. -/
structure RelayInit where
  arrSize : ℕ := platDhcpRelayMaxServers
  relay : ℕ → CachedRelay := fun _ => {}
  slots : List ℕ := []

/-- The rest of a turn, once the addresses are there. -/
def relayParams (dev : RelayReplies) (vid : ℕ) : Parser CachedRelay Unit := do
  gnmaVlanDhcpRelayCiruitIdGet (dev.circuitId vid)
  gnmaVlanDhcpRelayPolicyActionGet (dev.policyAction vid)
  gnmaVlanDhcpRelayMaxHopCntGet (dev.maxHopCount vid)
  Parser.fill fun r => { r with enabled := true }

/-- One turn of the loop of `plat_state_init` over the VLANs. A VLAN whose addresses cannot be had is
    passed over; whatever fails after that ends the loop. -/
def relayInitVlan (dev : RelayReplies) (vid : ℕ) : Parser RelayInit Unit := fun s =>
  let got := gnmaVlanDhcpRelayServerListGet (dev.helperAddress vid)
    ⟨s.arrSize, (s.relay vid).helperAddress, 0⟩
  let t : RelayInit :=
    { arrSize := got.2.size
      relay := Function.update s.relay vid { s.relay vid with helperAddress := got.2.first }
      slots := s.slots ++ [got.2.slots] }
  match got.1 with
  | .error .reject | .error .format => (.ok (), t)
  | .error .fault => (.error .fault, t)
  | .ok () => Parser.within (fun t : RelayInit => t.relay vid)
      (fun r t => { t with relay := Function.update t.relay vid r }) (relayParams dev vid) t

/-- The VLANs of the switch, and the loop over them. -/
def platStateInitRelays (dev : RelayReplies) (vlans : Bitmap) : Parser RelayInit Unit :=
  forM (vlans.bitsSet maxVlans) (relayInitVlan dev)

/-! ### One turn -/

/-- The helper addresses in a reply, if it has an array of them. -/
def helpersOf (reply : Ptr) : Option (List Json) :=
  match getItem reply "openconfig-relay-agent:helper-address" with
  | some (.arr addrs) => some addrs
  | _ => none

def RelayReplies.helpers (dev : RelayReplies) (vid : ℕ) : Option (List Json) :=
  helpersOf (dev.helperAddress vid)

/-- The address in the cache. -/
def firstAddress : List Json → InAddr
  | [] => InAddr.zero
  | addr :: _ => (inetPton ((getStringValue (some addr)).getD "").toList).getD InAddr.zero

/-- What the other replies say. -/
def circuitIdText (reply : Ptr) : String :=
  (getStringValue (getItem reply "openconfig-relay-agent:circuit-id")).getD ""

def policyActionText (reply : Ptr) : String :=
  (getStringValue (getItem reply "openconfig-relay-agent-ext:policy-action")).getD ""

def hopCountOf (reply : Ptr) : Double :=
  getNumberValue (getItem reply "openconfig-relay-agent-ext:max-hop-count")

/-- An enabled relay with this address. -/
def RelayReplies.relayTo (dev : RelayReplies) (vid : ℕ) (ip : InAddr) : CachedRelay where
  circId := (circuitIdFrom (circuitIdText (dev.circuitId vid))).getD .hp
  policyAct := (policyActionFrom (policyActionText (dev.policyAction vid))).getD .discard
  maxHopCnt := (hopCountOf (dev.maxHopCount vid)).toUInt 8
  helperAddress := ip
  enabled := true

/-- A getter that tests its reply and fills in one field. -/
theorem turns_needs_fill {f : CachedRelay → CachedRelay} (b b' : Bool) :
    Turns id f (need b >>= fun _ => need b' >>= fun _ => Parser.fill f) :=
  turns_leaves_bind (leaves_pass _) fun _ => turns_leaves_bind (leaves_pass _) fun _ =>
    turns_fill fun _ => rfl

theorem circuitIdGet_ok {reply : Ptr} {r : CachedRelay}
    (h : (gnmaVlanDhcpRelayCiruitIdGet reply r).1 = .ok ()) :
    (gnmaVlanDhcpRelayCiruitIdGet reply r).2 =
      { r with circId := (circuitIdFrom (circuitIdText reply)).getD r.circId } :=
  turns_needs_fill _ _ r () h

theorem policyActionGet_ok {reply : Ptr} {r : CachedRelay}
    (h : (gnmaVlanDhcpRelayPolicyActionGet reply r).1 = .ok ()) :
    (gnmaVlanDhcpRelayPolicyActionGet reply r).2 =
      { r with policyAct := (policyActionFrom (policyActionText reply)).getD r.policyAct } :=
  turns_needs_fill _ _ r () h

theorem maxHopCntGet_ok {reply : Ptr} {r : CachedRelay}
    (h : (gnmaVlanDhcpRelayMaxHopCntGet reply r).1 = .ok ()) :
    (gnmaVlanDhcpRelayMaxHopCntGet reply r).2 = { r with maxHopCnt := (hopCountOf reply).toUInt 8 } := by
  obtain ⟨-, heq⟩ := need_bind_ok h
  unfold gnmaVlanDhcpRelayMaxHopCntGet
  rw [heq]
  rfl

theorem relayParams_ok {dev : RelayReplies} {vid : ℕ} {ip : InAddr}
    (h : (relayParams dev vid { helperAddress := ip }).1 = .ok ()) :
    (relayParams dev vid { helperAddress := ip }).2 = dev.relayTo vid ip := by
  unfold relayParams at h ⊢
  obtain ⟨_, hcirc, heq⟩ := Parser.bind_ok h
  rw [heq] at h ⊢
  obtain ⟨_, hpolicy, heq⟩ := Parser.bind_ok h
  rw [heq] at h ⊢
  obtain ⟨_, hhop, heq⟩ := Parser.bind_ok h
  rw [heq, Parser.fill, maxHopCntGet_ok hhop, policyActionGet_ok hpolicy, circuitIdGet_ok hcirc]
  rfl

/-- The loop over the addresses: their number, and the first of them. -/
theorem forM_serverPut (addrs : List Json) {l : ServerList} (hle : l.size ≤ l.slots)
    (h : (forM addrs (fun addr => text (getStringValue (some addr)) >>= fun _ =>
      Parser.fill (serverPut addr)) l).1 = .ok ()) :
    (forM addrs (fun addr => text (getStringValue (some addr)) >>= fun _ =>
        Parser.fill (serverPut addr)) l).2 =
      ⟨l.size + addrs.length, (if l.size = 0 then (addrs.head?.bind fun addr =>
        inetPton ((getStringValue (some addr)).getD "").toList) else none).getD l.first,
        max l.slots (l.size + addrs.length)⟩ := by
  induction addrs generalizing l with
  | nil =>
    have hmax : max l.slots l.size = l.slots := max_eq_left hle
    have hfirst : (if l.size = 0 then none else none : Option InAddr) = none := ite_self none
    rw [List.head?_nil, Option.bind_none, hfirst, List.length_nil, Nat.add_zero, hmax]
    rfl
  | cons addr addrs ih =>
    rw [List.forM_cons] at h ⊢
    obtain ⟨_, hput, heq⟩ := Parser.bind_ok h
    obtain ⟨_, -, hturn⟩ := Parser.bind_ok hput
    have hstate : (text (getStringValue (some addr)) l).2 = l := pass_snd _ l
    have hnext : ((text (getStringValue (some addr)) >>= fun _ => Parser.fill (serverPut addr)) l).2 =
        serverPut addr l := by
      rw [hturn, hstate]
      rfl
    rw [heq, hnext] at h ⊢
    rw [ih (by simp [serverPut]) h]
    have hslots : max (max l.slots (l.size + 1)) (l.size + 1 + addrs.length) =
        max l.slots (l.size + (addrs.length + 1)) := by omega
    simp only [serverPut, Nat.succ_ne_zero, if_false, Option.getD_none, List.length_cons,
      List.head?_cons, Option.bind_some, hslots]
    by_cases hzero : l.size = 0
    · simp [hzero, Nat.add_comm]
    · simp [hzero, Nat.add_comm, Nat.add_left_comm]

/-- What a turn can do, by the room it is told: the entry of its VLAN, the room for the next one, and
    how many addresses were written. -/
inductive Turn (dev : RelayReplies) (vid room : ℕ) : CachedRelay → ℕ → ℕ → Prop
  | unanswered : dev.helpers vid = none → Turn dev vid room {} room 0
  | refused {addrs} : dev.helpers vid = some addrs → room < addrs.length % 65536 →
    Turn dev vid room {} (addrs.length % 65536) 0
  | cached {addrs} : dev.helpers vid = some addrs → addrs.length % 65536 ≤ room →
    Turn dev vid room (dev.relayTo vid (firstAddress addrs)) addrs.length (max room addrs.length)

/-- The loop over the addresses stops at a fault only. -/
theorem forM_serverPut_error (addrs : List Json) (l : ServerList) {e : Stop} (he : e ≠ .fault) :
    (forM addrs (fun addr => text (getStringValue (some addr)) >>= fun _ =>
      Parser.fill (serverPut addr)) l).1 ≠ .error e := by
  induction addrs generalizing l with
  | nil => exact nofun
  | cons addr addrs ih =>
    rw [List.forM_cons]
    cases hv : getStringValue (some addr) with
    | none => exact fun h => he (by cases h; rfl)
    | some v =>
      have hput : (text (some v) >>= fun _ => Parser.fill (serverPut addr)) l =
        (.ok (), serverPut addr l) := rfl
      rw [Parser.bind_of_ok hput]
      exact ih _

theorem firstAddress_eq (addrs : List Json) :
    (addrs.head?.bind fun addr => inetPton ((getStringValue (some addr)).getD "").toList).getD
      InAddr.zero = firstAddress addrs := by
  cases addrs <;> rfl

theorem serverListGet_none {reply : Ptr} (h : helpersOf reply = none) (l : ServerList) :
    gnmaVlanDhcpRelayServerListGet reply l = (.error .reject, l) := by
  unfold gnmaVlanDhcpRelayServerListGet
  rw [helpersOf] at h
  rcases hitem : getItem reply "openconfig-relay-agent:helper-address" with _ | j
  · rfl
  · cases j with
    | arr addrs =>
      rw [hitem] at h
      cases h
    | _ => rfl

/-- The getter, for an entry that has no address yet. -/
theorem serverListGet_some {reply : Ptr} {addrs : List Json} (h : helpersOf reply = some addrs)
    (room : ℕ) : gnmaVlanDhcpRelayServerListGet reply ⟨room, InAddr.zero, 0⟩ =
      if room < addrs.length % 65536 then
        (.error .reject, ⟨addrs.length % 65536, InAddr.zero, 0⟩)
      else forM addrs (fun addr => text (getStringValue (some addr)) >>= fun _ =>
        Parser.fill (serverPut addr)) ⟨0, InAddr.zero, room⟩ := by
  have hitem : getItem reply "openconfig-relay-agent:helper-address" = some (.arr addrs) := by
    rw [helpersOf] at h
    split at h
    · next heq =>
      cases h
      exact heq
    · cases h
  unfold gnmaVlanDhcpRelayServerListGet
  rw [hitem, need_bind, if_pos (show isArray (some (.arr addrs)) = true from rfl), children_arr]
  by_cases hroom : room < addrs.length % 65536
  · have hfull : serverRoom (addrs.length % 65536) ⟨room, InAddr.zero, 0⟩ =
        (.error .reject, ⟨addrs.length % 65536, InAddr.zero, 0⟩) := if_pos hroom
    rw [Parser.bind_of_error hfull, if_pos hroom]
  · have hfits : serverRoom (addrs.length % 65536) ⟨room, InAddr.zero, 0⟩ =
        (.ok (), ⟨room, InAddr.zero, 0⟩) := if_neg hroom
    rw [Parser.bind_of_ok hfits, fill_bind, if_neg hroom, ite_self, Nat.zero_max]

theorem relayInitVlan_ok {dev : RelayReplies} {vid : ℕ} {s : RelayInit} (hvid : s.relay vid = {})
    (h : (relayInitVlan dev vid s).1 = .ok ()) : ∃ entry room slots,
      Turn dev vid s.arrSize entry room slots ∧ (relayInitVlan dev vid s).2 =
        ⟨room, Function.update s.relay vid entry, s.slots ++ [slots]⟩ := by
  unfold relayInitVlan at h ⊢
  rw [hvid] at h ⊢
  rcases hhelpers : dev.helpers vid with _ | addrs
  · rw [serverListGet_none hhelpers]
    exact ⟨_, _, _, .unanswered hhelpers, rfl⟩
  · rw [serverListGet_some hhelpers] at h ⊢
    by_cases hroom : s.arrSize < addrs.length % 65536
    · rw [if_pos hroom]
      exact ⟨_, _, _, .refused hhelpers hroom, rfl⟩
    · rw [if_neg hroom] at h ⊢
      have hne {e : Stop} (he : e ≠ .fault) :=
        forM_serverPut_error addrs ⟨0, InAddr.zero, s.arrSize⟩ he
      have hloop := forM_serverPut addrs (l := ⟨0, InAddr.zero, s.arrSize⟩) (Nat.zero_le _)
      rcases hrun : forM addrs (fun addr => text (getStringValue (some addr)) >>= fun _ =>
        Parser.fill (serverPut addr)) ⟨0, InAddr.zero, s.arrSize⟩ with ⟨(_ | _ | _) | _, l⟩
      · rw [hrun] at hne
        exact absurd rfl (hne nofun)
      · rw [hrun] at hne
        exact absurd rfl (hne nofun)
      · rw [hrun] at h
        cases h
      · rw [hrun] at h hloop
        obtain rfl := hloop rfl
        refine ⟨_, _, _, .cached hhelpers (Nat.le_of_not_lt hroom), ?_⟩
        have hparams : (relayParams dev vid { helperAddress := firstAddress addrs }).1 = .ok () := by
          simpa [Parser.within, firstAddress_eq] using h
        simp [Parser.within, firstAddress_eq, relayParams_ok hparams]

/-! ### The run -/

/-- The relay of a VLAN by its own replies: none where the switch has several helpers. -/
def ownRelay (dev : RelayReplies) (vid : ℕ) : CachedRelay :=
  match dev.helpers vid with
  | none => {}
  | some addrs =>
    if addrs.length ≤ platDhcpRelayMaxServers then dev.relayTo vid (firstAddress addrs) else {}

/-- The room that the getter is told is right for this number of helpers: enough for one, not enough
    for several. -/
def HasRoom (room n : ℕ) : Prop :=
  (n = 0 ∧ room ≤ 1) ∨ (n = 1 ∧ room = 1) ∨ (2 ≤ n ∧ room < n % 65536)

/-- Each VLAN that is answered has the room, which is the number of helpers of the one before. -/
def RoomKept (dev : RelayReplies) : ℕ → List ℕ → Prop
  | _, [] => True
  | room, vid :: vids =>
    match dev.helpers vid with
    | none => RoomKept dev room vids
    | some addrs => HasRoom room addrs.length ∧ RoomKept dev (addrs.length % 65536) vids

theorem relayTo_ne (dev : RelayReplies) (vid : ℕ) (ip : InAddr) : {} ≠ dev.relayTo vid ip := by
  intro h
  have henabled := congrArg CachedRelay.enabled h
  cases henabled

/-- A turn is right exactly if there is room. -/
theorem Turn.own_iff {dev : RelayReplies} {vid room room' slots : ℕ} {entry : CachedRelay}
    (h : Turn dev vid room entry room' slots) :
    entry = ownRelay dev vid ∧ slots ≤ platDhcpRelayMaxServers ↔
      ∀ addrs, dev.helpers vid = some addrs → HasRoom room addrs.length := by
  unfold ownRelay HasRoom platDhcpRelayMaxServers
  cases h with
  | unanswered hnone => simp [hnone]
  | @refused addrs hsome hlt =>
    rw [hsome]
    by_cases hone : addrs.length ≤ 1
    · have hne := relayTo_ne dev vid (firstAddress addrs)
      simp only [if_pos hone, hne, false_and, false_iff]
      intro hroom
      rcases hroom addrs rfl with ⟨_, _⟩ | ⟨_, _⟩ | ⟨_, _⟩ <;> omega
    · simp only [if_neg hone, true_and]
      refine iff_of_true (Nat.zero_le _) ?_
      intro addrs' haddrs
      cases haddrs
      exact Or.inr (Or.inr ⟨by omega, hlt⟩)
  | @cached addrs hsome hle =>
    rw [hsome]
    by_cases hone : addrs.length ≤ 1
    · simp only [if_pos hone, true_and]
      constructor
      · intro hmax addrs' haddrs
        cases haddrs
        omega
      · intro hroom
        rcases hroom addrs rfl with ⟨_, _⟩ | ⟨_, _⟩ | ⟨_, _⟩ <;> omega
    · refine iff_of_false ?_ ?_
      · rintro ⟨-, hmax⟩
        omega
      · intro hroom
        rcases hroom addrs rfl with ⟨_, _⟩ | ⟨_, _⟩ | ⟨_, _⟩ <;> omega

/-- The room that such a turn leaves. -/
theorem Turn.room_of_some {dev : RelayReplies} {vid room room' slots : ℕ} {entry : CachedRelay}
    (h : Turn dev vid room entry room' slots) {addrs : List Json} (haddrs : dev.helpers vid = some addrs)
    (hroom : HasRoom room addrs.length) : room' = addrs.length % 65536 := by
  cases h with
  | unanswered hnone =>
    rw [haddrs] at hnone
    cases hnone
  | refused hsome _ =>
    rw [haddrs] at hsome
    cases hsome
    rfl
  | cached hsome hle =>
    rw [haddrs] at hsome
    cases hsome
    rcases hroom with ⟨_, _⟩ | ⟨_, _⟩ | ⟨_, _⟩ <;> omega

theorem Turn.room_of_none {dev : RelayReplies} {vid room room' slots : ℕ} {entry : CachedRelay}
    (h : Turn dev vid room entry room' slots) (hnone : dev.helpers vid = none) : room' = room := by
  cases h with
  | unanswered _ => rfl
  | refused hsome _ =>
    rw [hnone] at hsome
    cases hsome
  | cached hsome _ =>
    rw [hnone] at hsome
    cases hsome

theorem roomKept_cons {dev : RelayReplies} {vid room room' slots : ℕ} {entry : CachedRelay}
    (h : Turn dev vid room entry room' slots) (vids : List ℕ) : RoomKept dev room (vid :: vids) ↔
      (∀ addrs, dev.helpers vid = some addrs → HasRoom room addrs.length) ∧ RoomKept dev room' vids := by
  rw [RoomKept]
  rcases hhelpers : dev.helpers vid with _ | addrs
  · simp [h.room_of_none hhelpers]
  · constructor
    · rintro ⟨hroom, hkept⟩
      rw [h.room_of_some hhelpers hroom]
      exact ⟨fun _ haddrs => Option.some.inj haddrs ▸ hroom, hkept⟩
    · rintro ⟨hroom, hkept⟩
      rw [h.room_of_some hhelpers (hroom addrs rfl)] at hkept
      exact ⟨hroom addrs rfl, hkept⟩

section Loop

variable {dev : RelayReplies}

/-- The VLANs that are still to come have no entry yet. -/
theorem empty_after {vid : ℕ} {vids : List ℕ} {relay : ℕ → CachedRelay} (hvid : vid ∉ vids)
    (hempty : ∀ v ∈ vid :: vids, relay v = {}) (entry : CachedRelay) :
    ∀ v ∈ vids, Function.update relay vid entry v = {} := by
  intro v hv
  have hne : v ≠ vid := by
    rintro rfl
    exact hvid hv
  rw [Function.update_of_ne hne]
  exact hempty v (List.mem_cons_of_mem _ hv)

/-- The loop leaves the other VLANs alone, and keeps what it has noted. -/
theorem forM_relayInitVlan_frame {vids : List ℕ} {s : RelayInit} (hnodup : vids.Nodup)
    (hempty : ∀ vid ∈ vids, s.relay vid = {}) (h : (forM vids (relayInitVlan dev) s).1 = .ok ()) :
    (∀ vid ∉ vids, (forM vids (relayInitVlan dev) s).2.relay vid = s.relay vid) ∧
      ∀ n ∈ s.slots, n ∈ (forM vids (relayInitVlan dev) s).2.slots := by
  induction vids generalizing s with
  | nil => exact ⟨fun _ _ => rfl, fun _ hn => hn⟩
  | cons vid vids ih =>
    rw [List.forM_cons] at h ⊢
    obtain ⟨_, hturn, heq⟩ := Parser.bind_ok h
    rw [heq] at h ⊢
    obtain ⟨hvid, hvids⟩ := List.nodup_cons.mp hnodup
    obtain ⟨entry, room, slots, -, hstate⟩ := relayInitVlan_ok (hempty vid List.mem_cons_self) hturn
    rw [hstate] at h ⊢
    obtain ⟨hother, hslots⟩ := ih hvids (empty_after hvid hempty entry) h
    constructor
    · intro v hv
      rw [List.mem_cons, not_or] at hv
      rw [hother v hv.2]
      exact Function.update_of_ne hv.1 _ _
    · intro n hn
      exact hslots n (List.mem_append_left _ hn)

/-- From any room, the loop gets every VLAN right exactly if there is room at each. -/
theorem forM_relayInitVlan_own_iff {vids : List ℕ} {s : RelayInit} (hnodup : vids.Nodup)
    (hempty : ∀ vid ∈ vids, s.relay vid = {}) (hslots : ∀ n ∈ s.slots, n ≤ platDhcpRelayMaxServers)
    (h : (forM vids (relayInitVlan dev) s).1 = .ok ()) :
    (∀ vid ∈ vids, (forM vids (relayInitVlan dev) s).2.relay vid = ownRelay dev vid) ∧
      (∀ n ∈ (forM vids (relayInitVlan dev) s).2.slots, n ≤ platDhcpRelayMaxServers) ↔
    RoomKept dev s.arrSize vids := by
  induction vids generalizing s with
  | nil => exact iff_of_true ⟨nofun, hslots⟩ trivial
  | cons vid vids ih =>
    rw [List.forM_cons] at h ⊢
    obtain ⟨_, hturn, heq⟩ := Parser.bind_ok h
    rw [heq] at h ⊢
    obtain ⟨hvid, hvids⟩ := List.nodup_cons.mp hnodup
    obtain ⟨entry, room, slots, hstep, hstate⟩ :=
      relayInitVlan_ok (hempty vid List.mem_cons_self) hturn
    rw [hstate] at h ⊢
    have hrest := empty_after hvid hempty entry
    obtain ⟨hother, hkeep⟩ := forM_relayInitVlan_frame hvids hrest h
    have hentry := hother vid hvid
    have hmem : slots ∈ s.slots ++ [slots] := List.mem_append_right _ (List.mem_singleton_self _)
    -- what this turn has done is still there at the end
    have hturn_iff : (∀ addrs, dev.helpers vid = some addrs → HasRoom s.arrSize addrs.length) ↔
        (forM vids (relayInitVlan dev) ⟨room, Function.update s.relay vid entry, s.slots ++ [slots]⟩).2.relay
          vid = ownRelay dev vid ∧ slots ≤ platDhcpRelayMaxServers := by
      rw [hentry, ← hstep.own_iff]
      simp
    rw [roomKept_cons hstep, hturn_iff]
    constructor
    · rintro ⟨hown, hall⟩
      have hslot := hall slots (hkeep slots hmem)
      refine ⟨⟨hown vid List.mem_cons_self, hslot⟩, ?_⟩
      refine (ih hvids hrest ?_ h).mp ⟨fun v hv => hown v (List.mem_cons_of_mem _ hv), hall⟩
      exact fun n hn => hall n (hkeep n hn)
    · rintro ⟨⟨hown, hslot⟩, hkept⟩
      have hnoted : ∀ n ∈ s.slots ++ [slots], n ≤ platDhcpRelayMaxServers := by
        intro n hn
        rcases List.mem_append.mp hn with hn | hn
        · exact hslots n hn
        · rw [List.mem_singleton.mp hn]
          exact hslot
      obtain ⟨hrestown, hall⟩ := (ih hvids hrest hnoted h).mpr hkept
      refine ⟨?_, hall⟩
      intro v hv
      rcases List.mem_cons.mp hv with rfl | hv
      · exact hown
      · exact hrestown v hv

end Loop

/-- What is expected of the cache: each VLAN has the relay of its own replies, the other entries are
    empty, and no call writes past the room of an entry. -/
structure RelaysOwn (dev : RelayReplies) (vlans : Bitmap) (r : RelayInit) : Prop where
  own : ∀ vid ∈ vlans.bitsSet maxVlans, r.relay vid = ownRelay dev vid
  other : ∀ vid ∉ vlans.bitsSet maxVlans, r.relay vid = {}
  written : ∀ n ∈ r.slots, n ≤ platDhcpRelayMaxServers

/-- Two switches answer alike about a VLAN. -/
structure SameReplies (dev dev' : RelayReplies) (vid : ℕ) : Prop where
  helperAddress : dev.helperAddress vid = dev'.helperAddress vid
  circuitId : dev.circuitId vid = dev'.circuitId vid
  policyAction : dev.policyAction vid = dev'.policyAction vid
  maxHopCount : dev.maxHopCount vid = dev'.maxHopCount vid

theorem SameReplies.ownRelay_eq {dev dev' : RelayReplies} {vid : ℕ} (h : SameReplies dev dev' vid) :
    ownRelay dev vid = ownRelay dev' vid := by
  unfold ownRelay RelayReplies.helpers RelayReplies.relayTo
  rw [h.helperAddress, h.circuitId, h.policyAction, h.maxHopCount]

theorem relaysOwn_iff_kept {dev : RelayReplies} {vlans : Bitmap}
    (h : (platStateInitRelays dev vlans {}).1 = .ok ()) :
    RelaysOwn dev vlans (platStateInitRelays dev vlans {}).2 ↔
      RoomKept dev platDhcpRelayMaxServers (vlans.bitsSet maxVlans) := by
  have hnodup := vlans.nodup_bitsSet maxVlans
  have hrun := forM_relayInitVlan_own_iff hnodup (fun _ _ => rfl) (List.forall_mem_nil _) h
  rw [← show (({} : RelayInit).arrSize) = platDhcpRelayMaxServers from rfl, ← hrun]
  constructor
  · intro hown
    exact ⟨hown.own, hown.written⟩
  · rintro ⟨hown, hwritten⟩
    have hother := (forM_relayInitVlan_frame hnodup (fun _ _ => rfl) h).1
    exact ⟨hown, fun vid hvid => hother vid hvid, hwritten⟩

/-- The relays are those of the VLANs exactly if the number of helpers of each VLAN is room enough for
    the next one and not more; then the entry of a VLAN depends on the replies about it alone. -/
theorem relaysOwn_iff (dev : RelayReplies) (vlans : Bitmap)
    (h : (platStateInitRelays dev vlans {}).1 = .ok ()) :
    (RelaysOwn dev vlans (platStateInitRelays dev vlans {}).2 ↔
      RoomKept dev platDhcpRelayMaxServers (vlans.bitsSet maxVlans)) ∧
    ∀ dev' vlans', (platStateInitRelays dev' vlans' {}).1 = .ok () →
      RoomKept dev platDhcpRelayMaxServers (vlans.bitsSet maxVlans) →
      RoomKept dev' platDhcpRelayMaxServers (vlans'.bitsSet maxVlans) →
      ∀ vid ∈ vlans.bitsSet maxVlans, vid ∈ vlans'.bitsSet maxVlans → SameReplies dev dev' vid →
        (platStateInitRelays dev vlans {}).2.relay vid =
          (platStateInitRelays dev' vlans' {}).2.relay vid := by
  refine ⟨relaysOwn_iff_kept h, ?_⟩
  intro dev' vlans' h' hkept hkept' vid hvid hvid' hsame
  have hown := ((relaysOwn_iff_kept h).mpr hkept).own vid hvid
  have hown' := ((relaysOwn_iff_kept h').mpr hkept').own vid hvid'
  rw [hown, hown', hsame.ownRelay_eq]

/-- A switch with the same parameters for every relay. -/
def relaysAt (helpers : ℕ → List String) : RelayReplies where
  helperAddress := fun vid =>
    some (.obj [("openconfig-relay-agent:helper-address", .arr ((helpers vid).map .str))])
  circuitId := fun _ => some (.obj [("openconfig-relay-agent:circuit-id", .str "%p")])
  policyAction := fun _ => some (.obj [("openconfig-relay-agent-ext:policy-action", .str "APPEND")])
  maxHopCount := fun _ => some (.obj [("openconfig-relay-agent-ext:max-hop-count", .num (.fin 10))])

/-- The VLANs 10 and 20. -/
def tenTwenty : Bitmap := fun i => i == 10 || i == 20

def oneEach : ℕ → List String
  | 10 => ["10.0.0.1"]
  | _ => ["10.0.0.2"]

def noneThenOne : ℕ → List String
  | 10 => []
  | _ => ["10.0.0.2"]

def threeEach : ℕ → List String := fun _ => ["10.0.0.1", "10.0.0.2", "10.0.0.3"]

theorem bitsSet_tenTwenty : tenTwenty.bitsSet maxVlans = [10, 20] := by
  decide +kernel

theorem platStateInitRelays_tenTwenty (dev : RelayReplies) :
    platStateInitRelays dev tenTwenty = forM [10, 20] (relayInitVlan dev) := by
  rw [platStateInitRelays, bitsSet_tenTwenty]

theorem relaysOwn_oneEach : RelaysOwn (relaysAt oneEach) tenTwenty
    (platStateInitRelays (relaysAt oneEach) tenTwenty {}).2 := by
  have hok : (platStateInitRelays (relaysAt oneEach) tenTwenty {}).1 = .ok () := by
    rw [platStateInitRelays_tenTwenty]
    decide +kernel
  refine (relaysOwn_iff (relaysAt oneEach) tenTwenty hok).1.mpr ?_
  rw [bitsSet_tenTwenty]
  have hroom : HasRoom 1 1 := Or.inr (Or.inl ⟨rfl, rfl⟩)
  exact ⟨hroom, hroom, trivial⟩

/-- The VLAN with one helper is left out after one without, and three addresses are written to an
    entry after one with three. -/
theorem relay_room_from_before :
    ((platStateInitRelays (relaysAt noneThenOne) tenTwenty {}).1 = .ok () ∧
      ((platStateInitRelays (relaysAt noneThenOne) tenTwenty {}).2.relay 20).enabled = false ∧
      ((platStateInitRelays (relaysAt oneEach) tenTwenty {}).2.relay 20).enabled = true ∧
      ¬ RelaysOwn (relaysAt noneThenOne) tenTwenty
        (platStateInitRelays (relaysAt noneThenOne) tenTwenty {}).2) ∧
    (platStateInitRelays (relaysAt threeEach) tenTwenty {}).1 = .ok () ∧
      (platStateInitRelays (relaysAt threeEach) tenTwenty {}).2.slots = [0, 3] ∧
      ¬ RelaysOwn (relaysAt threeEach) tenTwenty
        (platStateInitRelays (relaysAt threeEach) tenTwenty {}).2 := by
  have hdisabled : ((platStateInitRelays (relaysAt noneThenOne) tenTwenty {}).2.relay 20).enabled =
      false := by
    rw [platStateInitRelays_tenTwenty]
    decide +kernel
  have hslots : (platStateInitRelays (relaysAt threeEach) tenTwenty {}).2.slots = [0, 3] := by
    rw [platStateInitRelays_tenTwenty]
    decide +kernel
  refine ⟨⟨?_, hdisabled, ?_, ?_⟩, ?_, hslots, ?_⟩
  · rw [platStateInitRelays_tenTwenty]
    decide +kernel
  · rw [platStateInitRelays_tenTwenty]
    decide +kernel
  · intro h
    have hmem : 20 ∈ tenTwenty.bitsSet maxVlans := by simp [bitsSet_tenTwenty]
    rw [h.own 20 hmem] at hdisabled
    revert hdisabled
    decide +kernel
  · rw [platStateInitRelays_tenTwenty]
    decide +kernel
  · intro h
    have hthree := h.written 3 (by simp [hslots])
    revert hthree
    decide

end Ucentral.Plat
