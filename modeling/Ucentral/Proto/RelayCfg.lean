import Ucentral.Plat.RelayApply
import Ucentral.Proto.Sections

/-! DHCP relays, from the JSON of an interface to the switch.

    The parser writes a code for the circuit id format into the structure, and the apply stage reads
    it back. Several interfaces may name one VLAN: each starts the relay anew, but for the server
    address, of which only the octets of the text are written. -/

namespace Ucentral.Proto
open CJson Inet Router Plat Parse Effect

/-! ### What an interface says -/

/-- The interface names the VLAN. -/
def NamesVid (i : ℕ) (interface : Json) : Bool :=
  (getItem (some interface) "vlan").isSome && decide (cfgInterface2vid (some interface) = i)

def dhcpOf (interface : Json) : Ptr := getItem (getItem (some interface) "ipv4") "dhcp"

def relayServerOf (interface : Json) : String := strOf (getItem (dhcpOf interface) "relay-server")

def circuitIdFormatOf (interface : Json) : String :=
  strOf (getItem (dhcpOf interface) "circuit-id-format")

/-- The code for the format. -/
def circIdCode (format : String) : String :=
  if format = "{VLAN-ID}" then "%p" else if format = "{Interface}" then "%i" else "%h:%p"

/-- The server: the octets of the text are written over the address that is there. -/
def setServer (interface : Json) (r : DhcpRelay) : DhcpRelay :=
  { r with serverAddress := (inetNetPton (relayServerOf interface).toList r.serverAddress).2 }

/-- The code and the flag. -/
def setFormat (interface : Json) (r : DhcpRelay) : DhcpRelay :=
  { r with circId := circIdCode (circuitIdFormatOf interface), enabled := true }

def relayOff (r : DhcpRelay) : DhcpRelay := { r with enabled := false }

/-- The relay of a VLAN after an interface that names it. -/
def relayOf (interface : Json) (r : DhcpRelay) : DhcpRelay :=
  if (dhcpOf interface).isSome then setFormat interface (setServer interface (relayOff r))
  else relayOff r

/-! ### What the parser makes of it -/

/-- The relay of a VLAN, and whether the VLAN is configured. -/
def relayPart (i : ℕ) (d : Draft) : DhcpRelay × Bool := ((d.cfg.vlans i).relay, d.cfg.vlansToCfg i)

theorem relayPart_setVlan {i vid : ℕ} {f : PlatVlan → PlatVlan}
    (h : vid = i → ∀ v, (f v).relay = v.relay) (d : Draft) :
    relayPart i (setVlan vid f d) = relayPart i d := by
  refine Prod.ext ?_ rfl
  change (Function.update d.cfg.vlans vid (f (d.cfg.vlans vid)) i).relay = (d.cfg.vlans i).relay
  by_cases hvid : i = vid
  · subst hvid
    rw [Function.update_self]
    exact h rfl _
  · rw [Function.update_of_ne hvid]

theorem turns_setVlan {i : ℕ} {f : PlatVlan → PlatVlan} {g : DhcpRelay → DhcpRelay}
    (h : ∀ v, (f v).relay = g v.relay) :
    Turns (relayPart i) (fun p => (g p.1, p.2)) (Parser.fill (setVlan i f)) := by
  refine turns_fill (fun d => Prod.ext ?_ rfl)
  change (Function.update d.cfg.vlans i (f (d.cfg.vlans i)) i).relay = g (d.cfg.vlans i).relay
  rw [Function.update_self]
  exact h _

theorem leaves_setVlan {i vid : ℕ} {f : PlatVlan → PlatVlan}
    (h : vid = i → ∀ v, (f v).relay = v.relay) : Leaves (relayPart i) (Parser.fill (setVlan vid f)) :=
  leaves_fill (relayPart_setVlan h)

theorem relayPart_foldl_setVlan {i vid : ℕ} {f : ℕ → PlatVlan → PlatVlan}
    (h : ∀ k v, (f k v).relay = v.relay) (l : List ℕ) (d : Draft) :
    relayPart i (l.foldl (fun d k => setVlan vid (f k) d) d) = relayPart i d := by
  induction l generalizing d with
  | nil => rfl
  | cons k l ih => rw [List.foldl_cons, ih, relayPart_setVlan (fun _ => h k)]

/-- The members, the address and the multicast settings of a VLAN. -/
theorem leaves_vlanEthernet (i : ℕ) (ports : Ports) (vid : ℕ) (eth : Json) :
    Leaves (relayPart i) (vlanEthernet ports vid eth) := by
  refine leaves_bind (leaves_scratch _ _) (fun sel => leaves_bind (leaves_pass _) fun _ => ?_)
  refine leaves_bind (leaves_pass _) (fun _ => leaves_bind (leaves_pass _) fun _ => ?_)
  refine leaves_fill (fun d => relayPart_foldl_setVlan ?_ _ d)
  exact fun _ _ => rfl

theorem leaves_vlanSubnet (i vid : ℕ) (subnetList : Ptr) :
    Leaves (relayPart i) (Parser.when subnetList.isSome
      (Parser.within (fun d : Draft => (d.cfg.vlans vid).ipv4)
        (fun a => setVlan vid fun v => { v with ipv4 := a }) (cfgInterfaceParseIpv4 subnetList))) := by
  refine leaves_when (leaves_within _ fun _ d => relayPart_setVlan ?_ d)
  exact fun _ _ => rfl

theorem leaves_vlanIgmp (i vid : ℕ) (igmp : Ptr) :
    Leaves (relayPart i) (Parser.when igmp.isSome (do
      let info ← Parser.scratch igmpDefaults (igmpInfo igmp)
      Parser.fill (setVlan vid fun v => { v with igmp := info }))) :=
  leaves_when (leaves_bind (leaves_scratch _ _) fun _ => leaves_setVlan fun _ _ => rfl)

/-- An interface leaves the relays of other VLANs alone. -/
theorem leaves_vlanBody {i vid : ℕ} (hvid : vid ≠ i) (ports : Ports) (interface : Ptr) :
    Leaves (relayPart i) (vlanBody ports vid interface) := by
  have hother : ∀ f, Leaves (relayPart i) (Parser.fill (setVlan vid f)) :=
    fun f => leaves_setVlan (fun h => absurd h hvid)
  refine leaves_bind (leaves_forM (leaves_vlanEthernet i ports vid) _) (fun _ => ?_)
  refine leaves_bind (hother _) (fun _ => leaves_when ?_)
  refine leaves_bind (leaves_vlanSubnet i vid _) (fun _ => leaves_bind (leaves_vlanIgmp i vid _) ?_)
  refine fun _ => leaves_when (leaves_bind (leaves_pass _) fun _ => leaves_bind (leaves_pass _) ?_)
  refine fun _ => leaves_bind (hother _) (fun _ => leaves_bind (leaves_pass _) fun _ => ?_)
  exact leaves_bind (leaves_pass _) (fun _ => hother _)

theorem turns_vlanDhcp (i : ℕ) (interface : Json) :
    Turns (relayPart i) (fun p => (setFormat interface (setServer interface p.1), p.2))
      (vlanDhcp i (dhcpOf interface)) := by
  refine turns_leaves_bind (leaves_pass _) (fun _ => turns_leaves_bind (leaves_pass _) fun _ => ?_)
  refine turns_bind (fun p => (setServer interface p.1, p.2)) (fun p => (setFormat interface p.1, p.2))
    (turns_setVlan ?_) (fun _ => ?_) (fun _ => rfl)
  · exact fun _ => rfl
  refine turns_leaves_bind (leaves_pass _) (fun _ => turns_leaves_bind (leaves_pass _) fun _ => ?_)
  exact turns_setVlan (g := setFormat interface) (fun _ => rfl)

/-- The VLAN that the interface names. -/
theorem turns_vlanBody (i : ℕ) (ports : Ports) (interface : Json) :
    Turns (relayPart i) (fun p => (relayOf interface p.1, p.2)) (vlanBody ports i (some interface)) := by
  refine turns_leaves_bind (leaves_forM (leaves_vlanEthernet i ports i) _) (fun _ => ?_)
  have hipv4 : Turns (relayPart i) _ (vlanIpv4 i (getItem (some interface) "ipv4")) :=
    turns_leaves_bind (leaves_vlanSubnet i i _) fun _ =>
      turns_leaves_bind (leaves_vlanIgmp i i _) fun _ => turns_when (turns_vlanDhcp i interface)
  refine turns_bind (fun p => (relayOff p.1, p.2)) _ (turns_setVlan ?_)
    (fun _ => turns_when hipv4) (fun p => ?_)
  · exact fun _ => rfl
  -- without `ipv4` there is no `dhcp` either
  unfold relayOf dhcpOf
  cases hnone : getItem (some interface) "ipv4" with
  | none => rfl
  | some ipv4 =>
    cases hdhcp : getItem (some ipv4) "dhcp" with
    | none => rfl
    | some dhcp => rfl

theorem leaves_cfgPortInterfaceParse_relay (i : ℕ) (ports : Ports) (interface : Ptr) :
    Leaves (relayPart i) (cfgPortInterfaceParse ports interface) := by
  refine leaves_bind (leaves_pass _) (fun _ => leaves_bind (leaves_pass _) fun _ => ?_)
  refine leaves_bind (leaves_scratch _ _) (fun sel => leaves_bind (leaves_pass _) fun _ => ?_)
  exact leaves_when (leaves_within _ fun _ _ => rfl)

/-- The relay after an interface, of whatever VLAN. -/
def relayStep (i : ℕ) (p : DhcpRelay × Bool) (interface : Json) : DhcpRelay × Bool :=
  if NamesVid i interface then (relayOf interface p.1, true) else p

/-- An interface with a VLAN that is accepted is accepted as a VLAN. -/
theorem interface_ok {ports : Ports} {interface : Json} {d : Draft}
    (hvlan : (getItem (some interface) "vlan").isSome = true)
    (h : (Parser.orElse (cfgVlanInterfaceParse ports (some interface))
      (cfgPortInterfaceParse ports (some interface)) d).1 = .ok ()) :
    (cfgVlanInterfaceParse ports (some interface) d).1 = .ok () ∧
      Parser.orElse (cfgVlanInterfaceParse ports (some interface))
        (cfgPortInterfaceParse ports (some interface)) d =
        cfgVlanInterfaceParse ports (some interface) d := by
  unfold Parser.orElse at h ⊢
  rcases hrun : cfgVlanInterfaceParse ports (some interface) d with ⟨e | _, t⟩
  · rw [hrun] at h
    cases e with
    | reject =>
      obtain ⟨hno, -⟩ := need_bind_ok h
      rw [Option.isNone_iff_eq_none] at hno
      rw [hno] at hvlan
      cases hvlan
    | format | fault => cases h
  · exact ⟨rfl, rfl⟩

theorem relayPart_setBit_self (i : ℕ) (d : Draft) (u : List ℕ) :
    relayPart i ⟨{ d.cfg with vlansToCfg := d.cfg.vlansToCfg.setBit i }, u⟩ =
      ((relayPart i d).1, true) := by
  simp [relayPart, Bitmap.setBit]

theorem relayPart_setBit_other {i vid : ℕ} (h : vid ≠ i) (d : Draft) (u : List ℕ) :
    relayPart i ⟨{ d.cfg with vlansToCfg := d.cfg.vlansToCfg.setBit vid }, u⟩ = relayPart i d := by
  simp [relayPart, Bitmap.setBit, Ne.symm h]

/-- An interface that is accepted as a VLAN. -/
theorem turns_vlanInterface (i : ℕ) (ports : Ports) (interface : Json) :
    Turns (relayPart i) (relayStep i · interface) (cfgVlanInterfaceParse ports (some interface)) := by
  intro d _ hok
  unfold cfgVlanInterfaceParse at hok ⊢
  obtain ⟨hvlan, heq⟩ := need_bind_ok hok
  rw [heq] at hok ⊢
  obtain ⟨-, heq⟩ := need_bind_ok hok
  rw [heq, fill_bind] at hok ⊢
  by_cases hvid : cfgInterface2vid (some interface) = i
  · rw [hvid] at hok ⊢
    have hnames : NamesVid i interface = true := by simp [NamesVid, hvlan, hvid]
    rw [turns_vlanBody i ports interface _ _ hok, relayPart_setBit_self]
    exact (if_pos hnames).symm
  · have hnames : ¬ NamesVid i interface = true := by simp [NamesVid, hvid]
    rw [leaves_vlanBody hvid ports (some interface) _, relayPart_setBit_other hvid]
    exact (if_neg hnames).symm

theorem turns_interface (i : ℕ) (ports : Ports) (interface : Json) :
    Turns (relayPart i) (relayStep i · interface)
      (Parser.orElse (cfgVlanInterfaceParse ports (some interface))
        (cfgPortInterfaceParse ports (some interface))) := by
  intro d _ hok
  by_cases hvlan : (getItem (some interface) "vlan").isSome = true
  · obtain ⟨hvok, heq⟩ := interface_ok hvlan hok
    rw [heq]
    exact turns_vlanInterface i ports interface d _ hvok
  · have hreject : cfgVlanInterfaceParse ports (some interface) d = (.error .reject, d) := by
      unfold cfgVlanInterfaceParse
      rw [need_bind, if_neg hvlan]
    have hnames : ¬ NamesVid i interface = true := by simp [NamesVid, hvlan]
    unfold Parser.orElse
    rw [hreject]
    dsimp only
    rw [leaves_cfgPortInterfaceParse_relay i ports _ d]
    exact (if_neg hnames).symm

/-- All interfaces. -/
theorem turns_cfgInterfacesParse (i : ℕ) (ports : Ports) (l : List Json) :
    Turns (relayPart i) (fun p => l.foldl (relayStep i) p) (forM l fun interface =>
      Parser.orElse (cfgVlanInterfaceParse ports (some interface))
        (cfgPortInterfaceParse ports (some interface))) := by
  induction l with
  | nil => exact fun _ _ _ => rfl
  | cons interface l ih =>
    rw [List.forM_cons]
    exact turns_bind _ _ (turns_interface i ports interface) (fun _ => ih) (fun _ => rfl)

theorem relayPart_congr {d d' : Draft} (h : vlanPart d.cfg = vlanPart d'.cfg) (i : ℕ) :
    relayPart i d = relayPart i d' := by
  have hvlans := congrArg Prod.fst h
  have hbits := congrArg Prod.snd h
  simp only [vlanPart] at hvlans hbits
  unfold relayPart
  rw [hvlans, hbits]

theorem vlanPart_platformPorts (ports : Ports) (c : PlatCfg) :
    vlanPart (platformPorts ports c) = vlanPart c := by
  unfold platformPorts
  induction ports.names generalizing c with
  | nil => rfl
  | cons name names ih =>
    rw [List.foldl_cons, ih]
    rfl

/-- Before the interfaces no VLAN is configured. -/
theorem relayPart_platformDraft (ports : Ports) (i : ℕ) :
    relayPart i (platformDraft ports) = ({}, false) := by
  have hports := vlanPart_platformPorts ports {}
  have hvlans := congrArg Prod.fst hports
  have hbits := congrArg Prod.snd hports
  simp only [vlanPart] at hvlans hbits
  refine Prod.ext ?_ ?_
  · change ((numberVlans (platformPorts ports {})).vlans i).relay = {}
    unfold numberVlans
    dsimp only
    rw [hvlans]
    split <;> rfl
  · change (platformPorts ports {}).vlansToCfg i = false
    rw [hbits]
    rfl

/-- In an accepted configuration the relay of a VLAN is what its interfaces have made of it. -/
theorem relayPart_cfgParse {ports : Ports} {config : Ptr} (h : (cfgParse ports config {}).1 = .ok ())
    (i : ℕ) : relayPart i (cfgParse ports config {}).2 =
      (children (getItem config "interfaces")).foldl (relayStep i) ({}, false) := by
  have hstart : relayPart i (ethernetDraft ports config) = ({}, false) :=
    (relayPart_congr (leaves_cfgEthernetParse vlanPart (fun _ _ _ => rfl) ports _
      (platformDraft ports)) i).trans
      (relayPart_platformDraft ports i)
  rw [relayPart_congr (vlanPart_cfgParse h), cfgInterfacesParse,
    turns_cfgInterfacesParse i ports _ _ _ (cfgParse_ok h).2.1, hstart]

/-! ### The last interface of a VLAN -/

/-- The interface is the last one that names the VLAN, after those of `pre`. -/
def LastNaming (config : Ptr) (i : ℕ) (pre : List Json) (interface : Json) : Prop :=
  NamesVid i interface = true ∧ ∃ post,
    children (getItem config "interfaces") = pre ++ interface :: post ∧
      ∀ e ∈ post, NamesVid i e = false

/-- The server address after an interface. -/
def serverStep (i : ℕ) (a : InAddr) (e : Json) : InAddr :=
  if NamesVid i e && (dhcpOf e).isSome then (inetNetPton (relayServerOf e).toList a).2 else a

/-- The server address that the interfaces leave behind. -/
def serverAfter (i : ℕ) (interfaces : List Json) : InAddr := interfaces.foldl (serverStep i) InAddr.zero

theorem foldl_relayStep_other {i : ℕ} {p : DhcpRelay × Bool} : ∀ l : List Json,
    (∀ e ∈ l, NamesVid i e = false) → l.foldl (relayStep i) p = p
  | [], _ => rfl
  | e :: l, h => by
      rw [List.foldl_cons, relayStep, if_neg (by simp [h e List.mem_cons_self])]
      exact foldl_relayStep_other l (fun e' he' => h e' (List.mem_cons_of_mem _ he'))

theorem relayStep_server (i : ℕ) (p : DhcpRelay × Bool) (e : Json) :
    (relayStep i p e).1.serverAddress = serverStep i p.1.serverAddress e := by
  unfold relayStep relayOf serverStep
  cases NamesVid i e with
  | false => rfl
  | true => cases dhcpOf e <;> rfl

theorem foldl_relayStep_server (i : ℕ) (l : List Json) (p : DhcpRelay × Bool) :
    (l.foldl (relayStep i) p).1.serverAddress = l.foldl (serverStep i) p.1.serverAddress := by
  induction l generalizing p with
  | nil => rfl
  | cons e l ih => rw [List.foldl_cons, List.foldl_cons, ih, relayStep_server]

theorem relayOf_enabled (interface : Json) (r : DhcpRelay) :
    (relayOf interface r).enabled = (dhcpOf interface).isSome := by
  unfold relayOf
  cases dhcpOf interface <;> rfl

theorem relayOf_circId {interface : Json} (h : (dhcpOf interface).isSome = true) (r : DhcpRelay) :
    (relayOf interface r).circId = circIdCode (circuitIdFormatOf interface) := by
  rw [relayOf, if_pos h]
  rfl

/-- The relay of a VLAN is that of its last interface, but for the server address. -/
theorem relay_of_last {ports : Ports} {config : Ptr} {i : ℕ} {pre : List Json} {interface : Json}
    (hok : (cfgParse ports config {}).1 = .ok ()) (h : LastNaming config i pre interface) :
    let c := (cfgParse ports config {}).2.cfg
    c.vlansToCfg i = true ∧ (c.vlans i).relay.enabled = (dhcpOf interface).isSome ∧
      ((dhcpOf interface).isSome = true →
        (c.vlans i).relay.circId = circIdCode (circuitIdFormatOf interface) ∧
        (c.vlans i).relay.serverAddress = serverAfter i (pre ++ [interface])) := by
  obtain ⟨hnames, post, hchildren, hpost⟩ := h
  have hpart := relayPart_cfgParse hok i
  rw [hchildren, List.foldl_append, List.foldl_cons, foldl_relayStep_other post hpost] at hpart
  have hserver := foldl_relayStep_server i (pre ++ [interface]) ({}, false)
  rw [List.foldl_append, List.foldl_cons, List.foldl_nil] at hserver
  have hstep : relayStep i (pre.foldl (relayStep i) ({}, false)) interface =
      (relayOf interface (pre.foldl (relayStep i) ({}, false)).1, true) := if_pos hnames
  rw [hstep] at hpart hserver
  have hrelay := congrArg Prod.fst hpart
  refine ⟨congrArg Prod.snd hpart, ?_, fun hdhcp => ⟨?_, ?_⟩⟩
  · exact (congrArg DhcpRelay.enabled hrelay).trans (relayOf_enabled interface _)
  · exact (congrArg DhcpRelay.circId hrelay).trans (relayOf_circId hdhcp _)
  · exact (congrArg DhcpRelay.serverAddress hrelay).trans hserver

/-! ### From the JSON to the switch -/

/-- The server that an interface gives. -/
def givenServer (interface : Json) : InAddr :=
  (inetNetPton (relayServerOf interface).toList InAddr.zero).2

/-- The format that a name stands for. -/
def namedFormat (format : String) : RelayCircuitId :=
  if format = "{Interface}" then .i else if format = "{VLAN-ID}" then .p else .hp

/-- The code that the parser writes is read back as the format that was named, but for
    `{Interface}`. -/
theorem circuitIdOf_circIdCode (format : String) :
    circuitIdOf (circIdCode format) = namedFormat format ↔ format ≠ "{Interface}" := by
  by_cases hi : format = "{Interface}"
  · subst hi
    exact iff_of_false (by decide +kernel) (by simp)
  · refine iff_of_true ?_ hi
    by_cases hv : format = "{VLAN-ID}"
    · subst hv
      decide +kernel
    · rw [circIdCode, namedFormat, if_neg hv, if_neg hi, if_neg hi, if_neg hv]
      decide +kernel

/-- The relays of the switch are those of the JSON: that of the last interface of each VLAN. -/
def RelaysFollow (config : Ptr) (v : RelayView) : Prop :=
  ∀ i pre interface, i ≠ firstVlan → i < maxVlans → LastNaming config i pre interface →
    ((dhcpOf interface).isSome = false → v.helpers i = []) ∧
    ((dhcpOf interface).isSome = true → v.helpers i = [givenServer interface] ∧
      v.circuitId i = namedFormat (circuitIdFormatOf interface))

/-- No last interface names the format `{Interface}`, and none leaves out an octet of its server that
    the interfaces before it have written. -/
def RelaysPlain (config : Ptr) : Prop :=
  ∀ i pre interface, i ≠ firstVlan → i < maxVlans → LastNaming config i pre interface →
    (dhcpOf interface).isSome = true → circuitIdFormatOf interface ≠ "{Interface}" ∧
      serverAfter i (pre ++ [interface]) = givenServer interface

/-- What a call that returns 0 leaves on a VLAN that an interface names. -/
theorem relay_applied_of_last {δ : Type} (sw : RelayViewSwitch δ) {qs : Qsort} {ports : Ports}
    {config : Ptr} (hok : (cfgParse ports config {}).1 = .ok ()) {e : Env δ}
    (hcached : RelaysCached e.cache (sw.view e.dev)) {t : PlatSt δ}
    (hrun : platConfigApply sw.dev qs (cfgParse ports config {}).2.cfg ⟨e, []⟩ = (.ok (), t))
    {i : ℕ} {pre : List Json} {interface : Json} (hi : i ≠ firstVlan) (hlt : i < maxVlans)
    (h : LastNaming config i pre interface) :
    ((dhcpOf interface).isSome = false → (sw.view t.state.dev).helpers i = []) ∧
    ((dhcpOf interface).isSome = true →
      (sw.view t.state.dev).helpers i = [serverAfter i (pre ++ [interface])] ∧
      (sw.view t.state.dev).circuitId i = circuitIdOf (circIdCode (circuitIdFormatOf interface))) := by
  obtain ⟨hbit, henabled, hdata⟩ := relay_of_last hok h
  have hweak : AtVlan sw i WeakRelay ⟨e, []⟩ := ⟨(hcached i hi).2, Or.inr (hcached i hi).1⟩
  obtain ⟨hhelpers, hcirc⟩ := (triple_platConfigApply_relay sw qs _ hi
    (Bitmap.mem_bitsSet.mpr ⟨hlt, hbit⟩)).ok hweak hrun
  rw [henabled] at hhelpers hcirc
  refine ⟨fun hno => ?_, fun hdhcp => ?_⟩
  · rw [hhelpers, hno]
    rfl
  · rw [hhelpers, hcirc hdhcp, if_pos hdhcp, (hdata hdhcp).1, (hdata hdhcp).2]
    exact ⟨rfl, rfl⟩

/-- For every accepted configuration, on every switch and from every cache that agrees with it, a call
    that returns 0 leaves the relays of the JSON on the switch exactly if they are plain. -/
theorem relays_follow_iff {δ : Type} (sw : RelayViewSwitch δ) (qs : Qsort) (ports : Ports)
    (config : Ptr) (hok : (cfgParse ports config {}).1 = .ok ()) (e : Env δ)
    (hcached : RelaysCached e.cache (sw.view e.dev))
    (hret : Prog.retCode
      (platConfigApply sw.dev qs (cfgParse ports config {}).2.cfg ⟨e, []⟩).1 = 0) :
    RelaysFollow config (sw.view
      (platConfigApply sw.dev qs (cfgParse ports config {}).2.cfg ⟨e, []⟩).2.state.dev) ↔
    RelaysPlain config := by
  rcases hrun : platConfigApply sw.dev qs (cfgParse ports config {}).2.cfg ⟨e, []⟩ with ⟨c | _, t⟩
  · exact absurd hret ((reports_platConfigApply sw.dev qs _).retCode_ne_zero hrun)
  constructor
  · intro hfollow i pre interface hi hlt hlast hdhcp
    obtain ⟨hhelpers, hcirc⟩ := (hfollow i pre interface hi hlt hlast).2 hdhcp
    obtain ⟨hhelpers', hcirc'⟩ := (relay_applied_of_last sw hok hcached hrun hi hlt hlast).2 hdhcp
    rw [hhelpers'] at hhelpers
    rw [hcirc'] at hcirc
    exact ⟨(circuitIdOf_circIdCode _).mp hcirc, List.singleton_injective hhelpers⟩
  · intro hplain i pre interface hi hlt hlast
    obtain ⟨hno, hyes⟩ := relay_applied_of_last sw hok hcached hrun hi hlt hlast
    refine ⟨hno, fun hdhcp => ?_⟩
    obtain ⟨hformat, hserver⟩ := hplain i pre interface hi hlt hlast hdhcp
    obtain ⟨hhelpers, hcirc⟩ := hyes hdhcp
    rw [hhelpers, hcirc, hserver, (circuitIdOf_circIdCode _).mpr hformat]
    exact ⟨rfl, rfl⟩

/-! ### VLAN 5 on a switch that grants everything -/

def relayViewStore (op : Op) (v : RelayView) : RelayView :=
  match op with
  | .relayCircuitIdSet vid id => { v with circuitId := Function.update v.circuitId vid id }
  | op => { v with helpers := relayStore op v.helpers }

theorem relayViewStore_effect (op : Op) (v v' : RelayView) (h : v' = relayViewStore op v) :
    relayViewEffect op v v' := by
  rw [h]
  cases op with
  | relayServerSet vid ip => exact ⟨rfl, rfl⟩
  | relayServerDel vid ip => exact ⟨rfl, rfl⟩
  | relayCircuitIdSet vid id => exact ⟨rfl, rfl⟩
  | vlanDel vid => exact fun u hu => ⟨Function.update_of_ne hu _ _, rfl⟩
  | _ => rfl

def grantingSwitch : RelayViewSwitch (RelayView × List Bool) :=
  (scriptedSwitch relayViewStore Bitmap.clear (fun _ => []) [] fun _ => []).weaken relayViewStore_effect

/-- No relay, on the switch and in the cache. -/
def noRelays : Env (RelayView × List Bool) := ⟨{}, (⟨fun _ => [], fun _ => .hp⟩, [])⟩

theorem noRelays_cached : RelaysCached noRelays.cache (grantingSwitch.view noRelays.dev) :=
  fun _ _ => ⟨rfl, rfl⟩

/-- VLAN 5 with a relay. -/
def vlan5Interface (server format : String) : Json :=
  .obj [("vlan", .obj [("id", .num (.fin 5))]),
    ("ethernet", .arr [.obj [("select-ports", .arr [.str "Ethernet0"]), ("vlan-tag", .str "tagged")]]),
    ("ipv4", .obj [("dhcp", .obj [("relay-server", .str server), ("circuit-id-format", .str format)])])]

def interfacesConfig (interfaces : List Json) : Ptr :=
  some (.obj [("ethernet", .arr []), ("interfaces", .arr interfaces)])

def ethernet0 : Ports := ⟨some ["Ethernet0"], 0, InAddr.zero⟩

/-- The switch after the configuration. -/
def viewAfter (interfaces : List Json) : RelayView :=
  grantingSwitch.view (platConfigApply grantingSwitch.dev insertionQsort
    (cfgParse ethernet0 (interfacesConfig interfaces) {}).2.cfg ⟨noRelays, []⟩).2.state.dev

/-- The last interface of a configuration with one. -/
theorem LastNaming.single {i : ℕ} {pre : List Json} {interface e : Json}
    (h : LastNaming (interfacesConfig [e]) i pre interface) : pre = [] ∧ interface = e := by
  obtain ⟨-, post, hchildren, -⟩ := h
  have hlist : [e] = pre ++ interface :: post := by
    simpa [interfacesConfig, getItem] using hchildren
  rcases pre with _ | ⟨x, xs⟩
  · simp only [List.nil_append, List.cons.injEq] at hlist
    exact ⟨rfl, hlist.1.symm⟩
  · simp at hlist

theorem relays_follow_iff_vlanId :
    RelaysFollow (interfacesConfig [vlan5Interface "192.0.2.1" "{VLAN-ID}"])
      (viewAfter [vlan5Interface "192.0.2.1" "{VLAN-ID}"]) := by
  refine (relays_follow_iff grantingSwitch insertionQsort ethernet0
    (interfacesConfig [vlan5Interface "192.0.2.1" "{VLAN-ID}"]) (by decide +kernel) noRelays
    noRelays_cached (by decide +kernel)).mpr ?_
  intro i pre interface _ _ hlast hdhcp
  obtain ⟨rfl, rfl⟩ := hlast.single
  refine ⟨by decide +kernel, ?_⟩
  rw [List.nil_append, serverAfter, List.foldl_cons, List.foldl_nil, serverStep, hlast.1, hdhcp]
  rfl

/-- `{Interface}` gives the format of host and port; and of two interfaces of one VLAN, the second
    leaves two octets of the server of the first. -/
theorem relays_not_followed :
    (cfgParse ethernet0 (interfacesConfig [vlan5Interface "192.0.2.1" "{Interface}"]) {}).1 = .ok () ∧
    (viewAfter [vlan5Interface "192.0.2.1" "{Interface}"]).circuitId 5 = .hp ∧
    ¬ RelaysFollow (interfacesConfig [vlan5Interface "192.0.2.1" "{Interface}"])
      (viewAfter [vlan5Interface "192.0.2.1" "{Interface}"]) ∧
    (viewAfter [vlan5Interface "192.0.2.1" "{VLAN-ID}", vlan5Interface "10.1" "{VLAN-ID}"]).helpers 5 =
      [⟨10, 1, 2, 1⟩] := by
  have hcirc : (viewAfter [vlan5Interface "192.0.2.1" "{Interface}"]).circuitId 5 = .hp := by
    decide +kernel
  refine ⟨by decide +kernel, hcirc, fun h => ?_, by decide +kernel⟩
  have hlast : LastNaming (interfacesConfig [vlan5Interface "192.0.2.1" "{Interface}"]) 5 []
      (vlan5Interface "192.0.2.1" "{Interface}") :=
    ⟨by decide +kernel, [], by simp [interfacesConfig, getItem], by simp⟩
  have hnamed := ((h 5 [] _ (by decide) (by decide) hlast).2 (by decide +kernel)).2
  rw [hcirc] at hnamed
  exact absurd hnamed (by decide +kernel)

end Ucentral.Proto
