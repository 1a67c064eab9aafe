import Ucentral.Router.Fib
import Mathlib.Algebra.Group.Nat.Defs

/-! `struct plat_cfg`: one parsed configuration, as the parser fills it and the platform applies it.

    Arrays indexed by port or VLAN are functions of the index; the bitmap beside such an array says
    which entries are in use. A C string field is a `String`; that what is copied into it fits is
    the parser's business. -/

namespace Ucentral.Plat
open Inet Router

def firstVlan : ℕ := 1
def maxVlans : ℕ := 4096
def maxNumOfPorts : ℕ := 100

/-- A bitmap, by its test function. -/
abbrev Bitmap := ℕ → Bool

namespace Bitmap

def clear : Bitmap := fun _ => false

/-- `BITMAP_SET_BIT`. -/
def setBit (b : Bitmap) (k : ℕ) : Bitmap := fun i => i == k || b i

/-- The bits a `BITMAP_FOR_EACH_BIT_SET` loop visits, in its order. -/
@[irreducible] def bitsSet (b : Bitmap) (len : ℕ) : List ℕ := (List.range len).filter b

theorem mem_bitsSet {b : Bitmap} {len i : ℕ} : i ∈ b.bitsSet len ↔ i < len ∧ b i = true := by
  unfold bitsSet
  rw [List.mem_filter, List.mem_range]

theorem nodup_bitsSet (b : Bitmap) (len : ℕ) : (b.bitsSet len).Nodup := by
  unfold bitsSet
  exact List.nodup_range.filter _

end Bitmap

/-- `PID_TO_NAME`: `%hu` prints the low 16 bits. -/
def pidToName (p : ℕ) : String := "Ethernet" ++ toString (p % 65536)

/-- `VLAN_TO_NAME`. -/
def vlanToName (v : ℕ) : String := "Vlan" ++ toString (v % 65536)

theorem toList_pidToName (p : ℕ) :
    (pidToName p).toList = "Ethernet".toList ++ Decimal.print (p % 65536) := by
  rw [pidToName, String.toList_append]
  congr 1
  exact String.toList_ofList

theorem toList_vlanToName (v : ℕ) :
    (vlanToName v).toList = "Vlan".toList ++ Decimal.print (v % 65536) := by
  rw [vlanToName, String.toList_append]
  congr 1
  exact String.toList_ofList

/-- White space as `sscanf` skips it. -/
def isCSpace (c : Char) : Bool :=
  c == ' ' || c == '\t' || c == '\n' || c == '\r' || c == '\x0b' || c == '\x0c'

/-- `strtoul` on a sign and digits of the value `v`: negated modulo 2^64 after a minus. What does not
    fit gives the largest value, with whatever sign. -/
def strtoul (neg : Bool) (v : ℕ) : ℕ :=
  if v < 2 ^ 64 then (if neg then 2 ^ 64 - v else v) % 2 ^ 64 else 2 ^ 64 - 1

/-- `%lu` of `scanf`: blanks, a sign, digits. -/
def scanLu (cs : List Char) : Option ℕ :=
  let body (neg : Bool) (ds : List Char) : Option ℕ :=
    if Decimal.startsDigit ds then some (strtoul neg (Decimal.readNat ds 0).1) else none
  match cs.dropWhile isCSpace with
  | '-' :: ds => body true ds
  | '+' :: ds => body false ds
  | ds => body false ds

/-- A printed number starts with a digit, which is neither a blank nor a sign. -/
theorem print_start (n : ℕ) : ∃ c cs, Decimal.print n = c :: cs ∧ isCSpace c = false ∧ c ≠ '-' ∧ c ≠ '+' := by
  obtain ⟨c, cs, hcs⟩ := List.exists_cons_of_ne_nil (Decimal.print_ne_nil n)
  have hd : c.isDigit = true := Decimal.print_digits (n := n) (by simp [hcs])
  refine ⟨c, cs, hcs, ?_, ?_, ?_⟩
  · cases hs : isCSpace c with
    | false => rfl
    | true =>
      simp only [isCSpace, Bool.or_eq_true, beq_iff_eq] at hs
      rcases hs with ((((rfl | rfl) | rfl) | rfl) | rfl) | rfl <;> simp at hd
  · rintro rfl
    simp at hd
  · rintro rfl
    simp at hd

/-- A printed number is read back. -/
theorem scanLu_print {n : ℕ} (h : n < 2 ^ 64) : scanLu (Decimal.print n) = some n := by
  have hread : Decimal.readNat (Decimal.print n) 0 = (n, []) := by
    simpa using Decimal.readNat_print n (show Decimal.startsDigit [] = false from rfl)
  have hstart : Decimal.startsDigit (Decimal.print n) = true := by
    simpa using Decimal.startsDigit_print n []
  have hvalue : strtoul false n = n := by
    rw [strtoul, if_pos h]
    exact Nat.mod_eq_of_lt h
  obtain ⟨c, cs, hcs, hspace, hminus, hplus⟩ := print_start n
  rw [hcs] at hread hstart ⊢
  unfold scanLu
  simp only [List.dropWhile_cons, hspace, Bool.false_eq_true, if_false]
  split
  · next heq => simp at heq; exact absurd heq.1 hminus
  · next heq => simp at heq; exact absurd heq.1 hplus
  · simp only [hstart, if_true, hread, hvalue]

/-- `%hu`: the same, cut to 16 bits. -/
def scanHu (cs : List Char) : Option ℕ := (scanLu cs).map (· % 65536)

/-- `NAME_TO_PID`: `sscanf(name, "Ethernet%hu", &pid)`. -/
def nameToPid (name : String) : Option ℕ :=
  let cs := name.toList
  if cs.take 8 = "Ethernet".toList then scanHu (cs.drop 8) else none

/-- The name of a port leads back to its number. -/
theorem nameToPid_pidToName (p : ℕ) : nameToPid (pidToName p) = some (p % 65536) := by
  have hlen : "Ethernet".toList.length = 8 := rfl
  unfold nameToPid
  simp only [toList_pidToName]
  rw [List.take_left' hlen, List.drop_left' hlen, if_pos rfl, scanHu, scanLu_print (by omega)]
  simp

theorem pidToName_inj {p q : ℕ} (hp : p < 65536) (hq : q < 65536) (h : pidToName p = pidToName q) :
    p = q := by
  have heq : some (p % 65536) = some (q % 65536) := by
    rw [← nameToPid_pidToName, ← nameToPid_pidToName, h]
  injection heq with heq
  omega

/-- `enum plat_ieee8021x_port_control_mode`. -/
inductive PortControlMode
  | forceAuthorized | forceUnauthorized | auto
  deriving DecidableEq, Repr

/-- `enum plat_ieee8021x_port_host_mode`. -/
inductive PortHostMode
  | multiAuth | multiDomain | multiHost | singleHost
  deriving DecidableEq, Repr

/-- `enum plat_igmp_version`. -/
inductive IgmpVersion
  | v1 | v2 | v3
  deriving DecidableEq, Repr

/-- `enum plat_stp_mode`. -/
inductive StpMode
  | none | stp | rst | mst | pvst | rpvst
  deriving DecidableEq, Repr

/-- `poe` of `struct plat_port`. -/
structure PortPoe where
  isAdminModeUp : Bool := false
  doReset : Bool := false
  detectionMode : String := ""
  isDetectionModeSet : Bool := false
  powerLimit : ℕ := 0
  isPowerLimitSet : Bool := false
  priority : String := ""
  isPrioritySet : Bool := false
  deriving DecidableEq, Repr

/-- `ieee8021x` of `struct plat_port`. -/
structure PortDot1x where
  authFailVid : ℕ := 0
  guestVid : ℕ := 0
  controlMode : PortControlMode := .forceAuthorized
  hostMode : PortHostMode := .multiAuth
  isAuthenticator : Bool := false
  deriving DecidableEq, Repr

/-- `struct plat_port`. -/
structure PlatPort where
  name : String := ""
  speed : ℕ := 0
  fpId : ℕ := 0
  duplex : ℕ := 0
  state : ℕ := 0
  poe : PortPoe := {}
  dot1x : PortDot1x := {}
  deriving DecidableEq, Repr

/-- `struct plat_ipv4`; a refused prefix leaves the length at -1. -/
structure PlatIpv4 where
  subnet : InAddr := InAddr.zero
  subnetLen : ℤ := 0
  exist : Bool := false
  deriving DecidableEq, Repr

/-- `relay` of `struct plat_dhcp`. -/
structure DhcpRelay where
  serverAddress : InAddr := InAddr.zero
  circId : String := ""
  enabled : Bool := false
  deriving DecidableEq, Repr

/-- A static group of `struct plat_igmp`. -/
structure IgmpGroup where
  addr : InAddr
  egressPorts : List String
  deriving DecidableEq, Repr

/-- `struct plat_igmp`. -/
structure PlatIgmp where
  exist : Bool := false
  snoopingEnabled : Bool := false
  querierEnabled : Bool := false
  fastLeaveEnabled : Bool := false
  queryInterval : ℕ := 0
  lastMemberQueryInterval : ℕ := 0
  maxResponseTime : ℕ := 0
  version : IgmpVersion := .v1
  groups : List IgmpGroup := []
  deriving DecidableEq, Repr

/-- `struct plat_vlan_memberlist`. -/
structure VlanMember where
  name : String
  fpId : ℕ
  tagged : Bool
  deriving DecidableEq, Repr

/-- `struct plat_port_vlan`. -/
structure PlatVlan where
  members : List VlanMember := []
  ipv4 : PlatIpv4 := {}
  relay : DhcpRelay := {}
  igmp : PlatIgmp := {}
  id : ℕ := 0
  deriving DecidableEq, Repr

/-- `struct plat_syslog_cfg`. -/
structure SyslogCfg where
  port : ℤ := 0
  size : ℤ := 0
  priority : ℤ := 0
  isTcp : Bool := false
  host : String := ""
  deriving DecidableEq, Repr

/-- `struct plat_metrics_cfg`. -/
structure MetricsCfg where
  healthEnabled : Bool := false
  healthInterval : ℕ := 0
  stateEnabled : Bool := false
  lldpEnabled : Bool := false
  clientsEnabled : Bool := false
  stateInterval : ℕ := 0
  maxMacCount : ℕ := 0
  publicIpLookup : String := ""
  deriving DecidableEq, Repr

/-- `struct plat_enabled_service_cfg`. -/
structure EnabledServices where
  ssh : Bool := false
  telnet : Bool := false
  http : Bool := false
  deriving DecidableEq, Repr

/-- `struct plat_unit`. -/
structure PlatUnit where
  powerMgmt : String := ""
  isPowerMgmtSet : Bool := false
  usageThreshold : ℕ := 0
  isUsageThresholdSet : Bool := false
  password : String := ""
  passwordChanged : Bool := false
  mcFloodControl : Bool := false
  querierEnable : Bool := false
  deriving DecidableEq, Repr

/-- `struct plat_stp_instance_cfg`. -/
structure StpInstance where
  enabled : Bool := false
  forwardDelay : ℕ := 0
  helloTime : ℕ := 0
  maxAge : ℕ := 0
  priority : ℕ := 0
  deriving DecidableEq, Repr

/-- `struct plat_radius_host`. -/
structure RadiusHost where
  hostname : String
  passkey : String
  authPort : ℕ
  priority : ℕ
  deriving DecidableEq, Repr

/-- `struct plat_ieee8021x_dac_host`. -/
structure DacHost where
  hostname : String
  passkey : String
  deriving DecidableEq, Repr

/-- `struct plat_port_isolation_session`. -/
structure IsolationSession where
  id : ℕ
  uplink : List String := []
  downlink : List String := []
  deriving DecidableEq, Repr

/-- `struct plat_cfg`, as `calloc` leaves it unless a field says otherwise. -/
structure PlatCfg where
  unit : PlatUnit := {}
  ports : ℕ → PlatPort := fun _ => {}
  portsToCfg : Bitmap := Bitmap.clear
  vlans : ℕ → PlatVlan := fun _ => {}
  vlansToCfg : Bitmap := Bitmap.clear
  metrics : MetricsCfg := {}
  logCfg : List SyslogCfg := []
  enabledServices : EnabledServices := {}
  portsl2 : ℕ → PlatIpv4 := fun _ => {}
  router : Table := fibDbAlloc 0
  stpMode : StpMode := .none
  stpInstances : ℕ → StpInstance := fun _ => {}
  radiusHosts : List RadiusHost := []
  isAuthCtrlEnabled : Bool := false
  dacList : List DacHost := []
  portIsolation : List IsolationSession := []

end Ucentral.Plat
