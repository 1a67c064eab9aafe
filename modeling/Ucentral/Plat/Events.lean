import Mathlib.Data.List.Basic
import Ucentral.Lib.CString
import Ucentral.Lib.Latest

/-! The events of the switch: from the notifications of a gNMI subscription to the callbacks of the
    platform.

    A notification has a prefix, which says what it is about, and updates below it. One about an alarm
    has an update for each leaf of the alarm; one about an interface is read by its first update alone. -/

namespace Ucentral.Plat.Events
open CString Latest

/-- A C string, by its bytes before the NUL. -/
abbrev Text := List UInt8

/-! ### Notifications -/

/-- `::gnmi::TypedValue`; the other kinds of value are not converted. -/
inductive ProtoValue
  | uintVal (n : ℕ) | jsonIetfVal (s : Text) | stringVal (s : Text) | boolVal (b : Bool) | other
  deriving DecidableEq

/-- `struct gnmi_typed_value`, of the types that a conversion leaves in it. -/
inductive TypedValue
  | string (str : Text) | uint (u64 : ℕ) | bool (boolean : Bool) | jsonIetf (str : Text)
  deriving DecidableEq

/-- `struct gnmi_path_elem`. -/
structure PathElem where
  name : Text
  key : List (Text × Text) := []
  deriving DecidableEq

/-- `struct gnmi_subscribe_update`, or an update as it is received. -/
structure Update (ν : Type) where
  path : Option (List PathElem)
  val : Option ν

/-- `struct gnmi_notification`. -/
structure Notification (ν : Type) where
  timestamp : ℤ
  prefixElem : List PathElem
  update : List (Update ν)

/-- `gnmi2connector_typed_value`. -/
def typedValue : ProtoValue → Option TypedValue
  | .uintVal n => some (.uint n)
  | .jsonIetfVal s => some (.jsonIetf s)
  | .stringVal s => some (.string s)
  | .boolVal b => some (.bool b)
  | .other => none

/-- `RpcGnmiSubscribe::on_read`: an update whose value is not converted is left out. -/
def connectorUpdate (u : Update ProtoValue) : Option (Update TypedValue) :=
  match u.val with
  | none => some ⟨u.path, none⟩
  | some v => (typedValue v).map fun val => ⟨u.path, some val⟩

def connectorNotification (n : Notification ProtoValue) : Notification TypedValue :=
  ⟨n.timestamp, n.prefixElem, n.update.filterMap connectorUpdate⟩

/-! ### Alarms -/

/-- `struct gnma_alarm`. The resource and the text are taken from the union of the value whatever its
    type, and may point nowhere. -/
structure Alarm where
  id : Text
  resource : Option Text := some []
  text : Option Text := some []
  timeCreated : ℕ := 0
  typeId : Text := []
  severity : ℕ := 0
  acknowledged : Bool := false
  acknowledgeTime : ℕ := 0
  deriving DecidableEq

/-- `strnonull(val.v.str)`; none where the pointer is neither null nor one to a string. -/
def strOf : TypedValue → Option Text
  | .string s | .jsonIetf s => some s
  | .uint n => if n = 0 then some [] else none
  | .bool b => if b then none else some []

/-- `severity_str2int`; none for -1. -/
def severityStr2int (s : Text) : Option ℕ :=
  if s = bytes "CRITICAL" then some 0
  else if s = bytes "MAJOR" then some 1
  else if s = bytes "MINOR" then some 2
  else if s = bytes "WARNING" then some 3
  else if s = bytes "INFORMATIONAL" then some 4
  else none

/-- The update of the leaf `state/<leaf>`. -/
def alarmLeaf (a : Alarm) (leaf : Text) (v : TypedValue) : Alarm :=
  if leaf = bytes "text" then { a with text := strOf v }
  else if leaf = bytes "resource" then { a with resource := strOf v }
  else if leaf = bytes "type-id" then
    match v with
    | .string s => { a with typeId := s }
    | _ => a
  else if leaf = bytes "severity" then
    match v with
    | .string s => { a with severity := (severityStr2int s).getD a.severity }
    | _ => a
  else if leaf = bytes "acknowledged" then
    match v with
    | .bool b => { a with acknowledged := b }
    | _ => a
  else if leaf = bytes "acknowledge-time" then
    match v with
    | .uint n => { a with acknowledgeTime := n }
    | _ => a
  else if leaf = bytes "time-created" then
    match v with
    | .uint n => { a with timeCreated := n }
    | _ => a
  else a

/-- The body of the loop of `alarm_gnmi_cb`; none where it reads the name of an element that is not
    there. -/
def alarmUpdate (a : Alarm) (u : Update TypedValue) : Option Alarm :=
  match u.path, u.val with
  | some [], some _ => none
  | some (p0 :: p1 :: _), some v =>
    if p0.name = bytes "state" then some (alarmLeaf a p1.name v) else some a
  | _, _ => some a

/-- What a callback ends with: it reads where there is nothing to read, it returns without more, or it
    calls the next one. -/
inductive Outcome (α : Type)
  | fault | ignored | call (a : α)
  deriving DecidableEq

/-- The events that `gnma_subscribe` passes on. -/
inductive GnmaEvent
  | alarm (a : Alarm)
  | linkstatus (timestamp : ℤ) (ifname : Text) (up : Bool)
  | poeLinkstatus (timestamp : ℤ) (ifname status : Text)
  | poeLinkFaultcode (timestamp : ℤ) (ifname faultcode : Text)
  deriving DecidableEq

/-- `alarm_gnmi_cb`, up to the callback; then the alarm is acknowledged by its id. -/
def alarmGnmiCb (n : Notification TypedValue) : Outcome GnmaEvent :=
  match n.prefixElem with
  | _ :: _ :: e2 :: _ =>
    match e2.key with
    | [(key, id)] =>
      if key ≠ bytes "id" then .ignored
      else if id = [] then .ignored
      else match n.update.foldlM alarmUpdate { id := id } with
        | none => .fault
        | some a => if a.acknowledged then .ignored else .call (.alarm a)
    | _ => .ignored
  | _ => .ignored

/-! The loop leaves the latest value of each leaf. -/

/-- The leaf below `state` that an update is about. -/
def leafOf (u : Update TypedValue) : Option (Text × TypedValue) :=
  match u.path, u.val with
  | some (p0 :: p1 :: _), some v => if p0.name = bytes "state" then some (p1.name, v) else none
  | _, _ => none

/-- What an update writes to the leaf `name`, whose values `g` reads. -/
def writes {α : Type} (name : String) (g : TypedValue → Option α) (u : Update TypedValue) : Option α :=
  match leafOf u with
  | some (leaf, v) => if leaf = bytes name then g v else none
  | none => none

def stringValue : TypedValue → Option Text
  | .string s => some s
  | _ => none

def boolValue : TypedValue → Option Bool
  | .bool b => some b
  | _ => none

def uintValue : TypedValue → Option ℕ
  | .uint n => some n
  | _ => none

/-- The alarm that the updates are about, beginning with `a`. -/
def alarmOf (a : Alarm) (us : List (Update TypedValue)) : Alarm where
  id := a.id
  resource := latest (writes "resource" fun v => some (strOf v)) us a.resource
  text := latest (writes "text" fun v => some (strOf v)) us a.text
  timeCreated := latest (writes "time-created" uintValue) us a.timeCreated
  typeId := latest (writes "type-id" stringValue) us a.typeId
  severity := latest (writes "severity" fun v => (stringValue v).bind severityStr2int) us a.severity
  acknowledged := latest (writes "acknowledged" boolValue) us a.acknowledged
  acknowledgeTime := latest (writes "acknowledge-time" uintValue) us a.acknowledgeTime

/-- An update whose path has no elements. -/
def Rootless (u : Update TypedValue) : Prop := u.path = some [] ∧ u.val.isSome

theorem writes_of_leaf {α : Type} {u : Update TypedValue} {leaf : Text} {v : TypedValue}
    (hleaf : leafOf u = some (leaf, v)) (name : String) (g : TypedValue → Option α) :
    writes name g u = if leaf = bytes name then g v else none := by
  unfold writes
  rw [hleaf]

/-- The update of one leaf. -/
theorem alarmLeaf_eq (a : Alarm) {leaf : Text} {v : TypedValue} {u : Update TypedValue}
    (hleaf : leafOf u = some (leaf, v)) : alarmLeaf a leaf v = alarmOf a [u] := by
  unfold alarmOf
  simp only [latest_cons, latest_nil, writes_of_leaf hleaf]
  by_cases htext : leaf = bytes "text"
  · subst htext
    cases v <;> rfl
  by_cases hresource : leaf = bytes "resource"
  · subst hresource
    cases v <;> rfl
  by_cases htype : leaf = bytes "type-id"
  · subst htype
    cases v <;> rfl
  by_cases hseverity : leaf = bytes "severity"
  · subst hseverity
    cases v <;> rfl
  by_cases hacknowledged : leaf = bytes "acknowledged"
  · subst hacknowledged
    cases v <;> rfl
  by_cases htime : leaf = bytes "acknowledge-time"
  · subst htime
    cases v <;> rfl
  by_cases hcreated : leaf = bytes "time-created"
  · subst hcreated
    cases v <;> rfl
  unfold alarmLeaf
  simp only [if_neg htext, if_neg hresource, if_neg htype, if_neg hseverity, if_neg hacknowledged,
    if_neg htime, if_neg hcreated, Option.getD_none]

/-- An update of no leaf. -/
theorem alarmOf_silent (a : Alarm) {u : Update TypedValue} (hleaf : leafOf u = none) :
    alarmOf a [u] = a := by
  have hnone : ∀ {α : Type} (name : String) (g : TypedValue → Option α), writes name g u = none := by
    intro α name g
    unfold writes
    rw [hleaf]
  unfold alarmOf
  simp only [latest_cons, latest_nil, hnone, Option.getD_none]

/-- A turn of the loop. -/
theorem alarmUpdate_eq (a : Alarm) (u : Update TypedValue) :
    (Rootless u ∧ alarmUpdate a u = none) ∨ ¬ Rootless u ∧ alarmUpdate a u = some (alarmOf a [u]) := by
  obtain ⟨path, val⟩ := u
  cases val with
  | none =>
    refine Or.inr ⟨fun h => Bool.false_ne_true h.2, ?_⟩
    rw [alarmOf_silent a (by unfold leafOf; split <;> simp_all)]
    unfold alarmUpdate
    split <;> simp_all
  | some v =>
    match path with
    | none =>
      have hsame := alarmOf_silent a (u := ⟨none, some v⟩) rfl
      exact Or.inr ⟨fun h => (nomatch h.1), congrArg some hsame.symm⟩
    | some [] => exact Or.inl ⟨⟨rfl, rfl⟩, rfl⟩
    | some [p0] =>
      have hsame := alarmOf_silent a (u := ⟨some [p0], some v⟩) rfl
      exact Or.inr ⟨fun h => (nomatch h.1), congrArg some hsame.symm⟩
    | some (p0 :: p1 :: ps) =>
      refine Or.inr ⟨fun h => (nomatch h.1), ?_⟩
      by_cases hstate : p0.name = bytes "state"
      · have hleaf : leafOf ⟨some (p0 :: p1 :: ps), some v⟩ = some (p1.name, v) := if_pos hstate
        rw [← alarmLeaf_eq a hleaf]
        exact if_pos hstate
      · have hleaf : leafOf ⟨some (p0 :: p1 :: ps), some v⟩ = none := if_neg hstate
        rw [alarmOf_silent a hleaf]
        exact if_neg hstate

theorem alarmOf_cons (a : Alarm) (u : Update TypedValue) (us : List (Update TypedValue)) :
    alarmOf a (u :: us) = alarmOf (alarmOf a [u]) us := by
  unfold alarmOf
  simp only [latest_cons, latest_nil]

/-- The whole loop: it fails at a path without elements, and otherwise leaves the latest values. -/
theorem alarm_loop : ∀ (us : List (Update TypedValue)) (a : Alarm),
    ((∃ u ∈ us, Rootless u) ∧ us.foldlM alarmUpdate a = none) ∨
      (¬ ∃ u ∈ us, Rootless u) ∧ us.foldlM alarmUpdate a = some (alarmOf a us)
  | [], a => Or.inr ⟨fun ⟨u, hu, _⟩ => absurd hu List.not_mem_nil, rfl⟩
  | u :: us, a => by
      rw [List.foldlM_cons]
      rcases alarmUpdate_eq a u with ⟨hroot, hnone⟩ | ⟨hroot, hsome⟩
      · rw [hnone]
        exact Or.inl ⟨⟨u, List.mem_cons_self .., hroot⟩, rfl⟩
      · rw [hsome, Option.bind_eq_bind, Option.bind_some, alarmOf_cons a u us]
        rcases alarm_loop us (alarmOf a [u]) with ⟨⟨w, hw, hwroot⟩, hnone⟩ | ⟨hnot, hall⟩
        · exact Or.inl ⟨⟨w, List.mem_cons_of_mem _ hw, hwroot⟩, hnone⟩
        · refine Or.inr ⟨?_, hall⟩
          rintro ⟨w, hw, hwroot⟩
          rcases List.mem_cons.mp hw with rfl | hw
          · exact hroot hwroot
          · exact hnot ⟨w, hw, hwroot⟩

/-! ### Ports -/

/-- What `linkstatus_gnmi_cb`, `poe_linkstatus_gnmi_cb` and `poe_link_faultcode_gnmi_cb` begin with: the
    name of the interface and the string of the first update. -/
def portUpdate (n : Notification TypedValue) (e1 : PathElem) : Option (Text × Text) :=
  match e1.key, n.update with
  | (_, ifname) :: _, u :: _ =>
    match u.val with
    | some (.string v) => if bytes "Ethernet" <+: ifname then some (ifname, v) else none
    | _ => none
  | _, _ => none

/-- `linkstatus_gnmi_cb`. -/
def linkstatusGnmiCb (n : Notification TypedValue) (e1 : PathElem) : Outcome GnmaEvent :=
  match portUpdate n e1 with
  | none => .ignored
  | some (ifname, v) =>
    if v = bytes "DOWN" then .call (.linkstatus n.timestamp ifname false)
    else if v = bytes "UP" then .call (.linkstatus n.timestamp ifname true)
    else .ignored

/-- `strncpy` into a field of 32 bytes that is all zero, less the last byte, read as a string. -/
def field31 (v : Text) : Text := v.take 31

/-- `poe_linkstatus_gnmi_cb`. -/
def poeLinkstatusGnmiCb (n : Notification TypedValue) (e1 : PathElem) : Outcome GnmaEvent :=
  match portUpdate n e1 with
  | none => .ignored
  | some (ifname, v) => .call (.poeLinkstatus n.timestamp ifname (field31 v))

/-- `poe_link_faultcode_gnmi_cb`. -/
def poeLinkFaultcodeGnmiCb (n : Notification TypedValue) (e1 : PathElem) : Outcome GnmaEvent :=
  match portUpdate n e1 with
  | none => .ignored
  | some (ifname, v) => .call (.poeLinkFaultcode n.timestamp ifname (field31 v))

/-- `subscribe_gnmi_cb`; there is no notification in the response to the end of the subscription, or to
    its synchronisation. -/
def subscribeGnmiCb (update : Option (Notification TypedValue)) : Outcome GnmaEvent :=
  match update with
  | none => .ignored
  | some n =>
    match n.prefixElem with
    | _ :: e1 :: elems =>
      if e1.name = bytes "alarms" then alarmGnmiCb n
      else if e1.name = bytes "interface" then
        match elems with
        | [] => .ignored
        | e2 :: _ =>
          if e2.name = bytes "state" then linkstatusGnmiCb n e1
          else match n.update with
            | ⟨some (p0 :: _), _⟩ :: _ =>
              if p0.name = bytes "status" then poeLinkstatusGnmiCb n e1
              else if p0.name = bytes "fault-code" then poeLinkFaultcodeGnmiCb n e1
              else .ignored
            | _ => .ignored
      else .ignored
    | _ => .ignored

/-! ### The callbacks of the platform -/

/-- `enum plat_poe_linkstatus_value` -/
inductive PoeLinkstatus
  | disabled | searching | deliveringPower | overload | fault
  deriving DecidableEq

/-- `enum plat_poe_link_faultcode_value` -/
inductive PoeFaultcode
  | noError | ovlo | mpsAbsent | short | overload | powerDenied | thermalShutdown | startupFailure | uvlo
  | hwPinDisable | portUndefined | internalHwFault | userSetting | nonStandardPd | underload
  | pwrBudgetExceeded | oorCapacitorValue | classError
  deriving DecidableEq

inductive PlatEvent
  | alarm (a : Alarm)
  | linkstatus (timestamp : ℤ) (ifname : Text) (up : Bool)
  | poeLinkstatus (timestamp : ℤ) (ifname : Text) (status : PoeLinkstatus)
  | poeLinkFaultcode (timestamp : ℤ) (ifname : Text) (faultcode : PoeFaultcode)
  deriving DecidableEq

/-- The value that `poe_linkstatus_gnma_cb` finds for a status. -/
def poeLinkstatusOf (status : Text) : Option PoeLinkstatus :=
  if status = bytes "DISABLED" then some .disabled
  else if status = bytes "SEARCHING" then some .searching
  else if status = bytes "DELIVERING_POWER" then some .deliveringPower
  else if status = bytes "OVERLOAD" then some .overload
  else if status = bytes "OTHER_FAULT" then some .fault
  else none

/-- The value that `poe_link_faultcode_gnma_cb` finds for a code; there is none to report where the fault
    is over. -/
def poeFaultcodeOf (code : Text) : Option PoeFaultcode :=
  if code = bytes "NO_ERROR" then none
  else if code = bytes "OVLO" then some .ovlo
  else if code = bytes "MPS_ABSENT" then some .mpsAbsent
  else if code = bytes "SHORT" then some .short
  else if code = bytes "OVERLOAD" then some .overload
  else if code = bytes "POWER_DENIED" then some .powerDenied
  else if code = bytes "THERMAL_SHUTDOWN" then some .thermalShutdown
  else if code = bytes "STARTUP_FAILURE" then some .startupFailure
  else if code = bytes "UVLO" then some .uvlo
  else if code = bytes "HW_PIN_DISABLE" then some .hwPinDisable
  else if code = bytes "PORT_UNDEFINED" then some .portUndefined
  else if code = bytes "INTERNAL_HW_FAULT" then some .internalHwFault
  else if code = bytes "USER_SETTING" then some .userSetting
  else if code = bytes "NON_STANDARD_PD" then some .nonStandardPd
  else if code = bytes "UNDERLOAD" then some .underload
  else if code = bytes "PWR_BUDGET_EXCEEDED" then some .pwrBudgetExceeded
  else if code = bytes "OOR_CAPACITOR_VALUE" then some .oorCapacitorValue
  else if code = bytes "CLASS_ERROR" then some .classError
  else none

/-- `alarm_gnma_cb`, `linkstatus_gnma_cb`, `poe_linkstatus_gnma_cb` and `poe_link_faultcode_gnma_cb`:
    nanoseconds become seconds. -/
def platEvent : GnmaEvent → Option PlatEvent
  | .alarm a => some (.alarm a)
  | .linkstatus ts ifname up => some (.linkstatus (ts.tdiv 1000000000) ifname up)
  | .poeLinkstatus ts ifname status =>
    (poeLinkstatusOf status).map (.poeLinkstatus (ts.tdiv 1000000000) ifname)
  | .poeLinkFaultcode ts ifname code =>
    (poeFaultcodeOf code).map (.poeLinkFaultcode (ts.tdiv 1000000000) ifname)

end Ucentral.Plat.Events
