import Ucentral.Lib.Decimal
import Ucentral.Plat.Events

/-! The events of the switch, as they are sent.

    The four callbacks of the platform each send one message. Together with what is in front of them,
    they translate the name of a fault twice, from the string of the switch to a number and from the
    number to the type of an event. -/

namespace Ucentral.Proto.Events
open CString Decimal Latest Plat.Events

/-! ### Messages -/

/-- A `cJSON` of the kinds that the callbacks create; a raw item is a number here. -/
inductive Blob
  | str (text : Text)
  | raw (n : ℤ)
  | arr (items : List Blob)
  | obj (members : List (String × Blob))

/-- `proto_new_blob`, and what is put into its parameters. -/
def protoNewBlob (method : String) (params : List (String × Blob)) : Blob :=
  .obj [("jsonrpc", .str (bytes "2.0")), ("method", .str (bytes method)), ("params", .obj params)]

/-- The message about a port. -/
def eventBlob (serial : Text) (timestamp : ℤ) (type ifname : Text) : Blob :=
  protoNewBlob "event" [("serial", .str serial), ("data", .obj [("event", .arr
    [.raw timestamp, .obj [("type", .str type), ("payload", .obj [("name", .str ifname)])]])])]

/-- The message about an alarm. -/
def alarmBlob (serial : Text) (a : Alarm) (resource text : Text) : Blob :=
  protoNewBlob "alarm" [("serial", .str serial), ("data", .obj
    [("id", .str a.id), ("resource", .str resource), ("text", .str text),
      ("time_created", .str (printBytes a.timeCreated)), ("type_id", .str a.typeId),
      ("severity", .str (printBytes a.severity))])]

/-! ### The callbacks -/

/-- `alarm_plat_cb`, which reads both strings. -/
def alarmPlatCb (serial : Text) (a : Alarm) : Outcome Blob :=
  match a.resource, a.text with
  | some resource, some text => .call (alarmBlob serial a resource text)
  | _, _ => .fault

/-- `linkstatus_plat_cb`. -/
def linkstatusPlatCb (serial : Text) (timestamp : ℤ) (ifname : Text) (up : Bool) : Outcome Blob :=
  .call (eventBlob serial timestamp (bytes (if up then "wired.carrier-up" else "wired.carrier-down"))
    ifname)

def poeLinkstatusType : PoeLinkstatus → String
  | .disabled => "wired.poe.status.disabled"
  | .searching => "wired.poe.status.searching"
  | .deliveringPower => "wired.poe.status.delivering_power"
  | .overload => "wired.poe.status.overload"
  | .fault => "wired.poe.status.fault"

/-- `poe_linkstatus_plat_cb`. -/
def poeLinkstatusPlatCb (serial : Text) (timestamp : ℤ) (ifname : Text) (status : PoeLinkstatus) :
    Outcome Blob :=
  .call (eventBlob serial timestamp (bytes (poeLinkstatusType status)) ifname)

def poeFaultcodeType : PoeFaultcode → Option String
  | .noError => none
  | .ovlo => some "wired.poe.fault.ovlo"
  | .mpsAbsent => some "wired.poe.fault.mps_absent"
  | .short => some "wired.poe.fault.short"
  | .overload => some "wired.poe.fault.overload"
  | .powerDenied => some "wired.poe.fault.power_denied"
  | .thermalShutdown => some "wired.poe.fault.thermal_shutdown"
  | .startupFailure => some "wired.poe.fault.startup_failure"
  | .uvlo => some "wired.poe.fault.uvlo"
  | .hwPinDisable => some "wired.poe.fault.hw_pin_disable"
  | .portUndefined => some "wired.poe.fault.port_undefined"
  | .internalHwFault => some "wired.poe.fault.internal_hw_fault"
  | .userSetting => some "wired.poe.fault.user_setting"
  | .nonStandardPd => some "wired.poe.fault.non_standard_pd"
  | .underload => some "wired.poe.fault.underload"
  | .pwrBudgetExceeded => some "wired.poe.fault.pwr_budget_exceeded"
  | .oorCapacitorValue => some "wired.poe.fault.oor_capacitor_value"
  | .classError => some "wired.poe.fault.class_error"

/-- `poe_link_faultcode_plat_cb`. -/
def poeLinkFaultcodePlatCb (serial : Text) (timestamp : ℤ) (ifname : Text) (code : PoeFaultcode) :
    Outcome Blob :=
  match poeFaultcodeType code with
  | none => .ignored
  | some type => .call (eventBlob serial timestamp (bytes type) ifname)

/-- The callbacks of `plat_event_subscribe`. -/
def platCb (serial : Text) : PlatEvent → Outcome Blob
  | .alarm a => alarmPlatCb serial a
  | .linkstatus ts ifname up => linkstatusPlatCb serial ts ifname up
  | .poeLinkstatus ts ifname status => poeLinkstatusPlatCb serial ts ifname status
  | .poeLinkFaultcode ts ifname code => poeLinkFaultcodePlatCb serial ts ifname code

/-- The id that `alarm_gnmi_cb` acknowledges once its callback has returned. -/
def acknowledges : GnmaEvent → Option Text
  | .alarm a => some a.id
  | _ => none

/-- What comes of the outcome of `subscribe_gnmi_cb`: the message, and the id of the alarm that is
    acknowledged. -/
def passOn (serial : Text) : Outcome GnmaEvent → Outcome (Blob × Option Text)
  | .fault => .fault
  | .ignored => .ignored
  | .call g =>
    match platEvent g with
    | none => .ignored
    | some p =>
      match platCb serial p with
      | .fault => .fault
      | .ignored => .ignored
      | .call blob => .call (blob, acknowledges g)

/-- What comes of a response. -/
def onResponse (serial : Text) (update : Option (Notification ProtoValue)) :
    Outcome (Blob × Option Text) :=
  passOn serial (subscribeGnmiCb (update.map connectorNotification))

/-! ### Names -/

/-- The codes of the faults that are reported. -/
def faultCodes : List String :=
  ["OVLO", "MPS_ABSENT", "SHORT", "OVERLOAD", "POWER_DENIED", "THERMAL_SHUTDOWN", "STARTUP_FAILURE",
    "UVLO", "HW_PIN_DISABLE", "PORT_UNDEFINED", "INTERNAL_HW_FAULT", "USER_SETTING", "NON_STANDARD_PD",
    "UNDERLOAD", "PWR_BUDGET_EXCEEDED", "OOR_CAPACITOR_VALUE", "CLASS_ERROR"]

/-- The statuses that are reported, and how they are called in the event. -/
def statusNames : List (String × String) :=
  [("DISABLED", "disabled"), ("SEARCHING", "searching"), ("DELIVERING_POWER", "delivering_power"),
    ("OVERLOAD", "overload"), ("OTHER_FAULT", "fault")]

/-- The lower case of ASCII. -/
def lower (s : Text) : Text := s.map fun b => if 65 ≤ b ∧ b ≤ 90 then b + 32 else b

/-- The type of the event for a code of the switch. -/
def faultType (v : Text) : Option Text :=
  ((poeFaultcodeOf (field31 v)).bind poeFaultcodeType).map bytes

/-- The type of the event for a status of the switch. -/
def statusType (v : Text) : Option Text :=
  (poeLinkstatusOf (field31 v)).map fun status => bytes (poeLinkstatusType status)

theorem field31_eq {v name : Text} (h : name.length < 31) : field31 v = name ↔ v = name := by
  unfold field31
  constructor
  · intro heq
    have hlen : (v.take 31).length = name.length := congrArg List.length heq
    rw [List.length_take] at hlen
    rwa [List.take_of_length_le (by omega)] at heq
  · rintro rfl
    exact List.take_of_length_le (by omega)

/-- What a chain of comparisons finds. -/
def look {α : Type} (w : Text) : List (String × α) → Option α
  | [] => none
  | (name, a) :: rest => if w = bytes name then some a else look w rest

theorem look_mem {α : Type} {w : Text} {a : α} : ∀ {names : List (String × α)},
    look w names = some a → ∃ name, (name, a) ∈ names ∧ w = bytes name
  | [], h => nomatch h
  | (name, b) :: rest, h => by
      unfold look at h
      by_cases hname : w = bytes name
      · rw [if_pos hname] at h
        cases h
        exact ⟨name, List.mem_cons_self .., hname⟩
      · rw [if_neg hname] at h
        obtain ⟨name', hmem, heq⟩ := look_mem h
        exact ⟨name', List.mem_cons_of_mem _ hmem, heq⟩

/-- The field is long enough for the names. -/
theorem look_field31 {α : Type} (v : Text) : ∀ {names : List (String × α)},
    (∀ e ∈ names, (bytes e.1).length < 31) → look (field31 v) names = look v names
  | [], _ => rfl
  | (name, a) :: rest, h => by
      unfold look
      rw [if_congr (field31_eq (h _ (List.mem_cons_self ..))) rfl rfl,
        look_field31 v (fun e he => h e (List.mem_cons_of_mem _ he))]

/-- The names that the two callbacks of the platform know. -/
def faultTable : List (String × PoeFaultcode) :=
  [("OVLO", .ovlo), ("MPS_ABSENT", .mpsAbsent), ("SHORT", .short), ("OVERLOAD", .overload),
    ("POWER_DENIED", .powerDenied), ("THERMAL_SHUTDOWN", .thermalShutdown),
    ("STARTUP_FAILURE", .startupFailure), ("UVLO", .uvlo), ("HW_PIN_DISABLE", .hwPinDisable),
    ("PORT_UNDEFINED", .portUndefined), ("INTERNAL_HW_FAULT", .internalHwFault),
    ("USER_SETTING", .userSetting), ("NON_STANDARD_PD", .nonStandardPd), ("UNDERLOAD", .underload),
    ("PWR_BUDGET_EXCEEDED", .pwrBudgetExceeded), ("OOR_CAPACITOR_VALUE", .oorCapacitorValue),
    ("CLASS_ERROR", .classError)]

def statusTable : List (String × PoeLinkstatus) :=
  [("DISABLED", .disabled), ("SEARCHING", .searching), ("DELIVERING_POWER", .deliveringPower),
    ("OVERLOAD", .overload), ("OTHER_FAULT", .fault)]

theorem faultcodeOf_table (w : Text) :
    poeFaultcodeOf w = if w = bytes "NO_ERROR" then none else look w faultTable := rfl

theorem linkstatusOf_table (w : Text) : poeLinkstatusOf w = look w statusTable := rfl

/-- The two translations of a code make one: it is put into lower case. -/
theorem faultType_eq (v : Text) : faultType v =
    if v ∈ faultCodes.map bytes then some (bytes "wired.poe.fault." ++ lower v) else none := by
  by_cases hcode : v ∈ faultCodes.map bytes
  · rw [if_pos hcode]
    obtain ⟨c, hc, rfl⟩ := List.mem_map.mp hcode
    revert c
    decide
  · rw [if_neg hcode]
    unfold faultType
    rw [faultcodeOf_table, look_field31 v (by decide)]
    cases hlook : look v faultTable with
    | none => rw [ite_self]; rfl
    | some code =>
      obtain ⟨name, hmem, hname⟩ := look_mem hlook
      have hknown : name ∈ faultCodes := List.mem_map_of_mem (f := Prod.fst) hmem
      exact absurd (hname ▸ List.mem_map_of_mem hknown) hcode

theorem look_map {α β : Type} (g : α → β) (w : Text) : ∀ (names : List (String × α)),
    look w (names.map fun e => (e.1, g e.2)) = (look w names).map g
  | [] => rfl
  | (name, a) :: rest => by
      rw [List.map_cons, look, look, look_map g w rest]
      split <;> rfl

/-- So do those of a status. -/
theorem statusType_eq (v : Text) : statusType v =
    (look v statusNames).map fun name => bytes "wired.poe.status." ++ bytes name := by
  unfold statusType
  rw [linkstatusOf_table, look_field31 v (by decide), ← look_map, ← look_map]
  rfl

/-! ### Events of ports -/

/-- The type of the event for a state of the link. -/
def carrierType (v : Text) : Option Text :=
  if v = bytes "DOWN" then some (bytes "wired.carrier-down")
  else if v = bytes "UP" then some (bytes "wired.carrier-up")
  else none

/-- What the first update is about. -/
def firstName (n : Notification TypedValue) : Option Text :=
  match n.update with
  | ⟨some (p0 :: _), _⟩ :: _ => some p0.name
  | _ => none

/-- The type of the event that a notification about an interface asks for. -/
def portType (n : Notification TypedValue) (e2 : PathElem) (v : Text) : Option Text :=
  if e2.name = bytes "state" then carrierType v
  else if firstName n = some (bytes "status") then statusType v
  else if firstName n = some (bytes "fault-code") then faultType v
  else none

/-- The interface and the type of the event. -/
def portReport (n : Notification TypedValue) (e1 e2 : PathElem) : Option (Text × Text) :=
  (portUpdate n e1).bind fun (ifname, v) => (portType n e2 v).map (ifname, ·)

/-- What a port event is sent as. -/
def sentPort (serial : Text) (timestamp : ℤ) : Option (Text × Text) → Outcome (Blob × Option Text)
  | none => .ignored
  | some (ifname, type) => .call (eventBlob serial (timestamp.tdiv 1000000000) type ifname, none)

theorem passOn_linkstatus (serial : Text) (n : Notification TypedValue) (e1 : PathElem) :
    passOn serial (linkstatusGnmiCb n e1) = sentPort serial n.timestamp
      ((portUpdate n e1).bind fun (ifname, v) => (carrierType v).map (ifname, ·)) := by
  unfold linkstatusGnmiCb
  cases portUpdate n e1 with
  | none => rfl
  | some iv =>
    obtain ⟨ifname, v⟩ := iv
    dsimp only [Option.bind_some]
    unfold carrierType
    by_cases hdown : v = bytes "DOWN"
    · rw [if_pos hdown, if_pos hdown]
      rfl
    · rw [if_neg hdown, if_neg hdown]
      by_cases hup : v = bytes "UP"
      · rw [if_pos hup, if_pos hup]
        rfl
      · rw [if_neg hup, if_neg hup]
        rfl

theorem passOn_poeLinkstatus (serial : Text) (n : Notification TypedValue) (e1 : PathElem) :
    passOn serial (poeLinkstatusGnmiCb n e1) = sentPort serial n.timestamp
      ((portUpdate n e1).bind fun (ifname, v) => (statusType v).map (ifname, ·)) := by
  unfold poeLinkstatusGnmiCb
  cases portUpdate n e1 with
  | none => rfl
  | some iv =>
    obtain ⟨ifname, v⟩ := iv
    dsimp only [Option.bind_some, passOn, platEvent]
    unfold statusType
    cases poeLinkstatusOf (field31 v) with
    | none => rfl
    | some status => rfl

theorem passOn_poeLinkFaultcode (serial : Text) (n : Notification TypedValue) (e1 : PathElem) :
    passOn serial (poeLinkFaultcodeGnmiCb n e1) = sentPort serial n.timestamp
      ((portUpdate n e1).bind fun (ifname, v) => (faultType v).map (ifname, ·)) := by
  unfold poeLinkFaultcodeGnmiCb
  cases portUpdate n e1 with
  | none => rfl
  | some iv =>
    obtain ⟨ifname, v⟩ := iv
    dsimp only [Option.bind_some, passOn, platEvent]
    unfold faultType
    cases poeFaultcodeOf (field31 v) with
    | none => rfl
    | some code => cases code <;> rfl

/-- What comes of a notification about an interface. -/
theorem subscribe_port (serial : Text) {n : Notification TypedValue} {e0 e1 e2 : PathElem}
    {rest : List PathElem} (hhead : n.prefixElem = e0 :: e1 :: e2 :: rest)
    (hname : e1.name = bytes "interface") :
    passOn serial (subscribeGnmiCb (some n)) = sentPort serial n.timestamp (portReport n e1 e2) := by
  have halarms : e1.name ≠ bytes "alarms" := by
    rw [hname]
    decide
  unfold portReport
  unfold subscribeGnmiCb
  simp only [hhead, if_neg halarms, if_pos hname]
  by_cases hstate : e2.name = bytes "state"
  · rw [if_pos hstate, passOn_linkstatus]
    unfold portType
    simp only [if_pos hstate]
  · rw [if_neg hstate]
    have hsilent : passOn serial .ignored = sentPort serial n.timestamp
        ((portUpdate n e1).bind fun _ => none) := by
      cases portUpdate n e1 <;> rfl
    unfold portType
    simp only [if_neg hstate]
    split
    · next p0 ps val us hupdate =>
      have hfirst : firstName n = some p0.name := by
        unfold firstName
        rw [hupdate]
      simp only [hfirst, Option.some.injEq]
      by_cases hstatus : p0.name = bytes "status"
      · simp only [if_pos hstatus]
        exact passOn_poeLinkstatus serial n e1
      · by_cases hfault : p0.name = bytes "fault-code"
        · simp only [if_neg hstatus, if_pos hfault]
          exact passOn_poeLinkFaultcode serial n e1
        · simp only [if_neg hstatus, if_neg hfault]
          exact hsilent
    · next hother =>
      have hfirst : firstName n = none := by
        unfold firstName
        split
        · next p0 ps val us hupdate => exact absurd hupdate (hother p0 ps val us)
        · rfl
      simp only [hfirst, reduceCtorEq, if_false]
      exact hsilent

/-- The string `v` below the element `part` of an interface, and what it is called in an event. -/
inductive Means (part : Text) (path : Option (List PathElem)) : Text → Text → Prop
  | down (hpart : part = bytes "state") : Means part path (bytes "DOWN") (bytes "wired.carrier-down")
  | up (hpart : part = bytes "state") : Means part path (bytes "UP") (bytes "wired.carrier-up")
  | status {p0 : PathElem} {ps : List PathElem} {v name : String} (hpart : part ≠ bytes "state")
      (hpath : path = some (p0 :: ps)) (hfirst : p0.name = bytes "status")
      (hname : (v, name) ∈ statusNames) :
      Means part path (bytes v) (bytes "wired.poe.status." ++ bytes name)
  | fault {p0 : PathElem} {ps : List PathElem} {v : String} (hpart : part ≠ bytes "state")
      (hpath : path = some (p0 :: ps)) (hfirst : p0.name = bytes "fault-code") (hv : v ∈ faultCodes) :
      Means part path (bytes v) (bytes "wired.poe.fault." ++ lower (bytes v))

/-- The notification reports something about an Ethernet port, by its first update. -/
inductive Reports (n : Notification TypedValue) (ifname type : Text) : Prop
  | mk {e0 e1 e2 : PathElem} {rest : List PathElem} {key : Text} {keys : List (Text × Text)}
      {path : Option (List PathElem)} {v : Text} {us : List (Update TypedValue)}
      (hhead : n.prefixElem = e0 :: e1 :: e2 :: rest) (hname : e1.name = bytes "interface")
      (hkey : e1.key = (key, ifname) :: keys) (hport : bytes "Ethernet" <+: ifname)
      (hupdate : n.update = ⟨path, some (.string v)⟩ :: us) (hmeans : Means e2.name path v type)

theorem portUpdate_eq_some {n : Notification TypedValue} {e1 : PathElem} {ifname v : Text} :
    portUpdate n e1 = some (ifname, v) ↔ ∃ key keys path us, e1.key = (key, ifname) :: keys ∧
      n.update = ⟨path, some (.string v)⟩ :: us ∧ bytes "Ethernet" <+: ifname := by
  constructor
  · intro h
    unfold portUpdate at h
    split at h
    · next key ifname' keys u us hkey hupdate =>
      split at h
      · next v' hval =>
        split at h
        · next hport =>
          cases h
          exact ⟨key, keys, u.path, us, hkey, by rw [hupdate, ← hval], hport⟩
        · cases h
      · cases h
    · cases h
  · rintro ⟨key, keys, path, us, hkey, hupdate, hport⟩
    unfold portUpdate
    rw [hkey, hupdate]
    exact if_pos hport

theorem look_some_iff {α : Type} {w : Text} {a : α} {names : List (String × α)}
    (hdistinct : (names.map fun e => bytes e.1).Nodup) :
    look w names = some a ↔ ∃ name, (name, a) ∈ names ∧ w = bytes name := by
  constructor
  · exact look_mem
  · rintro ⟨name, hmem, rfl⟩
    induction names with
    | nil => exact absurd hmem List.not_mem_nil
    | cons e rest ih =>
      obtain ⟨name', b⟩ := e
      rw [List.map_cons, List.nodup_cons] at hdistinct
      unfold look
      rcases List.mem_cons.mp hmem with heq | hmem
      · cases heq
        exact if_pos rfl
      · have hne : bytes name ≠ bytes name' := by
          intro heq
          exact hdistinct.1 (heq ▸ List.mem_map_of_mem (f := fun e => bytes e.1) hmem)
        rw [if_neg hne]
        exact ih hdistinct.2 hmem

theorem firstName_eq_some {n : Notification TypedValue} {path : Option (List PathElem)}
    {val : Option TypedValue} {us : List (Update TypedValue)} (hupdate : n.update = ⟨path, val⟩ :: us)
    (name : Text) : firstName n = some name ↔ ∃ p0 ps, path = some (p0 :: ps) ∧ p0.name = name := by
  unfold firstName
  rw [hupdate]
  match path with
  | none => exact iff_of_false nofun nofun
  | some [] => exact iff_of_false nofun nofun
  | some (p0 :: ps) =>
    constructor
    · intro h
      exact ⟨p0, ps, rfl, Option.some.inj h⟩
    · rintro ⟨q0, qs, heq, rfl⟩
      cases heq
      rfl

theorem portType_eq_some {n : Notification TypedValue} {e2 : PathElem} {path : Option (List PathElem)}
    {v type : Text} {us : List (Update TypedValue)} (hupdate : n.update = ⟨path, some (.string v)⟩ :: us) :
    portType n e2 v = some type ↔ Means e2.name path v type := by
  have hfirst := firstName_eq_some hupdate
  unfold portType
  constructor
  · intro h
    by_cases hstate : e2.name = bytes "state"
    · rw [if_pos hstate] at h
      unfold carrierType at h
      by_cases hdown : v = bytes "DOWN"
      · rw [if_pos hdown] at h
        cases h
        exact hdown ▸ .down hstate
      · by_cases hup : v = bytes "UP"
        · rw [if_neg hdown, if_pos hup] at h
          cases h
          exact hup ▸ .up hstate
        · rw [if_neg hdown, if_neg hup] at h
          cases h
    · rw [if_neg hstate] at h
      by_cases hstatus : firstName n = some (bytes "status")
      · rw [if_pos hstatus, statusType_eq] at h
        obtain ⟨p0, ps, hpath, hp0⟩ := (hfirst _).mp hstatus
        obtain ⟨name, hlook, rfl⟩ := Option.map_eq_some_iff.mp h
        obtain ⟨w, hmem, rfl⟩ := look_mem hlook
        exact .status hstate hpath hp0 hmem
      · by_cases hfault : firstName n = some (bytes "fault-code")
        · rw [if_neg hstatus, if_pos hfault, faultType_eq] at h
          obtain ⟨p0, ps, hpath, hp0⟩ := (hfirst _).mp hfault
          by_cases hv : v ∈ faultCodes.map bytes
          · rw [if_pos hv] at h
            cases h
            obtain ⟨w, hw, rfl⟩ := List.mem_map.mp hv
            exact .fault hstate hpath hp0 hw
          · rw [if_neg hv] at h
            cases h
        · rw [if_neg hstatus, if_neg hfault] at h
          cases h
  · intro h
    cases h with
    | down hstate => rw [if_pos hstate]; rfl
    | up hstate => rw [if_pos hstate]; rfl
    | status hstate hpath hp0 hmem =>
      rw [if_neg hstate, if_pos ((hfirst _).mpr ⟨_, _, hpath, hp0⟩), statusType_eq,
        (look_some_iff (by decide)).mpr ⟨_, hmem, rfl⟩]
      rfl
    | fault hstate hpath hp0 hv =>
      have hfault : firstName n = some (bytes "fault-code") := (hfirst _).mpr ⟨_, _, hpath, hp0⟩
      have hstatus : firstName n ≠ some (bytes "status") := by
        rw [hfault]
        decide
      rw [if_neg hstate, if_neg hstatus, if_pos hfault, faultType_eq, if_pos (List.mem_map_of_mem hv)]

theorem portReport_eq_some {n : Notification TypedValue} {e0 e1 e2 : PathElem} {rest : List PathElem}
    (hhead : n.prefixElem = e0 :: e1 :: e2 :: rest) (hname : e1.name = bytes "interface")
    {ifname type : Text} : portReport n e1 e2 = some (ifname, type) ↔ Reports n ifname type := by
  constructor
  · intro h
    obtain ⟨⟨ifname', v⟩, hport, htype⟩ := Option.bind_eq_some_iff.mp h
    obtain ⟨type', htype, heq⟩ := Option.map_eq_some_iff.mp htype
    cases heq
    obtain ⟨key, keys, path, us, hkey, hupdate, heth⟩ := portUpdate_eq_some.mp hport
    exact .mk hhead hname hkey heth hupdate ((portType_eq_some hupdate).mp htype)
  · rintro ⟨hhead', hname', hkey, heth, hupdate, hmeans⟩
    rw [hhead] at hhead'
    cases hhead'
    have hport := portUpdate_eq_some.mpr ⟨_, _, _, _, hkey, hupdate, heth⟩
    have htype := (portType_eq_some hupdate).mpr hmeans
    unfold portReport
    rw [hport, Option.bind_some]
    exact congrArg (Option.map (ifname, ·)) htype

/-! ### Events of alarms -/

/-- The notification is about the alarm `id`. -/
inductive AboutAlarm (n : Notification TypedValue) (id : Text) : Prop
  | mk {e0 e1 e2 : PathElem} {rest : List PathElem} (hhead : n.prefixElem = e0 :: e1 :: e2 :: rest)
      (hname : e1.name = bytes "alarms") (hkey : e2.key = [(bytes "id", id)]) (hid : id ≠ [])

/-- What comes of a notification about an alarm. -/
def alarmOutcome (serial : Text) (n : Notification TypedValue) (id : Text) :
    Outcome (Blob × Option Text) :=
  match n.update.foldlM alarmUpdate { id := id } with
  | none => .fault
  | some a =>
    if a.acknowledged then .ignored
    else match alarmPlatCb serial a with
      | .fault => .fault
      | .ignored => .ignored
      | .call blob => .call (blob, some a.id)

theorem subscribe_alarm (serial : Text) {n : Notification TypedValue} {id : Text}
    (h : AboutAlarm n id) : passOn serial (subscribeGnmiCb (some n)) = alarmOutcome serial n id := by
  obtain ⟨hhead, hname, hkey, hid⟩ := h
  cases hfold : n.update.foldlM alarmUpdate { id := id } with
  | none =>
    have hcb : subscribeGnmiCb (some n) = .fault := by
      simp [subscribeGnmiCb, alarmGnmiCb, hhead, hname, hkey, hid, hfold]
    simp only [hcb, alarmOutcome, hfold]
    rfl
  | some a =>
    have hcb : subscribeGnmiCb (some n) = if a.acknowledged then .ignored else .call (.alarm a) := by
      simp [subscribeGnmiCb, alarmGnmiCb, hhead, hname, hkey, hid, hfold]
    rw [hcb]
    unfold alarmOutcome
    rw [hfold]
    cases hack : a.acknowledged <;> simp only [hack] <;> rfl

/-- `alarm_gnmi_cb` takes a notification for one about an alarm by its third element. -/
theorem alarm_cases {n : Notification TypedValue} {e0 e1 : PathElem} {elems : List PathElem}
    (hhead : n.prefixElem = e0 :: e1 :: elems) (hname : e1.name = bytes "alarms") :
    (∃ id, AboutAlarm n id) ∨ alarmGnmiCb n = .ignored := by
  match elems with
  | [] =>
    refine Or.inr ?_
    simp only [alarmGnmiCb, hhead]
  | e2 :: rest =>
    match hkey : e2.key with
    | [] =>
      refine Or.inr ?_
      simp only [alarmGnmiCb, hhead, hkey]
    | _ :: _ :: _ =>
      refine Or.inr ?_
      simp only [alarmGnmiCb, hhead, hkey]
    | [(key, id)] =>
      by_cases hid : key = bytes "id"
      · by_cases hnil : id = []
        · refine Or.inr ?_
          simp only [alarmGnmiCb, hhead, hkey, if_neg (not_not.mpr hid), if_pos hnil]
        · exact Or.inl ⟨id, .mk hhead hname (by rw [hkey, hid]) hnil⟩
      · refine Or.inr ?_
        simp only [alarmGnmiCb, hhead, hkey]
        exact if_pos hid

/-- A notification is about an alarm, or about an interface, or nothing comes of it. -/
theorem subscribe_cases (n : Notification TypedValue) : (∃ id, AboutAlarm n id) ∨
    (∃ e0 e1 e2 rest, n.prefixElem = e0 :: e1 :: e2 :: rest ∧ e1.name = bytes "interface") ∨
      subscribeGnmiCb (some n) = .ignored := by
  match hhead : n.prefixElem with
  | [] =>
    refine Or.inr (Or.inr ?_)
    simp only [subscribeGnmiCb, hhead]
  | [_] =>
    refine Or.inr (Or.inr ?_)
    simp only [subscribeGnmiCb, hhead]
  | e0 :: e1 :: elems =>
    by_cases halarms : e1.name = bytes "alarms"
    · rcases alarm_cases hhead halarms with habout | hignored
      · exact Or.inl habout
      · refine Or.inr (Or.inr ?_)
        simp only [subscribeGnmiCb, hhead, if_pos halarms, hignored]
    · by_cases hinterface : e1.name = bytes "interface"
      · match elems with
        | [] =>
          refine Or.inr (Or.inr ?_)
          simp only [subscribeGnmiCb, hhead, if_neg halarms, if_pos hinterface]
        | e2 :: rest => exact Or.inr (Or.inl ⟨e0, e1, e2, rest, rfl, hinterface⟩)
      · refine Or.inr (Or.inr ?_)
        simp only [subscribeGnmiCb, hhead, if_neg halarms, if_neg hinterface]

/-- What comes of a notification about an alarm, by the latest values of its leaves. -/
theorem alarmOutcome_cases (serial : Text) (n : Notification TypedValue) (id : Text) :
    let a := alarmOf { id := id } n.update
    (alarmOutcome serial n id = .fault ∧ ((∃ u ∈ n.update, Rootless u) ∨
      a.acknowledged = false ∧ (a.resource = none ∨ a.text = none))) ∨
    (alarmOutcome serial n id = .ignored ∧ (¬ ∃ u ∈ n.update, Rootless u) ∧ a.acknowledged = true) ∨
    ((¬ ∃ u ∈ n.update, Rootless u) ∧ a.acknowledged = false ∧ ∃ resource text,
      a.resource = some resource ∧ a.text = some text ∧
        alarmOutcome serial n id = .call (alarmBlob serial a resource text, some id)) := by
  intro a
  unfold alarmOutcome
  rcases alarm_loop n.update { id := id } with ⟨hroot, hnone⟩ | ⟨hroot, hsome⟩
  · rw [hnone]
    exact Or.inl ⟨rfl, Or.inl hroot⟩
  · rw [hsome]
    cases hack : a.acknowledged with
    | true => exact Or.inr (Or.inl ⟨if_pos hack, hroot, rfl⟩)
    | false =>
      dsimp only
      rw [if_neg (by rw [hack]; decide)]
      unfold alarmPlatCb
      cases hresource : a.resource with
      | none => exact Or.inl ⟨rfl, Or.inr ⟨rfl, Or.inl rfl⟩⟩
      | some resource =>
        cases htext : a.text with
        | none => exact Or.inl ⟨rfl, Or.inr ⟨rfl, Or.inr rfl⟩⟩
        | some text => exact Or.inr (Or.inr ⟨hroot, rfl, resource, text, rfl, rfl, rfl⟩)

/-! ### What is sent -/

/-- A message about a port is sent exactly for a notification that reports something about an Ethernet
    port; it says what the switch says, with its time in seconds. -/
theorem port_event_iff (serial : Text) (n : Notification ProtoValue) (blob : Blob) :
    onResponse serial (some n) = .call (blob, none) ↔
      ∃ ifname type, Reports (connectorNotification n) ifname type ∧
        blob = eventBlob serial (n.timestamp.tdiv 1000000000) type ifname := by
  have hresponse : onResponse serial (some n) =
      passOn serial (subscribeGnmiCb (some (connectorNotification n))) := rfl
  rw [hresponse]
  constructor
  · intro h
    rcases subscribe_cases (connectorNotification n) with
      ⟨id, habout⟩ | ⟨e0, e1, e2, rest, hhead, hname⟩ | hignored
    · rw [subscribe_alarm serial habout] at h
      rcases alarmOutcome_cases serial (connectorNotification n) id with
        ⟨hout, -⟩ | ⟨hout, -⟩ | ⟨-, -, _, _, -, -, hout⟩ <;> rw [hout] at h <;> cases h
    · rw [subscribe_port serial hhead hname] at h
      cases hreport : portReport (connectorNotification n) e1 e2 with
      | none => rw [hreport] at h; cases h
      | some it =>
        obtain ⟨ifname, type⟩ := it
        rw [hreport] at h
        cases h
        exact ⟨ifname, type, (portReport_eq_some hhead hname).mp hreport, rfl⟩
    · rw [hignored] at h
      cases h
  · rintro ⟨ifname, type, hreports, rfl⟩
    have hreports' := hreports
    obtain ⟨hhead, hname, -⟩ := hreports
    rw [subscribe_port serial hhead hname, (portReport_eq_some hhead hname).mpr hreports']
    rfl

/-- Where the message is about an alarm, so is the notification. -/
theorem about_of_alarm {serial : Text} {n : Notification TypedValue} {o : Outcome (Blob × Option Text)}
    (h : passOn serial (subscribeGnmiCb (some n)) = o)
    (ho : o = .fault ∨ ∃ blob id, o = .call (blob, some id)) :
    ∃ id, AboutAlarm n id ∧ alarmOutcome serial n id = o := by
  rcases subscribe_cases n with ⟨id, habout⟩ | ⟨e0, e1, e2, rest, hhead, hname⟩ | hignored
  · exact ⟨id, habout, (subscribe_alarm serial habout).symm.trans h⟩
  · rw [subscribe_port serial hhead hname] at h
    cases hreport : portReport n e1 e2 with
    | none =>
      rw [hreport] at h
      cases h
      rcases ho with ho | ⟨_, _, ho⟩ <;> cases ho
    | some it =>
      rw [hreport] at h
      cases h
      rcases ho with ho | ⟨_, _, ho⟩ <;> cases ho
  · rw [hignored] at h
    cases h
    rcases ho with ho | ⟨_, _, ho⟩ <;> cases ho

/-- A message about an alarm is sent, and the alarm acknowledged by its id, exactly for a notification
    about an alarm that has not been acknowledged; the message has the latest value of each leaf. -/
theorem alarm_event_iff (serial : Text) (n : Notification ProtoValue) (blob : Blob) (id : Text) :
    let us := (connectorNotification n).update
    let a := alarmOf { id := id } us
    onResponse serial (some n) = .call (blob, some id) ↔
      AboutAlarm (connectorNotification n) id ∧ (¬ ∃ u ∈ us, Rootless u) ∧ a.acknowledged = false ∧
        ∃ resource text, a.resource = some resource ∧ a.text = some text ∧
          blob = alarmBlob serial a resource text := by
  intro us a
  constructor
  · intro h
    obtain ⟨id', habout, hout⟩ := about_of_alarm h (Or.inr ⟨blob, id, rfl⟩)
    rcases alarmOutcome_cases serial (connectorNotification n) id' with
      ⟨hout', -⟩ | ⟨hout', -⟩ | ⟨hroot, hack, resource, text, hresource, htext, hout'⟩ <;>
        rw [hout] at hout' <;> cases hout'
    exact ⟨habout, hroot, hack, resource, text, hresource, htext, rfl⟩
  · rintro ⟨habout, hroot, hack, resource, text, hresource, htext, rfl⟩
    refine (subscribe_alarm serial habout).trans ?_
    rcases alarmOutcome_cases serial (connectorNotification n) id with
      ⟨-, hroot' | ⟨-, hnone | hnone⟩⟩ | ⟨-, -, hack'⟩ | ⟨-, -, resource', text', hresource', htext', hout⟩
    · exact absurd hroot' hroot
    · exact nomatch hresource.symm.trans hnone
    · exact nomatch htext.symm.trans hnone
    · exact nomatch hack.symm.trans hack'
    · cases hresource.symm.trans hresource'
      cases htext.symm.trans htext'
      exact hout

/-- A response ends the client exactly if it is about an alarm, and an update of it has a path without
    elements, or the alarm has not been acknowledged and its resource or its text is no string. -/
theorem response_fault_iff (serial : Text) (update : Option (Notification ProtoValue)) :
    onResponse serial update = .fault ↔ ∃ n id, update = some n ∧
      AboutAlarm (connectorNotification n) id ∧
      let us := (connectorNotification n).update
      let a := alarmOf { id := id } us
      ((∃ u ∈ us, Rootless u) ∨ a.acknowledged = false ∧ (a.resource = none ∨ a.text = none)) := by
  constructor
  · intro h
    cases update with
    | none => cases h
    | some n =>
      obtain ⟨id, habout, hout⟩ := about_of_alarm h (Or.inl rfl)
      rcases alarmOutcome_cases serial (connectorNotification n) id with
        ⟨-, hwhy⟩ | ⟨hout', -⟩ | ⟨-, -, _, _, -, -, hout'⟩
      · exact ⟨n, id, rfl, habout, hwhy⟩
      · rw [hout] at hout'
        cases hout'
      · rw [hout] at hout'
        cases hout'
  · rintro ⟨n, id, rfl, habout, hwhy⟩
    refine (subscribe_alarm serial habout).trans ?_
    rcases alarmOutcome_cases serial (connectorNotification n) id with
      ⟨hout, -⟩ | ⟨-, hroot, hack⟩ | ⟨hroot, -, resource, text, hresource, htext, -⟩
    · exact hout
    · rcases hwhy with hroot' | ⟨hack', -⟩
      · exact absurd hroot' hroot
      · exact nomatch hack.symm.trans hack'
    · rcases hwhy with hroot' | ⟨-, hnone | hnone⟩
      · exact absurd hroot' hroot
      · exact nomatch hresource.symm.trans hnone
      · exact nomatch htext.symm.trans hnone

end Ucentral.Proto.Events
