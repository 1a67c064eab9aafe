import Ucentral.Plat.Device
import Ucentral.Lib.Triple

/-! The port caches: how `plat_state_init` fills the arrays of `plat_state` that are indexed by ports.

    Each port that the switch lists is put at the number its name gives. The indices are recorded as
    they are used: nothing below looks at their size. -/

namespace Ucentral.Plat
open Inet Effect

/-- How a gNMI get that stores one value ends. A reply without the value counts as read. -/
inductive Got (α : Type)
  | fails
  | missing
  | value (a : α)

/-- A switch with state `δ`: what it answers to the gets of the port caches. -/
structure PortDev (δ : Type) where
  portList : δ → Option (List String) × δ
  poePortList : δ → Option (List String) × δ
  portErif : String → δ → Option (List IpPrefix) × δ
  dot1xPae : String → δ → Got Bool × δ
  dot1xCtrl : String → δ → Got PortControlMode × δ
  dot1xHost : String → δ → Got PortHostMode × δ
  dot1xGuestVlan : String → δ → Got ℕ × δ
  dot1xAuthFailVlan : String → δ → Got ℕ × δ
  poeAdmin : String → δ → Got Bool × δ
  poeDetection : String → δ → Got PoeDetectionMode × δ
  poePowerLimit : String → δ → Got (Bool × ℕ) × δ
  poePriority : String → δ → Got PoePriority × δ
  poePowerMgmt : δ → Got PoePowerMgmt × δ
  poeUsageThreshold : δ → Got ℕ × δ

/-- The caches: `ports.array[].key` and `ports.ports_bmap`, and the rest of `plat_state`. `pid` is
    what an integer on the stack holds before `sscanf` stores to it. -/
structure PortEnv (δ : Type) where
  cache : PlatState
  portKeys : ℕ → String
  portsBmap : Bitmap
  pid : ℕ
  dev : δ

/-- A function that fills the caches; what it records is the port ids it uses as indices. -/
abbrev CacheM (δ α : Type) := Prog (PortEnv δ) ℕ α

section Init

variable {δ : Type}

/-- `NAME_TO_PID(&pid, name)`: a name of another form leaves the number as it was. -/
def toPid (name : String) : CacheM δ ℕ :=
  Prog.query fun e => ((nameToPid name).getD e.pid, { e with pid := (nameToPid name).getD e.pid })

/-- Ask the switch for a list; the first of the two calls gets its length. `undo` is what the function
    does before it returns the failure. -/
def listGet (q : δ → Option (List String) × δ) (undo : PortEnv δ → PortEnv δ) :
    CacheM δ (List String) := do
  match ← Prog.query fun e => ((q e.dev).1, { e with dev := (q e.dev).2 }) with
  | none => do
    Prog.modifyState undo
    Prog.fail (-1)
  | some names => return names

/-- Ask the switch for a value and put it into the cache. -/
def valueGet {α : Type} (q : δ → Got α × δ) (set : α → PlatState → PlatState) : CacheM δ Unit := do
  match ← Prog.query fun e => ((q e.dev).1, { e with dev := (q e.dev).2 }) with
  | .fails => Prog.fail (-1)
  | .missing => return ()
  | .value a => Prog.modifyState fun e => { e with cache := set a e.cache }

def setPort (pid : ℕ) (f : CachedDot1x → CachedDot1x) (c : PlatState) : PlatState :=
  { c with ports := Function.update c.ports pid (f (c.ports pid)) }

def setPoePort (pid : ℕ) (f : PoePort → PoePort) (c : PlatState) : PlatState :=
  { c with poePorts := Function.update c.poePorts pid (f (c.poePorts pid)) }

/-- `plat_state_port_ieee8021x_init`, on the port that is cached at `pid`. -/
def platStatePortIeee8021xInit (dv : PortDev δ) (pid : ℕ) (name : String) : CacheM δ Unit := do
  valueGet (dv.dot1xPae name) fun b => setPort pid fun p => { p with isAuthenticator := b }
  valueGet (dv.dot1xCtrl name) fun m => setPort pid fun p => { p with controlMode := m }
  valueGet (dv.dot1xHost name) fun m => setPort pid fun p => { p with hostMode := m }
  valueGet (dv.dot1xGuestVlan name) fun v => setPort pid fun p => { p with guestVid := v }
  valueGet (dv.dot1xAuthFailVlan name) fun v => setPort pid fun p => { p with authFailVid := v }

/-- One port of `plat_state_ports_init`. A port whose settings cannot be read fails the feature, not
    the function. -/
def portInit (dv : PortDev δ) (name : String) : CacheM δ Unit := do
  let pid ← toPid name
  Prog.record pid fun e => { e with portsBmap := e.portsBmap.setBit pid }
  Prog.record pid fun e => { e with portKeys := Function.update e.portKeys pid name }
  Prog.orElse (platStatePortIeee8021xInit dv pid name)
    (Prog.modifyState fun e => { e with cache := { e.cache with featAaa := .fail } })

/-- `plat_state_ports_init`. -/
def platStatePortsInit (dv : PortDev δ) : CacheM δ Unit := do
  let _ ← listGet dv.portList id
  let names ← listGet dv.portList fun e => { e with portsBmap := Bitmap.clear }
  forM names (portInit dv)

/-- One port of `plat_state_poe_init`. -/
def poePortInit (dv : PortDev δ) (name : String) : CacheM δ Unit := do
  let pid ← toPid name
  Prog.record pid fun e =>
    { e with cache := { e.cache with poePortsBmap := e.cache.poePortsBmap.setBit pid } }
  Prog.record pid fun e => { e with cache := setPoePort pid (fun p => { p with key := name }) e.cache }
  valueGet (dv.poeAdmin name) fun b => setPoePort pid fun p => { p with isAdminModeUp := b }
  valueGet (dv.poeDetection name) fun m => setPoePort pid fun p => { p with detectionMode := m }
  valueGet (dv.poePowerLimit name) fun l => setPoePort pid fun p =>
    { p with isPowerLimitUserDefined := l.1, powerLimit := l.2 }
  valueGet (dv.poePriority name) fun m => setPoePort pid fun p => { p with priority := m }

/-- `plat_state_poe_init`. -/
def platStatePoeInit (dv : PortDev δ) : CacheM δ Unit := do
  let _ ← listGet dv.poePortList id
  let names ← listGet dv.poePortList id
  forM names (poePortInit dv)
  valueGet dv.poePowerMgmt fun m c => { c with poePowerMgmt := m }
  valueGet dv.poeUsageThreshold fun t c => { c with poeUsageThreshold := t }

/-- One port of `plat_state_portsl2_init`. There is room for one address; a port with more of them
    is an error. -/
def portl2Init (dv : PortDev δ) (name : String) : CacheM δ Unit := do
  match ← Prog.query fun e =>
    ((dv.portErif name e.dev).1, { e with dev := (dv.portErif name e.dev).2 }) with
  | none => Prog.fail (-1)
  | some [] => return ()
  | some [pref] => do
    let pid ← toPid name
    Prog.record pid fun e => { e with cache := { e.cache with
      portsl2Rif := Function.update e.cache.portsl2Rif pid
        { subnet := pref.ip, subnetLen := pref.prefixLen, exist := true } } }
  | some (_ :: _ :: _) => Prog.fail (-1)

/-- `plat_state_portsl2_init`. -/
def platStatePortsl2Init (dv : PortDev δ) : CacheM δ Unit := do
  let _ ← listGet dv.portList id
  let names ← listGet dv.portList id
  forM names (portl2Init dv)

/-! ### Which indices are used -/

/-- Each time it is asked, the switch lists these ports, or the get fails. -/
def PortDev.Lists (dv : PortDev δ) (names poeNames : List String) : Prop :=
  (∀ d, (dv.portList d).1 = none ∨ (dv.portList d).1 = some names) ∧
  (∀ d, (dv.poePortList d).1 = none ∨ (dv.poePortList d).1 = some poeNames)

/-- The name gives a number that the arrays have an element for. -/
def PortFits (name : String) : Prop := ∃ pid, nameToPid name = some pid ∧ pid < maxNumOfPorts

/-- Every index that is used is one that the arrays have. -/
abbrev CacheQuiet {α : Type} (x : CacheM δ α) : Prop := Quiet (· < maxNumOfPorts) x

theorem quiet_listGet_bind {q : δ → Option (List String) × δ} {names : List String} {α : Type}
    {undo : PortEnv δ → PortEnv δ} {f : List String → CacheM δ α}
    (hq : ∀ d, (q d).1 = none ∨ (q d).1 = some names) (hf : CacheQuiet (f names)) :
    CacheQuiet (listGet q undo >>= f) := by
  intro s
  rcases hq s.state.dev with h | h
  · have hrun : listGet q undo s =
        (.error (-1), ⟨undo { s.state with dev := (q s.state.dev).2 }, s.log⟩) := by
      simp [listGet, Prog.bind_run, Prog.query, h]
    rw [Prog.bind_run_error hrun]
    exact ⟨[], by simp, by simp⟩
  · have hrun : listGet q undo s =
        (.ok names, ⟨{ s.state with dev := (q s.state.dev).2 }, s.log⟩) := by
      simp [listGet, Prog.bind_run, Prog.query, h]
    rw [Prog.bind_run_ok hrun]
    exact hf _

theorem quiet_toPid_bind {name : String} {α : Type} {f : ℕ → CacheM δ α} (h : PortFits name)
    (hf : ∀ pid < maxNumOfPorts, CacheQuiet (f pid)) : CacheQuiet (toPid name >>= f) := by
  intro s
  obtain ⟨pid, hpid, hlt⟩ := h
  have hrun : toPid name s = (.ok pid, ⟨{ s.state with pid := pid }, s.log⟩) := by
    simp [toPid, Prog.query, hpid]
  rw [Prog.bind_run_ok hrun]
  exact hf pid hlt _

theorem quiet_valueGet {α : Type} (q : δ → Got α × δ) (set : α → PlatState → PlatState) :
    CacheQuiet (valueGet q set) := by
  refine quiet_bind (quiet_query _) fun got => ?_
  cases got with
  | fails => exact quiet_fail _
  | missing => exact quiet_pure _
  | value a => exact quiet_modifyState _

theorem quiet_platStatePortIeee8021xInit (dv : PortDev δ) (pid : ℕ) (name : String) :
    CacheQuiet (platStatePortIeee8021xInit dv pid name) := by
  refine quiet_bind (quiet_valueGet _ _) fun _ => ?_
  refine quiet_bind (quiet_valueGet _ _) fun _ => ?_
  refine quiet_bind (quiet_valueGet _ _) fun _ => ?_
  exact quiet_bind (quiet_valueGet _ _) fun _ => quiet_valueGet _ _

theorem quiet_portInit (dv : PortDev δ) {name : String} (h : PortFits name) :
    CacheQuiet (portInit dv name) := by
  refine quiet_toPid_bind h fun pid hlt => ?_
  refine quiet_bind (quiet_record _ hlt) fun _ => quiet_bind (quiet_record _ hlt) fun _ => ?_
  exact quiet_orElse (quiet_platStatePortIeee8021xInit dv pid name) (quiet_modifyState _)

theorem quiet_poePortInit (dv : PortDev δ) {name : String} (h : PortFits name) :
    CacheQuiet (poePortInit dv name) := by
  refine quiet_toPid_bind h fun pid hlt => ?_
  refine quiet_bind (quiet_record _ hlt) fun _ => quiet_bind (quiet_record _ hlt) fun _ => ?_
  refine quiet_bind (quiet_valueGet _ _) fun _ => quiet_bind (quiet_valueGet _ _) fun _ => ?_
  exact quiet_bind (quiet_valueGet _ _) fun _ => quiet_valueGet _ _

theorem quiet_portl2Init (dv : PortDev δ) {name : String} (h : PortFits name) :
    CacheQuiet (portl2Init dv name) := by
  refine quiet_bind (quiet_query _) fun addrs => ?_
  rcases addrs with _ | _ | ⟨pref, _ | ⟨_, _⟩⟩
  · exact quiet_fail _
  · exact quiet_pure _
  · exact quiet_toPid_bind h fun pid hlt => quiet_record _ hlt
  · exact quiet_fail _

variable {dv : PortDev δ} {names poeNames : List String}

/-- If all listed ports fit, so do all indices of the caches. -/
theorem quiet_platStatePortsInit (hdv : dv.Lists names poeNames) (h : ∀ name ∈ names, PortFits name) :
    CacheQuiet (platStatePortsInit dv) :=
  quiet_listGet_bind hdv.1 (quiet_listGet_bind hdv.1
    (quiet_forM names fun name hname => quiet_portInit dv (h name hname)))

theorem quiet_platStatePortsl2Init (hdv : dv.Lists names poeNames)
    (h : ∀ name ∈ names, PortFits name) : CacheQuiet (platStatePortsl2Init dv) :=
  quiet_listGet_bind hdv.1 (quiet_listGet_bind hdv.1
    (quiet_forM names fun name hname => quiet_portl2Init dv (h name hname)))

theorem quiet_platStatePoeInit (hdv : dv.Lists names poeNames)
    (h : ∀ name ∈ poeNames, PortFits name) : CacheQuiet (platStatePoeInit dv) := by
  refine quiet_listGet_bind hdv.2 (quiet_listGet_bind hdv.2 ?_)
  refine quiet_bind (quiet_forM poeNames fun name hname => quiet_poePortInit dv (h name hname)) ?_
  exact fun _ => quiet_bind (quiet_valueGet _ _) fun _ => quiet_valueGet _ _

end Init

/-! ### A switch that only lists its ports -/

/-- It answers the lists, and to every other get without a value. -/
def listingSwitch (names poeNames : List String) : PortDev Unit where
  portList d := (some names, d)
  poePortList d := (some poeNames, d)
  portErif _ d := (some [], d)
  dot1xPae _ d := (.missing, d)
  dot1xCtrl _ d := (.missing, d)
  dot1xHost _ d := (.missing, d)
  dot1xGuestVlan _ d := (.missing, d)
  dot1xAuthFailVlan _ d := (.missing, d)
  poeAdmin _ d := (.missing, d)
  poeDetection _ d := (.missing, d)
  poePowerLimit _ d := (.missing, d)
  poePriority _ d := (.missing, d)
  poePowerMgmt d := (.missing, d)
  poeUsageThreshold d := (.missing, d)

theorem lists_listingSwitch (names poeNames : List String) :
    (listingSwitch names poeNames).Lists names poeNames :=
  ⟨fun _ => Or.inr rfl, fun _ => Or.inr rfl⟩

/-- There the loop over the PoE ports comes to all of them. -/
theorem poePortInit_log (names poeNames : List String) : ∀ (xs : List String)
    (s : Traced (PortEnv Unit) ℕ), ∃ t,
      forM xs (poePortInit (listingSwitch names poeNames)) s = (.ok (), t) ∧
        (∀ i ∈ s.log, i ∈ t.log) ∧ ∀ x ∈ xs, ∀ pid, nameToPid x = some pid → pid ∈ t.log
  | [], s => ⟨s, rfl, fun _ h => h, by simp⟩
  | x :: xs, s => by
      -- one turn records the number of the port twice
      obtain ⟨u, hrun, hlog⟩ : ∃ u, poePortInit (listingSwitch names poeNames) x s = (.ok (), u) ∧
          u.log = s.log ++ [(nameToPid x).getD s.state.pid, (nameToPid x).getD s.state.pid] := by
        refine ⟨_, rfl, ?_⟩
        simp
      obtain ⟨t, ht, hkept, hall⟩ := poePortInit_log names poeNames xs u
      refine ⟨t, ?_, fun i hi => hkept i (by simp [hlog, hi]), ?_⟩
      · rw [List.forM_cons, Prog.bind_run_ok hrun, ht]
      · intro y hy pid hpid
        rcases List.mem_cons.mp hy with rfl | hy
        · exact hkept pid (by simp [hlog, hpid])
        · exact hall y hy pid hpid

/-- If the indices of the PoE cache fit, the ports do. -/
theorem poe_lt_of_quiet {names poeNames : List String}
    (h : CacheQuiet (platStatePoeInit (listingSwitch names poeNames))) {name : String}
    (hname : name ∈ poeNames) {pid : ℕ} (hpid : nameToPid name = some pid) : pid < maxNumOfPorts := by
  let s : Traced (PortEnv Unit) ℕ := ⟨⟨{}, fun _ => "", Bitmap.clear, 0, ()⟩, []⟩
  obtain ⟨t, ht, -, hall⟩ := poePortInit_log names poeNames poeNames s
  have hrun : (platStatePoeInit (listingSwitch names poeNames) s).2.log = t.log := by
    have hloop : platStatePoeInit (listingSwitch names poeNames) s =
        (forM poeNames (poePortInit (listingSwitch names poeNames)) >>= fun _ => do
          valueGet (listingSwitch names poeNames).poePowerMgmt fun m c => { c with poePowerMgmt := m }
          valueGet (listingSwitch names poeNames).poeUsageThreshold fun t c =>
            { c with poeUsageThreshold := t }) s := rfl
    rw [hloop, Prog.bind_run_ok ht]
    rfl
  obtain ⟨l, hl, hlt⟩ := h s
  rw [hrun, List.nil_append] at hl
  exact hlt pid (hl ▸ hall name hname pid hpid)

end Ucentral.Plat
