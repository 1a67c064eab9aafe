import Ucentral.Plat.Cfg
import Ucentral.Lib.Json

/-! The session with the gateway: `configure`, `connect` and the periodic reports.

    The client keeps two uuids. `uuid_latest` is set as soon as a configure request names its
    parameters, `uuid_active` only when its configuration has been applied; a connect loads
    `uuid_active` from the id file that the last save has left behind. The state and telemetry
    reports carry the first, the health report carries the second.

    What the parser, the platform and the file system answer is part of an event, so a run can take
    any of the outcomes they allow. -/

namespace Ucentral.Proto
open CJson Plat Decimal

/-! ### The id file -/

/-- What becomes of writing the id: the file cannot be opened, or it is truncated and the first `n`
    characters reach it. -/
inductive IdWrite
  | noOpen
  | wrote (n : ℕ)
  deriving DecidableEq

/-- The text `%lu` prints for an id. -/
def idText (id : ℤ) : List Char := print (id % 2 ^ 64).toNat

/-- `__plat_config_id_store`. -/
def platConfigIdStore (id : ℤ) (w : IdWrite) (file : Option (List Char)) : Option (List Char) :=
  match w with
  | .noOpen => file
  | .wrote n => some ((idText id).take n)

/-- A `uint64_t` as a `time_t`. -/
def timeOfU64 (n : ℕ) : ℤ := if n < 2 ^ 63 then n else n - 2 ^ 64

/-- `__plat_config_id_load`. -/
def platConfigIdLoad (file : Option (List Char)) : Option ℕ :=
  match file with
  | none => none
  | some text => scanLu text

/-- The uuid a connect takes from the id file; 1 if there is none. -/
def savedUuid (file : Option (List Char)) : ℤ :=
  match platConfigIdLoad file with
  | none => 1
  | some n => timeOfU64 n

/-! ### The client -/

/-- The globals of the session. -/
structure Client where
  uuidActive : ℤ := 0
  uuidLatest : ℤ := 0
  stateCompress : Bool := false
  metrics : MetricsCfg := {}
  cfgidFile : Option (List Char) := none

/-- What is sent to the gateway. -/
inductive Msg
  | connect (uuid : ℤ)
  | configureReply (error : ℕ) (text : String) (uuid : ℤ) (id : Double)
  | deviceupdate (pass : String)
  | state (uuid : ℤ)
  | telemetry (uuid : ℤ)
  | healthcheck (uuid : ℤ)

/-- How the steps of one configure request end. -/
structure Outcomes where
  /-- What `cfg_parse` returns. -/
  parsed : Option PlatCfg
  /-- Did `plat_config_apply` return 0? -/
  applied : Bool
  /-- `gnma_config_save` and the write of the id after it. -/
  saved : Bool
  idWrite : IdWrite
  /-- `gnma_config_restore`, after an apply that failed. -/
  restored : Bool
  /-- The log of the platform, `plat_log_pop_concatenate`. -/
  log : Option String

def configureStatusRejected : ℕ := 2

def configureStatusApplied : ℕ := 0

/-- `plat_config_save`: without a save on the device the id is not stored either. -/
def platConfigSave (id : ℤ) (out : Outcomes) (file : Option (List Char)) : Option (List Char) :=
  if out.saved then platConfigIdStore id out.idWrite file else file

/-- The request names a uuid, a serial and a configuration. -/
def complete (params : Ptr) : Bool :=
  (getItem params "uuid").isSome && (getItem params "serial").isSome &&
    (getItem params "config").isSome

/-- `uuid_latest` of a complete request. -/
def requestUuid (params : Ptr) : ℤ := (getNumberValue (getItem params "uuid")).toTime

/-- The `compress` parameter, if it is a boolean. -/
def compressOf (params : Ptr) (old : Bool) : Bool :=
  if isBool (getItem params "compress") then isTrue (getItem params "compress") else old

/-- `configure_handle`. -/
def configureHandle (params id : Ptr) (out : Outcomes) (c : Client) : Client × List Msg :=
  let id := if id.isSome then getNumberValue id else .fin 0
  if !complete params then
    (c, [.configureReply configureStatusRejected "invalid parameters" 0 id])
  else
    let c := { c with
      stateCompress := compressOf params c.stateCompress
      uuidLatest := requestUuid params }
    match out.parsed with
    | none => (c, [.configureReply configureStatusRejected "Configure parse failed" 0 id])
    | some cfg =>
      let reply (status : ℕ) : Msg := .configureReply status (out.log.getD "") c.uuidLatest id
      if !out.applied then (c, [reply configureStatusRejected])
      else
        ({ c with
            uuidActive := c.uuidLatest
            cfgidFile := platConfigSave c.uuidLatest out c.cfgidFile
            metrics := cfg.metrics },
          (if cfg.unit.passwordChanged then [.deviceupdate cfg.unit.password] else []) ++
            [reply configureStatusApplied])

/-- `connect_send`. The message is not sent if a version file is missing; `restored` are the metrics
    `plat_metrics_restore` finds. -/
def connectSend (versions : Bool) (restored : Option MetricsCfg) (c : Client) :
    Client × List Msg :=
  let c := { c with uuidActive := savedUuid c.cfgidFile }
  if versions then ({ c with metrics := restored.getD c.metrics }, [.connect c.uuidActive])
  else (c, [])

/-- `state_send`, `telemetry_send`, `health_send`: the uuid each report carries. -/
def stateSend (c : Client) : Msg := .state c.uuidLatest

def telemetrySend (c : Client) : Msg := .telemetry c.uuidLatest

def healthSend (c : Client) : Msg := .healthcheck c.uuidActive

/-! ### Runs -/

/-- What can happen next. -/
inductive Event
  | connect (versions : Bool) (restored : Option MetricsCfg)
  | configure (params id : Ptr) (out : Outcomes)
  | state
  | telemetry
  | health

def step (c : Client) : Event → Client × List Msg
  | .connect versions restored => connectSend versions restored c
  | .configure params id out => configureHandle params id out c
  | .state => (c, [stateSend c])
  | .telemetry => (c, [telemetrySend c])
  | .health => (c, [healthSend c])

/-- The client after a run. -/
def run (c : Client) (es : List Event) : Client := es.foldl (fun c e => (step c e).1) c

/-- A client that has just started, with the id file of an earlier one. -/
def booted (file : Option (List Char)) : Client := { cfgidFile := file }

/-- A configure request that reaches the device and is applied. -/
def applies (params : Ptr) (out : Outcomes) : Bool :=
  complete params && out.parsed.isSome && out.applied

/-- A configure request whose apply fails and is undone by a restore. -/
def restores (params : Ptr) (out : Outcomes) : Bool :=
  complete params && out.parsed.isSome && !out.applied && out.restored

/-- The id of an applied request reached the id file as a whole. -/
def stores (params : Ptr) (out : Outcomes) : Bool :=
  out.saved && match out.idWrite with
    | .noOpen => false
    | .wrote n => decide ((idText (requestUuid params)).length ≤ n)

/-! ### What a step does to the uuids -/

/-- A configure request, by its outcome. -/
theorem configure_cases (c : Client) (params id : Ptr) (out : Outcomes) :
    let c' := (step c (.configure params id out)).1
    (applies params out = true ∧ c'.uuidLatest = requestUuid params ∧
      c'.uuidActive = requestUuid params ∧
      c'.cfgidFile = platConfigSave (requestUuid params) out c.cfgidFile) ∨
    (applies params out = false ∧ complete params = true ∧
      c'.uuidLatest = requestUuid params ∧ c'.uuidActive = c.uuidActive ∧
      c'.cfgidFile = c.cfgidFile) ∨
    (applies params out = false ∧ complete params = false ∧ c' = c) := by
  intro c'
  rcases hc : complete params with _ | _
  · refine Or.inr (Or.inr ⟨by simp [applies, hc], rfl, ?_⟩)
    simp [c', step, configureHandle, hc]
  · rcases hp : out.parsed with _ | cfg
    · refine Or.inr (Or.inl ⟨by simp [applies, hp], rfl, ?_⟩)
      simp [c', step, configureHandle, hc, hp]
    · rcases ha : out.applied with _ | _
      · refine Or.inr (Or.inl ⟨by simp [applies, ha], rfl, ?_⟩)
        simp [c', step, configureHandle, hc, hp, ha]
      · refine Or.inl ⟨by simp [applies, hc, hp, ha], ?_⟩
        simp [c', step, configureHandle, hc, hp, ha]

theorem connect_uuids (c : Client) (versions : Bool) (restored : Option MetricsCfg) :
    let c' := (step c (.connect versions restored)).1
    c'.uuidActive = savedUuid c.cfgidFile ∧ c'.uuidLatest = c.uuidLatest ∧
      c'.cfgidFile = c.cfgidFile := by
  cases versions <;> simp [step, connectSend]

theorem timeOfU64_emod {z : ℤ} (h : -2 ^ 63 ≤ z ∧ z < 2 ^ 63) :
    timeOfU64 (z % 2 ^ 64).toNat = z := by
  unfold timeOfU64
  split <;> omega

/-- Loading a stored id gives the id. -/
theorem savedUuid_idText {z : ℤ} (h : -2 ^ 63 ≤ z ∧ z < 2 ^ 63) :
    savedUuid (some (idText z)) = z := by
  have hscan : scanLu (idText z) = some (z % 2 ^ 64).toNat := scanLu_print (by omega)
  simp only [savedUuid, platConfigIdLoad, hscan]
  exact timeOfU64_emod h

/-- After a save that stored the id, the file names the request. -/
theorem savedUuid_stores {params : Ptr} {out : Outcomes} (h : stores params out = true)
    (file : Option (List Char)) :
    savedUuid (platConfigSave (requestUuid params) out file) = requestUuid params := by
  unfold stores at h
  rcases hw : out.idWrite with _ | n
  · simp [hw] at h
  · simp only [hw, Bool.and_eq_true, decide_eq_true_eq] at h
    simp only [platConfigSave, if_pos h.1, platConfigIdStore, hw, List.take_of_length_le h.2]
    exact savedUuid_idText (Double.toTime_range _)

end Ucentral.Proto
