import Ucentral.Proto.Session
import Ucentral.Lib.Run

/-! Which configuration the uuids name.

    A device runs one configuration and holds another one to start up with. Next to the client this
    is a ghost: nothing in the client records it. `uuid_active` follows it as long as an apply is
    followed by a save and by a complete write of the id file. Where one of these fails, the next
    connect announces the id that the file still holds, and the next restore brings back a
    configuration whose uuid has been forgotten.

    `uuid_latest` names the last request, applied or not, and nothing at all before the first one. -/

namespace Ucentral.Proto
open CJson Plat Run

/-! ### The configuration that runs -/

/-- The uuids of the running and of the start-up configuration of the device. -/
structure Device where
  running : ℤ
  startup : ℤ
  deriving DecidableEq

def Device.after (d : Device) : Event → Device
  | .configure params _ out =>
    { running :=
        if applies params out then requestUuid params
        else if restores params out then d.startup else d.running
      startup := if applies params out && out.saved then requestUuid params else d.startup }
  | _ => d

/-- A client and its device. -/
structure Sys where
  client : Client
  device : Device

def Sys.after (s : Sys) (e : Event) : Sys := ⟨(step s.client e).1, s.device.after e⟩

/-- At boot the device runs its start-up configuration, and the id file names that one. -/
def bootedSys (file : Option (List Char)) : Sys :=
  ⟨booted file, ⟨savedUuid file, savedUuid file⟩⟩

/-- `uuid_active` names the running configuration, and so does a connect message just sent. -/
def Sys.Synced (s : Sys) (e : Event) : Prop :=
  (s.after e).client.uuidActive = (s.after e).device.running ∧
  ∀ u, Msg.connect u ∈ (step s.client e).2 → u = (s.after e).device.running

/-! ### Runs whose applied configurations are saved -/

/-- What is left of the last applied configuration: is it the one the device starts up with, and
    does the id file name it? -/
structure Trail where
  kept : Bool
  stored : Bool
  deriving DecidableEq

def Trail.after (t : Trail) : Event → Trail
  | .configure params _ out =>
    if applies params out then ⟨out.saved, stores params out⟩ else t
  | _ => t

/-- A connect needs the id file, a successful restore the start-up configuration. -/
def Trail.Allows (t : Trail) : Event → Prop
  | .connect _ _ => t.stored = true
  | .configure params _ out => restores params out = true → t.kept = true
  | _ => True

/-- What the trail says about the two. -/
structure Follows (t : Trail) (s : Sys) : Prop where
  kept : t.kept = true → s.device.startup = s.device.running
  stored : t.stored = true → savedUuid s.client.cfgidFile = s.device.running

theorem not_restores_of_incomplete {params : Ptr} {out : Outcomes} (h : complete params = false) :
    restores params out = false := by
  simp [restores, h]

/-- The step: an allowed event keeps what the trail says. -/
theorem follows_step {t : Trail} {s : Sys} {e : Event} (h : Follows t s) (ha : t.Allows e) :
    Follows (t.after e) (s.after e) := by
  cases e with
  | connect versions restored =>
    obtain ⟨_, _, hfile⟩ := connect_uuids s.client versions restored
    refine ⟨h.kept, fun hs => ?_⟩
    rw [Sys.after, hfile]
    exact h.stored hs
  | state => exact h
  | telemetry => exact h
  | health => exact h
  | configure params id out =>
    rcases configure_cases s.client params id out with
      ⟨happ, _, _, hfile⟩ | ⟨happ, _, _, _, hfile⟩ | ⟨happ, hinc, hsame⟩
    · -- applied: the new configuration runs
      constructor
      · intro hk
        simp only [Trail.after, happ, if_true] at hk
        simp [Sys.after, Device.after, happ, hk]
      · intro hs
        simp only [Trail.after, happ, if_true] at hs
        simp only [Sys.after, Device.after, happ, if_true, hfile]
        exact savedUuid_stores hs _
    · -- not applied: perhaps restored, which needs the start-up configuration to be the running one
      have htrail : t.after (.configure params id out) = t := by simp [Trail.after, happ]
      have hrun : (s.after (.configure params id out)).device.running = s.device.running := by
        simp only [Sys.after, Device.after, happ, Bool.false_eq_true, if_false]
        split
        · next hr => exact h.kept (ha hr)
        · rfl
      have hstart : (s.after (.configure params id out)).device.startup = s.device.startup := by
        simp [Sys.after, Device.after, happ]
      rw [htrail]
      refine ⟨fun hk => ?_, fun hs => ?_⟩
      · rw [hrun, hstart]; exact h.kept hk
      · rw [hrun, Sys.after, hfile]; exact h.stored hs
    · have htrail : t.after (.configure params id out) = t := by simp [Trail.after, happ]
      have hsys : s.after (.configure params id out) = s := by
        simp [Sys.after, Device.after, happ, not_restores_of_incomplete hinc, hsame]
      rw [htrail, hsys]
      exact h

/-- The step: an allowed event keeps the uuids together, and a connect brings them together. -/
theorem synced_step {t : Trail} {s : Sys} {e : Event} (h : Follows t s) (ha : t.Allows e)
    (hs : s.client.uuidActive = s.device.running ∨ ∃ v r, e = .connect v r) : s.Synced e := by
  cases e with
  | connect versions restored =>
    have hactive := (connect_uuids s.client versions restored).1
    have hfile := h.stored ha
    refine ⟨hactive.trans hfile, fun u hu => ?_⟩
    cases versions with
    | false => simp [step, connectSend] at hu
    | true =>
      simp only [step, connectSend, if_true, List.mem_singleton, Msg.connect.injEq] at hu
      exact hu.trans hfile
  | state => exact ⟨hs.resolve_right (by simp), by simp [step, stateSend]⟩
  | telemetry => exact ⟨hs.resolve_right (by simp), by simp [step, telemetrySend]⟩
  | health => exact ⟨hs.resolve_right (by simp), by simp [step, healthSend]⟩
  | configure params id out =>
    have hs' := hs.resolve_right (by simp)
    refine ⟨?_, fun u hu => ?_⟩
    · rcases configure_cases s.client params id out with
        ⟨happ, _, hactive, _⟩ | ⟨happ, _, _, hactive, _⟩ | ⟨happ, hinc, hsame⟩
      · simp [Sys.after, Device.after, happ, hactive]
      · simp only [Sys.after, Device.after, happ, Bool.false_eq_true, if_false, hactive, hs']
        split
        · next hr => exact (h.kept (ha hr)).symm
        · rfl
      · simp [Sys.after, Device.after, happ, not_restores_of_incomplete hinc, hsame, hs']
    · -- a configure sends no connect message
      exfalso
      revert hu
      simp only [step, configureHandle]
      rcases complete params with _ | _ <;> rcases out.parsed with _ | cfg <;>
        rcases out.applied with _ | _ <;> simp

/-- In every run after the first connect in which a connect comes only while the id file names the
    last applied configuration, and a successful restore only while that one is saved,
    `uuid_active` is the uuid of the running configuration after each step, and no connect message
    announces another one. -/
theorem uuid_active_is_running (file : Option (List Char)) (versions : Bool)
    (restored : Option MetricsCfg) (es : List Event)
    (hc : EveryStep Trail.after Trail.Allows ⟨true, true⟩ es) :
    EveryStep Sys.after Sys.Synced (bootedSys file) (.connect versions restored :: es) := by
  have h : Follows ⟨true, true⟩ (bootedSys file) := ⟨fun _ => rfl, fun _ => rfl⟩
  have hconn : (bootedSys file).Synced (.connect versions restored) :=
    synced_step h rfl (Or.inr ⟨versions, restored, rfl⟩)
  rw [everyStep_cons]
  refine ⟨hconn, everyStep_of_simulation
    (R := fun t s => Follows t s ∧ s.client.uuidActive = s.device.running) ?_ es _ _
    ⟨follows_step (e := .connect versions restored) h rfl, hconn.1⟩ hc⟩
  rintro t s e ⟨hf, hs⟩ ha
  have hsync := synced_step hf ha (Or.inl hs)
  exact ⟨⟨follows_step hf ha, hsync.1⟩, hsync⟩

/-- A complete request with the given uuid, as the gateway sends it. -/
def request (uuid : ℚ) : Ptr :=
  some (.obj [("serial", .str "001122334455"), ("uuid", .num (.fin uuid)), ("config", .obj [])])

/-- A request that is applied, and whether it is saved as well. -/
def appliedRequest (uuid : ℚ) (saved : Bool) : Event :=
  .configure (request uuid) none
    { parsed := some {}, applied := true, saved := saved, idWrite := .wrote 20, restored := true
      log := none }

/-- A request whose apply fails; the restore succeeds. -/
def failedRequest (uuid : ℚ) : Event :=
  .configure (request uuid) none
    { parsed := some {}, applied := false, saved := true, idWrite := .wrote 20, restored := true
      log := none }

theorem uuid_active_is_running_saved_runs :
    EveryStep Sys.after Sys.Synced (bootedSys (some ['5']))
      [.connect true none, appliedRequest 7 true, .connect true none, failedRequest 8] := by
  refine uuid_active_is_running (some ['5']) true none _ ?_
  simp only [everyStep_cons]
  exact ⟨fun h => absurd h (by decide), rfl, fun _ => rfl, everyStep_nil _⟩

/-- The device refuses to save the applied configuration 7: the next connect announces 5. -/
theorem unsaved_configuration_not_announced :
    ¬ EveryStep Sys.after Sys.Synced (bootedSys (some ['5']))
      [.connect true none, appliedRequest 7 false, .connect true none] := by
  intro h
  have hlast := (h [.connect true none, appliedRequest 7 false] (.connect true none) (by simp)).1
  revert hlast
  decide

/-! ### The uuid of the reports -/

/-- A client, and the uuids that were applied or announced so far. -/
structure History where
  client : Client
  inForce : List ℤ

def History.after (s : History) (e : Event) : History :=
  { client := (step s.client e).1
    inForce := match e with
      | .connect versions _ => if versions then savedUuid s.client.cfgidFile :: s.inForce else s.inForce
      | .configure params _ out =>
        if applies params out then requestUuid params :: s.inForce else s.inForce
      | _ => s.inForce }

/-- A state or telemetry message carries a uuid that was applied or announced, the same as a health
    message would. -/
def History.Truthful (s : History) (e : Event) : Prop :=
  ∀ u, Msg.state u ∈ (step s.client e).2 ∨ Msg.telemetry u ∈ (step s.client e).2 →
    u ∈ s.inForce ∧ healthSend s.client = .healthcheck u

/-- How the last complete request stands: is it the configuration in force, and does the id file name
    it? -/
structure Standing where
  applied : Bool
  stored : Bool
  deriving DecidableEq

def Standing.after (t : Standing) : Event → Standing
  | .connect _ _ => ⟨t.applied && t.stored, t.stored⟩
  | .configure params _ out =>
    if applies params out then ⟨true, stores params out⟩
    else if complete params then ⟨false, t.stored⟩ else t
  | _ => t

/-- A state or telemetry report needs the last complete request to be the one in force. -/
def Standing.Allows (t : Standing) : Event → Prop
  | .state => t.applied = true
  | .telemetry => t.applied = true
  | _ => True

/-- What the standing says about the client. -/
structure Agrees (t : Standing) (s : History) : Prop where
  active : t.applied = true → s.client.uuidLatest = s.client.uuidActive
  applied : t.applied = true → s.client.uuidLatest ∈ s.inForce
  stored : t.applied = true → t.stored = true →
    savedUuid s.client.cfgidFile = s.client.uuidActive

theorem agrees_step {t : Standing} {s : History} (h : Agrees t s) (e : Event) :
    Agrees (t.after e) (s.after e) := by
  cases e with
  | state => exact h
  | telemetry => exact h
  | health => exact h
  | connect versions restored =>
    obtain ⟨hactive, hlatest, hfile⟩ := connect_uuids s.client versions restored
    have hmem : ∀ u, u ∈ s.inForce → u ∈ (s.after (.connect versions restored)).inForce := by
      intro u hu
      cases versions <;> simp [History.after, hu]
    have hboth : (t.after (.connect versions restored)).applied = true →
        t.applied = true ∧ t.stored = true := by
      intro ht
      simpa [Standing.after] using ht
    refine ⟨fun ht => ?_, fun ht => ?_, fun ht _ => ?_⟩
    · obtain ⟨ha, hs⟩ := hboth ht
      rw [History.after, hlatest, hactive, h.stored ha hs]
      exact h.active ha
    · have hold := hmem _ (h.applied (hboth ht).1)
      rw [History.after] at hold ⊢
      rw [hlatest]
      exact hold
    · rw [History.after, hfile, hactive]
  | configure params id out =>
    rcases configure_cases s.client params id out with
      ⟨happ, hlatest, hactive, hfile⟩ | ⟨happ, hcomp, _⟩ | ⟨happ, hinc, hsame⟩
    · have ht : t.after (.configure params id out) = ⟨true, stores params out⟩ := by
        simp [Standing.after, happ]
      rw [ht]
      refine ⟨fun _ => ?_, fun _ => ?_, fun _ hs => ?_⟩
      · rw [History.after, hlatest, hactive]
      · simp [History.after, happ, hlatest]
      · rw [History.after, hfile, hactive]
        exact savedUuid_stores hs _
    · have ht : t.after (.configure params id out) = ⟨false, t.stored⟩ := by
        simp [Standing.after, happ, hcomp]
      rw [ht]
      exact ⟨by simp, by simp, by simp⟩
    · have ht : t.after (.configure params id out) = t := by simp [Standing.after, happ, hinc]
      have hs : s.after (.configure params id out) = s := by simp [History.after, happ, hsame]
      rw [ht, hs]
      exact h

/-- Only the two reports send such messages. -/
theorem truthful_step {t : Standing} {s : History} {e : Event} (h : Agrees t s)
    (ha : t.Allows e) : s.Truthful e := by
  intro u hu
  cases e with
  | state =>
    have hu' : u = s.client.uuidLatest := by simpa [step, stateSend] using hu
    rw [hu', healthSend, ← h.active ha]
    exact ⟨h.applied ha, rfl⟩
  | telemetry =>
    have hu' : u = s.client.uuidLatest := by simpa [step, telemetrySend] using hu
    rw [hu', healthSend, ← h.active ha]
    exact ⟨h.applied ha, rfl⟩
  | health => simp [step, healthSend] at hu
  | connect versions restored => cases versions <;> simp [step, connectSend] at hu
  | configure params id out =>
    exfalso
    revert hu
    simp only [step, configureHandle]
    rcases complete params with _ | _ <;> rcases out.parsed with _ | cfg <;>
      rcases out.applied with _ | _ <;> simp

/-- In every run in which the state and telemetry reports come only while the last complete request
    is the one in force, each of them carries the uuid of an applied or announced configuration,
    the same that a health message carries at that point. -/
theorem reports_carry_applied_uuid (file : Option (List Char)) (es : List Event)
    (hc : EveryStep Standing.after Standing.Allows ⟨false, false⟩ es) :
    EveryStep History.after History.Truthful ⟨booted file, []⟩ es := by
  refine everyStep_of_simulation (R := Agrees) ?_ es _ _ ⟨by simp, by simp, by simp⟩ hc
  intro t s e h ha
  exact ⟨agrees_step h e, truthful_step h ha⟩

theorem reports_carry_applied_uuid_after_configure :
    EveryStep History.after History.Truthful ⟨booted none, []⟩
      [.connect true none, appliedRequest 7 true, .state, .connect true none, .telemetry] := by
  refine reports_carry_applied_uuid none _ ?_
  simp only [everyStep_cons]
  exact ⟨trivial, trivial, rfl, trivial, rfl, everyStep_nil _⟩

/-- Request 8 fails and is undone: the next state report still carries 8, the health report 7. -/
theorem failed_request_reported :
    ¬ EveryStep History.after History.Truthful ⟨booted none, []⟩
      [.connect true none, appliedRequest 7 true, failedRequest 8, .state] := by
  intro h
  have hlast := h [.connect true none, appliedRequest 7 true, failedRequest 8] .state (by simp) 8
    (Or.inl (List.mem_singleton_self _))
  have hmem := hlast.1
  revert hmem
  decide

end Ucentral.Proto
