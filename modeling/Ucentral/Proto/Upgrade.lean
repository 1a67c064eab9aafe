import Ucentral.Lib.Monitor
import Ucentral.Plat.ImgDl

/-! The reports of an upgrade.

    Once a second the state of the upgrade is read and an event is sent for it, until one of them is the
    last. The state is what the download thread writes into its task, a field at a time, and what the
    switch answers as soon as the image is being installed. -/

namespace Ucentral.Proto.Upgrade

open Plat.ImgDl (Status Outcome Dl Pc Start)

/-- The payload of `firmware_upgrade_status`. -/
structure Event where
  operation : String
  percentage : Option ℤ := none
  deriving DecidableEq, Repr

/-- `event_firmware_upgrade_send`. -/
def eventFirmwareUpgradeSend (operation : String) (percentage : ℤ) : Event where
  operation := operation
  percentage := if percentage ≥ 0 then some percentage else none

/-- What can be seen of an upgrade: what comes of the download, that there is no thread for the reports,
    what the switch answers, the events and the reboot. -/
inductive Entry
  | outcome (o : Outcome)
  | unreported
  | answer (operation : Status)
  | event (e : Event)
  | reboot
  deriving DecidableEq, Repr

/-- `upgrade_status_send`, with its `last_operation`: what it sends, whether the reports end, and the
    operation that it keeps. -/
def upgradeStatusSend (operation : Status) (percentage : ℤ) (last : Status) :
    List Entry × Bool × Status :=
  match operation with
  | .idle => ([.event (eventFirmwareUpgradeSend "idle" (-1))], false, operation)
  | .download => ([.event (eventFirmwareUpgradeSend "download" percentage)], false, operation)
  | .install => ([.event (eventFirmwareUpgradeSend "install" (-1))], false, operation)
  | .fail => ([.event (eventFirmwareUpgradeSend "fail" (-1))], true, operation)
  | .success =>
    ((if last = .download then [.event (eventFirmwareUpgradeSend "install" (-1))] else []) ++
      [.event (eventFirmwareUpgradeSend "success" (-1)), .reboot], true, last)

/-- `__plat_upgrade_state_gnmi`, of the members `global_state` and `percentage`. -/
def platUpgradeStateGnmi (stateName : String) (percentage : ℤ) : Status × ℤ :=
  if stateName = "GLOBAL_STATE_FAILED" then (.fail, 0)
  else if stateName = "GLOBAL_STATE_DOWNLOAD" then (.download, percentage)
  else if stateName = "GLOBAL_STATE_INSTALL" then (.install, 0)
  else if stateName = "GLOBAL_STATE_SUCCESS" then (.success, 0)
  else (.idle, 0)

/-- Where the thread of the reports is: there is none; it waits; in `plat_upgrade_state`, with `active`
    read, then with the percentage, or about to ask the switch; at the callback. -/
inductive Poller
  | off
  | waiting
  | percentage
  | operation (percentage : ℤ)
  | asking
  | reporting (operation : Status) (percentage : ℤ)
  deriving DecidableEq, Repr

structure World where
  dl : Dl := {}
  poller : Poller := .off
  /-- A download has been started, and `plat_upgrade_poll` is to be called for it. -/
  launching : Bool := false
  /-- `last_operation`. -/
  last : Status := .idle
  deriving DecidableEq, Repr

/-- A step of the thread of the reports: `answer` is what the switch says, if it does. -/
def pollStep (answer : Option (String × ℤ)) (w : World) : World × List Entry :=
  match w.poller with
  | .off => (w, [])
  | .waiting => ({ w with poller := if w.dl.task.active then .percentage else .asking }, [])
  | .percentage => ({ w with poller := .operation w.dl.task.percentage.toNat }, [])
  | .operation percentage =>
    ({ w with poller := .reporting w.dl.task.upgradeState percentage }, [])
  | .asking =>
    match answer with
    | none => ({ w with poller := .waiting }, [])
    | some (stateName, percentage) =>
      let (operation, percentage) := platUpgradeStateGnmi stateName percentage
      ({ w with poller := .reporting operation percentage }, [.answer operation])
  | .reporting operation percentage =>
    let (entries, stop, last) := upgradeStatusSend operation percentage w.last
    ({ w with poller := if stop then .off else .waiting, last := last }, entries)

inductive Act
  /-- The thread of the client, or one of the downloads, goes on. -/
  | dl (a : Plat.ImgDl.Act)
  /-- `plat_upgrade_poll`, which waits for the end of the reports before; `periodic_create` may fail. -/
  | launch (created : Bool)
  | poll (answer : Option (String × ℤ))
  deriving DecidableEq, Repr

/-- The thread of the reports can be joined. -/
def Poller.rests : Poller → Bool
  | off | waiting => true
  | _ => false

def step (w : World) : Act → World × List Entry
  | .dl a =>
    if w.launching = true ∧ a = .request then (w, [])
    else
      let (dl, outcome) := Plat.ImgDl.step w.dl a
      ({ w with dl := dl, launching := w.launching || outcome = some .started },
        (outcome.map .outcome).toList)
  | .launch created =>
    if w.launching && w.poller.rests then
      if created then ({ w with poller := .waiting, launching := false }, [])
      else ({ w with poller := .off, launching := false }, [.unreported])
    else (w, [])
  | .poll answer => pollStep answer w

/-! ### What the cloud is promised -/

/-- Where an upgrade is. -/
inductive Phase
  | off
  | running
  | handed
  | installed
  | answered (operation : Status)
  | failed
  /-- It goes on, and is not reported. -/
  | unreported
  /-- The event `success` is due. -/
  | closing
  | rebooting
  deriving DecidableEq, Repr

/-- An upgrade, with the operation that has been reported last. -/
structure Promise where
  phase : Phase := .off
  last : Status := .idle
  deriving DecidableEq, Repr

/-- An upgrade that has succeeded: `install` is sent before `success` if `download` was the last. -/
def Promise.succeeded (p : Promise) : List (String × Promise) :=
  if p.last = .download then [("install", { p with phase := .closing })]
  else [("success", { p with phase := .rebooting })]

/-- The events that may be sent, each with what is promised behind it. -/
def Promise.events (p : Promise) : List (String × Promise) :=
  match p.phase with
  | .off | .unreported | .rebooting => []
  | .running => [("download", { p with last := .download })]
  | .handed => ("download", { p with last := .download }) :: p.succeeded
  | .installed => [("download", { p with last := .download }), ("install", { p with last := .install })]
  | .answered .idle => [("idle", ⟨.installed, .idle⟩)]
  | .answered .download => [("download", ⟨.installed, .download⟩)]
  | .answered .install => [("install", ⟨.installed, .install⟩)]
  | .answered .fail => [("fail", ⟨.off, .fail⟩)]
  | .answered .success => p.succeeded
  | .failed => [("download", { p with last := .download }), ("fail", ⟨.off, .fail⟩)]
  | .closing => [("success", { p with phase := .rebooting })]

def Promise.step (p : Promise) : Entry → Option Promise
  | .outcome o =>
    match p.phase, o with
    | .off, .started => some { p with phase := .running }
    | .off, .refused => some p
    | .running, .handed => some { p with phase := .handed }
    | .running, .installed => some { p with phase := .installed }
    | .running, .failed => some { p with phase := .failed }
    | .unreported, .handed | .unreported, .installed | .unreported, .failed =>
      some { p with phase := .off }
    | _, _ => none
  | .unreported =>
    match p.phase with
    | .running => some { p with phase := .unreported }
    | .handed | .installed | .failed => some { p with phase := .off }
    | _ => none
  | .answer operation =>
    if p.phase = .installed then some { p with phase := .answered operation } else none
  | .event e => p.events.lookup e.operation
  | .reboot => if p.phase = .rebooting then some { p with phase := .off } else none

/-! ### The promise is kept -/

/-- The thread `i` is at `pc`, and the others are done. -/
structure Current (threads : List Pc) (i : ℕ) (pc : Pc) : Prop where
  at_ : threads[i]? = some pc
  others : ∀ j pc', j ≠ i → threads[j]? = some pc' → pc' = .done

/-- What the task is in the phase, `active` and the state, while its thread is at `pc`. -/
def Phase.task : Phase → Pc → Option (Bool × Status)
  | running, .starting | running, .performing _ | running, .closing _ | running, .cleaning _
  | running, .typing | running, .choosing | running, .handing | running, .installing
  | running, .failing => some (true, .download)
  | handed, .handed => some (true, .download)
  | handed, .done => some (true, .success)
  | installed, .installed => some (true, .download)
  | installed, .resetting | installed, .deactivating => some (true, .install)
  | installed, .done => some (false, .install)
  | failed, .failed | failed, .done => some (true, .fail)
  | _, _ => none

/-- The thread of a download has come to its outcome. -/
def told : Pc → Bool
  | .handed | .installed | .resetting | .deactivating | .failed | .done => true
  | _ => false

/-- How the state of the client stands to what is promised. -/
inductive Sim (w : World) : Promise → Prop
  | ended (hpoller : w.poller = .off) (hlaunch : w.launching = false)
      (hthreads : ∀ pc ∈ w.dl.threads, pc = .done ∨ (w.dl.start = .idle ∧ told pc = true))
      (htask : w.dl.start ≠ .idle → w.dl.start ≠ .cleared →
        w.dl.task.active = true ∧ w.dl.task.upgradeState = .download) : Sim w ⟨.off, w.last⟩
  | going {phase : Phase} {i : ℕ} {pc : Pc} (hidle : w.dl.start = .idle)
      (hthread : Current w.dl.threads i pc)
      (htask : phase.task pc = some (w.dl.task.active, w.dl.task.upgradeState))
      (hoff : w.poller = .off ↔ w.launching = true)
      (hasking : w.poller = .asking → w.dl.task.active = false)
      (hreport : ∀ operation percentage, w.poller = .reporting operation percentage →
        operation = .download ∨ operation = w.dl.task.upgradeState) : Sim w ⟨phase, w.last⟩
  | answered {i : ℕ} {operation : Status} {percentage : ℤ} (hidle : w.dl.start = .idle)
      (hthread : Current w.dl.threads i .done)
      (htask : w.dl.task.active = false ∧ w.dl.task.upgradeState = .install)
      (hlaunch : w.launching = false) (hpoller : w.poller = .reporting operation percentage) :
      Sim w ⟨.answered operation, w.last⟩
  | silent {i : ℕ} {pc : Pc} (hidle : w.dl.start = .idle) (hthread : Current w.dl.threads i pc)
      (htold : told pc = false) (hpoller : w.poller = .off) (hlaunch : w.launching = false) :
      Sim w ⟨.unreported, w.last⟩

/-- An upgrade is requested only when the threads of the one before are done, the one of its reports
    included. -/
def OneAtATime (w : World) (a : Act) : Prop :=
  a = .dl .request → w.launching = false → w.dl.start = .idle →
    (∀ pc ∈ w.dl.threads, pc = .done) ∧ w.poller = .off

instance (w : World) (a : Act) : Decidable (OneAtATime w a) :=
  inferInstanceAs (Decidable (_ = _ → _ = _ → _ = _ → _ ∧ _))

/-- Closing something leaves the task as it is. -/
theorem fclose_task (d : Dl) (o : Option ℕ) : (d.fclose o).task = d.task := by
  cases o <;> rfl

theorem cleanup_task (d : Dl) (o : Option ℕ) : (d.cleanup o).task = d.task := by
  cases o <;> rfl

/-- A step of the download thread can be followed from the phase: what comes of the download is
    expected, and the state of the task is left only if it is `download`. -/
theorem task_threadStep {phase : Phase} {pc : Pc} {d : Dl}
    (htask : phase.task pc = some (d.task.active, d.task.upgradeState)) (last : Status) (ok full : Bool) :
    ∃ phase', Monitor.reads Promise.step ⟨phase, last⟩
        ((Plat.ImgDl.threadStep ok full d pc).2.2.map Entry.outcome).toList = some ⟨phase', last⟩ ∧
      phase'.task (Plat.ImgDl.threadStep ok full d pc).1 =
        some ((Plat.ImgDl.threadStep ok full d pc).2.1.task.active,
          (Plat.ImgDl.threadStep ok full d pc).2.1.task.upgradeState) ∧
      (d.task.upgradeState = .download ∨
        (Plat.ImgDl.threadStep ok full d pc).2.1.task.upgradeState = d.task.upgradeState) ∧
      (d.task.active = false → (Plat.ImgDl.threadStep ok full d pc).2.1.task.active = false) := by
  cases phase with
  | running =>
    have hstate : d.task.active = true ∧ d.task.upgradeState = .download := by
      cases pc <;> simp_all [Phase.task]
    obtain ⟨hactive, hstate⟩ := hstate
    cases pc with
    | starting => exact ⟨.running, rfl, htask, Or.inr rfl, id⟩
    | performing curl => exact ⟨.running, rfl, htask, Or.inr rfl, id⟩
    | closing ok' =>
      simp only [Plat.ImgDl.threadStep, fclose_task]
      exact ⟨.running, rfl, htask, Or.inr trivial, id⟩
    | cleaning ok' =>
      simp only [Plat.ImgDl.threadStep, cleanup_task]
      refine ⟨.running, rfl, ?_, Or.inr trivial, id⟩
      cases ok' <;> exact htask
    | typing => cases ok <;> exact ⟨.running, rfl, htask, Or.inr rfl, id⟩
    | choosing =>
      simp only [Plat.ImgDl.threadStep]
      refine ⟨.running, rfl, ?_, Or.inr trivial, id⟩
      cases d.task.downloadedFullImg <;> exact htask
    | handing =>
      cases ok with
      | true => exact ⟨.handed, rfl, htask, Or.inr rfl, id⟩
      | false => exact ⟨.running, rfl, htask, Or.inr rfl, id⟩
    | installing =>
      cases ok with
      | true => exact ⟨.installed, rfl, htask, Or.inr rfl, id⟩
      | false => exact ⟨.running, rfl, htask, Or.inr rfl, id⟩
    | failing => exact ⟨.failed, rfl, congrArg (fun b => some (b, _)) hactive.symm, Or.inl hstate, id⟩
    | _ => cases htask
  | handed =>
    cases pc with
    | handed =>
      simp only [Phase.task, Option.some.injEq, Prod.mk.injEq] at htask
      obtain ⟨hactive, hstate⟩ := htask
      exact ⟨.handed, rfl, congrArg (fun b => some (b, _)) hactive, Or.inl hstate.symm, id⟩
    | done => exact ⟨.handed, rfl, htask, Or.inr rfl, id⟩
    | _ => cases htask
  | installed =>
    cases pc with
    | installed =>
      simp only [Phase.task, Option.some.injEq, Prod.mk.injEq] at htask
      obtain ⟨hactive, hstate⟩ := htask
      exact ⟨.installed, rfl, congrArg (fun b => some (b, _)) hactive, Or.inl hstate.symm, id⟩
    | resetting => exact ⟨.installed, rfl, htask, Or.inr rfl, id⟩
    | deactivating =>
      simp only [Phase.task, Option.some.injEq, Prod.mk.injEq] at htask
      obtain ⟨hactive, hstate⟩ := htask
      exact ⟨.installed, rfl, congrArg (fun u => some (false, u)) hstate, Or.inr rfl, fun _ => rfl⟩
    | done => exact ⟨.installed, rfl, htask, Or.inr rfl, id⟩
    | _ => cases htask
  | failed =>
    cases pc with
    | failed => exact ⟨.failed, rfl, htask, Or.inr rfl, id⟩
    | done => exact ⟨.failed, rfl, htask, Or.inr rfl, id⟩
    | _ => cases htask
  | _ => cases htask

/-- Behind its outcome a thread has no other. -/
theorem told_threadStep {pc : Pc} (h : told pc = true) (ok full : Bool) (d : Dl) :
    (Plat.ImgDl.threadStep ok full d pc).2.2 = none ∧
      told (Plat.ImgDl.threadStep ok full d pc).1 = true := by
  cases pc <;> first | exact ⟨rfl, rfl⟩ | cases h

/-- A thread comes to its outcome in the step that tells it. -/
theorem outcome_threadStep {pc : Pc} (h : told pc = false) (ok full : Bool) (d : Dl) :
    ((Plat.ImgDl.threadStep ok full d pc).2.2 = none ∧
        told (Plat.ImgDl.threadStep ok full d pc).1 = false) ∨
      ∃ o, (Plat.ImgDl.threadStep ok full d pc).2.2 = some o ∧
        (o = .handed ∨ o = .installed ∨ o = .failed) ∧
        told (Plat.ImgDl.threadStep ok full d pc).1 = true := by
  cases pc with
  | starting | performing _ | closing _ => exact Or.inl ⟨rfl, rfl⟩
  | cleaning ok' => cases ok' <;> exact Or.inl ⟨rfl, rfl⟩
  | typing => cases ok <;> exact Or.inl ⟨rfl, rfl⟩
  | choosing =>
    refine Or.inl ⟨rfl, ?_⟩
    simp only [Plat.ImgDl.threadStep]
    split_ifs <;> rfl
  | handing =>
    cases ok with
    | true => exact Or.inr ⟨_, rfl, Or.inl rfl, rfl⟩
    | false => exact Or.inl ⟨rfl, rfl⟩
  | installing =>
    cases ok with
    | true => exact Or.inr ⟨_, rfl, Or.inr (Or.inl rfl), rfl⟩
    | false => exact Or.inl ⟨rfl, rfl⟩
  | failing => exact Or.inr ⟨_, rfl, Or.inr (Or.inr rfl), rfl⟩
  | _ => cases h

/-- The threads after a step of one of them. -/
theorem Current.set {threads : List Pc} {i : ℕ} {pc : Pc} (h : Current threads i pc) (pc' : Pc) :
    Current (threads.set i pc') i pc' where
  at_ := by
    rw [List.getElem?_set_self', h.at_]
    rfl
  others := by
    intro j pc₁ hj hpc₁
    rw [List.getElem?_set_ne hj.symm] at hpc₁
    exact h.others j pc₁ hj hpc₁

/-- A thread that is done stays where it is. -/
theorem step_done {d : Dl} {i : ℕ} (hi : d.threads[i]? = some .done) (ok full : Bool) :
    Plat.ImgDl.step d (.thread i ok full) = (d, none) := by
  have hset : d.threads.set i .done = d.threads := by
    obtain ⟨hlt, hget⟩ := List.getElem?_eq_some_iff.mp hi
    rw [← hget]
    exact List.set_getElem_self hlt
  simp [Plat.ImgDl.step, hi, Plat.ImgDl.threadStep, hset]

/-- The step of a download, as a step of the client. -/
theorem step_dl {w : World} {a : Plat.ImgDl.Act} (h : ¬ (w.launching = true ∧ a = .request)) :
    step w (.dl a) =
      ({ w with
        dl := (Plat.ImgDl.step w.dl a).1
        launching := w.launching || (Plat.ImgDl.step w.dl a).2 = some .started },
        ((Plat.ImgDl.step w.dl a).2.map Entry.outcome).toList) := by
  simp only [step, if_neg h]

/-- No step of a thread starts a download. -/
theorem threadStep_not_started (ok full : Bool) (d : Dl) (pc : Pc) :
    (Plat.ImgDl.threadStep ok full d pc).2.2 ≠ some .started := by
  cases pc <;> cases ok <;> simp [Plat.ImgDl.threadStep]

/-- Nothing happens to the download. -/
theorem step_dl_same {w : World} {a : Plat.ImgDl.Act} (h : Plat.ImgDl.step w.dl a = (w.dl, none)) :
    step w (.dl a) = (w, []) := by
  by_cases hrefused : w.launching = true ∧ a = .request
  · simp only [step, if_pos hrefused]
  · simp [step_dl hrefused, h]

/-- What a step leaves to do for the simulation. -/
def Follows (p : Promise) (r : World × List Entry) : Prop :=
  ∃ p', Monitor.reads Promise.step p r.2 = some p' ∧ Sim r.1 p'

theorem Follows.same {w : World} {p : Promise} (h : Sim w p) : Follows p (w, []) := ⟨p, rfl, h⟩

theorem sim_thread {w : World} {p : Promise} (h : Sim w p) (i : ℕ) (ok full : Bool) :
    Follows p (step w (.dl (.thread i ok full))) := by
  cases hi : w.dl.threads[i]? with
  | none =>
    rw [step_dl_same (by simp only [Plat.ImgDl.step, hi])]
    exact .same h
  | some pc =>
    by_cases hdone : pc = .done
    · subst hdone
      rw [step_dl_same (step_done hi ok full)]
      exact .same h
    · rw [step_dl (by simp)]
      simp only [Plat.ImgDl.step, hi]
      have hstarted := threadStep_not_started ok full w.dl pc
      cases h with
      | ended hpoller hlaunch hthreads htask =>
        rcases hthreads pc (List.mem_of_getElem? hi) with hpc | ⟨hidle, htold⟩
        · exact absurd hpc hdone
        · obtain ⟨hout, htold'⟩ := told_threadStep htold ok full w.dl
          have hstart := (Plat.ImgDl.threadStep_start ok full w.dl pc).trans hidle
          rw [hout]
          refine ⟨_, rfl, .ended hpoller (by simp [hlaunch]) ?_ fun hne => absurd hstart hne⟩
          intro pc' hpc'
          rcases List.mem_or_eq_of_mem_set hpc' with hmem | rfl
          · exact (hthreads pc' hmem).imp id fun h => ⟨hstart, h.2⟩
          · exact Or.inr ⟨hstart, htold'⟩
      | @going phase k pc' hidle hthread htask hoff hasking hreport =>
        obtain rfl : i = k := by
          by_contra hne
          exact hdone (hthread.others i pc hne hi)
        obtain rfl : pc' = pc := by
          have hat := hthread.at_
          rw [hi] at hat
          cases hat
          rfl
        obtain ⟨phase', hread, htask', hstale, hinactive⟩ := task_threadStep htask w.last ok full
        refine ⟨_, hread, .going ?_ (hthread.set _) htask' ?_ ?_ ?_⟩
        · exact (Plat.ImgDl.threadStep_start ok full w.dl pc').trans hidle
        · simp [hstarted, hoff]
        · exact fun hp => hinactive (hasking hp)
        · intro operation percentage hp
          rcases hreport operation percentage hp with hdownload | hstate
          · exact Or.inl hdownload
          · rcases hstale with hdownload | hsame
            · exact Or.inl (hstate.trans hdownload)
            · exact Or.inr (hstate.trans hsame.symm)
      | @answered k operation percentage _ hthread =>
        rcases eq_or_ne i k with rfl | hne
        · have hat := hthread.at_
          rw [hi] at hat
          cases hat
          exact absurd rfl hdone
        · exact absurd (hthread.others i pc hne hi) hdone
      | @silent k pc' hidle hthread htold hpoller hlaunch =>
        obtain rfl : i = k := by
          by_contra hne
          exact hdone (hthread.others i pc hne hi)
        obtain rfl : pc' = pc := by
          have hat := hthread.at_
          rw [hi] at hat
          cases hat
          rfl
        have hstart := (Plat.ImgDl.threadStep_start ok full w.dl pc').trans hidle
        rcases outcome_threadStep htold ok full w.dl with ⟨hout, htold'⟩ | ⟨o, hout, ho, htold'⟩
        · rw [hout]
          exact ⟨_, rfl, .silent hstart (hthread.set _) htold' hpoller (by simp [hlaunch])⟩
        · rw [hout]
          refine ⟨⟨.off, w.last⟩, ?_, .ended hpoller ?_ ?_ fun hne => absurd hstart hne⟩
          · rcases ho with rfl | rfl | rfl <;> rfl
          · rcases ho with rfl | rfl | rfl <;> simp [hlaunch]
          · intro pc hpc
            obtain ⟨j, hj⟩ := List.getElem?_of_mem hpc
            rcases eq_or_ne j i with rfl | hne
            · rw [(hthread.set _).at_] at hj
              cases hj
              exact Or.inr ⟨hstart, htold'⟩
            · exact Or.inl ((hthread.set _).others j pc hne hj)

/-- While nothing is being started, the caller has nothing to do. -/
theorem step_start_idle {d : Dl} (hidle : d.start = .idle) (ok : Bool) :
    Plat.ImgDl.step d (.start ok) = (d, none) := by
  simp only [Plat.ImgDl.step, Plat.ImgDl.startStep, hidle]

theorem sim_start {w : World} {p : Promise} (h : Sim w p) (ok : Bool) :
    Follows p (step w (.dl (.start ok))) := by
  by_cases hidle : w.dl.start = .idle
  · rw [step_dl_same (step_start_idle hidle ok)]
    exact .same h
  · cases h with
    | going hstart => exact absurd hstart hidle
    | answered hstart => exact absurd hstart hidle
    | silent hstart => exact absurd hstart hidle
    | ended hpoller hlaunch hthreads htask =>
      have hdone : ∀ pc ∈ w.dl.threads, pc = .done := by
        intro pc hpc
        rcases hthreads pc hpc with hpc | ⟨hstart, _⟩
        · exact hpc
        · exact absurd hstart hidle
      have hover : ∀ {dl : Dl} {launching : Bool}, launching = false → dl.threads = w.dl.threads →
          (dl.start ≠ .idle → dl.start ≠ .cleared →
            dl.task.active = true ∧ dl.task.upgradeState = .download) →
          Sim { w with dl := dl, launching := launching } ⟨.off, w.last⟩ := by
        intro dl launching hlaunch hthreads htask
        refine .ended hpoller hlaunch ?_ htask
        intro pc hpc
        rw [hthreads] at hpc
        exact Or.inl (hdone pc hpc)
      rw [step_dl (by simp)]
      cases hs : w.dl.start <;> simp only [Plat.ImgDl.step, Plat.ImgDl.startStep, hs]
      case idle => exact absurd hs hidle
      case cleared => exact ⟨_, rfl, hover (by simp [hlaunch]) rfl fun _ _ => ⟨rfl, rfl⟩⟩
      case opening =>
        have hmarked := htask (by simp [hs]) (by simp [hs])
        cases ok with
        | true => exact ⟨_, rfl, hover (by simp [hlaunch]) rfl fun _ _ => hmarked⟩
        | false => exact ⟨_, rfl, hover (by simp [hlaunch]) rfl fun hstart => absurd rfl hstart⟩
      case initing =>
        have hmarked := htask (by simp [hs]) (by simp [hs])
        cases ok <;> exact ⟨_, rfl, hover (by simp [hlaunch]) rfl fun _ _ => hmarked⟩
      case creating =>
        obtain ⟨hactive, hstate⟩ := htask (by simp [hs]) (by simp [hs])
        cases ok with
        | true =>
          refine ⟨_, rfl, .going (i := w.dl.threads.length) rfl ⟨List.getElem?_concat_length, ?_⟩ ?_ ?_ ?_ ?_⟩
          · intro j pc hj hpc
            change (w.dl.threads ++ [.starting])[j]? = some pc at hpc
            have hlt : j < w.dl.threads.length := by
              have hle := (List.getElem?_eq_some_iff.mp hpc).1
              simp only [List.length_append, List.length_singleton] at hle
              omega
            rw [List.getElem?_append_left hlt] at hpc
            exact hdone pc (List.mem_of_getElem? hpc)
          · show some (true, Status.download) = some (w.dl.task.active, w.dl.task.upgradeState)
            rw [hactive, hstate]
          · simp [hpoller]
          · simp [hpoller]
          · simp [hpoller]
        | false => exact ⟨_, rfl, hover (by simp [hlaunch]) rfl fun _ _ => ⟨hactive, hstate⟩⟩
      case cleaning =>
        have hmarked := htask (by simp [hs]) (by simp [hs])
        refine ⟨_, rfl, hover (by simp [hlaunch]) ?_ fun _ _ => ?_⟩
        · cases w.dl.task.curl <;> rfl
        · show (w.dl.cleanup w.dl.task.curl).task.active = true ∧ _
          rw [cleanup_task]
          exact hmarked
      case closing =>
        cases hfp : w.dl.task.fp <;>
          exact ⟨_, rfl, hover (by simp [hlaunch]) rfl fun hstart => absurd rfl hstart⟩

/-- An upgrade is requested while the one before is over. -/
theorem sim_request {w : World} {p : Promise} (h : Sim w p) (halone : OneAtATime w (.dl .request)) :
    Follows p (step w (.dl .request)) := by
  cases hlaunching : w.launching with
  | true =>
    have hsame : step w (.dl .request) = (w, []) := by simp [step, hlaunching]
    rw [hsame]
    exact .same h
  | false =>
    by_cases hidle : w.dl.start = .idle
    · obtain ⟨hdone, hoff⟩ := halone rfl hlaunching hidle
      cases h with
      | ended hpoller hlaunch hthreads htask =>
        rw [step_dl (by simp [hlaunch])]
        simp only [Plat.ImgDl.step, if_pos hidle]
        refine ⟨_, rfl, .ended hpoller (by simp [hlaunch]) (fun pc hpc => Or.inl (hdone pc hpc)) ?_⟩
        exact fun _ hcleared => absurd rfl hcleared
      | going _ _ _ hlaunch =>
        rw [hlaunch.mp hoff] at hlaunching
        cases hlaunching
      | answered _ _ _ _ hpoller =>
        rw [hoff] at hpoller
        cases hpoller
      | silent _ hthread htold =>
        rw [hdone _ (List.mem_of_getElem? hthread.at_)] at htold
        cases htold
    · rw [step_dl_same (by simp only [Plat.ImgDl.step, if_neg hidle])]
      exact .same h

/-- The percentage is all that the transfer changes. -/
theorem step_progress (d : Dl) (i : ℕ) (percentage : UInt8) :
    ∃ task, Plat.ImgDl.step d (.progress i percentage) = ({ d with task := task }, none) ∧
      task.active = d.task.active ∧ task.upgradeState = d.task.upgradeState := by
  simp only [Plat.ImgDl.step]
  split
  · exact ⟨_, rfl, rfl, rfl⟩
  · exact ⟨d.task, rfl, rfl, rfl⟩

theorem sim_progress {w : World} {p : Promise} (h : Sim w p) (i : ℕ) (percentage : UInt8) :
    Follows p (step w (.dl (.progress i percentage))) := by
  obtain ⟨task, hstep, hactive, hstate⟩ := step_progress w.dl i percentage
  rw [step_dl (by simp), hstep]
  refine ⟨p, rfl, ?_⟩
  cases h with
  | ended hpoller hlaunch hthreads htask =>
    refine .ended hpoller (by simp [hlaunch]) hthreads fun hstart hcleared => ?_
    obtain ⟨hactive', hstate'⟩ := htask hstart hcleared
    exact ⟨hactive.trans hactive', hstate.trans hstate'⟩
  | going hidle hthread htask hoff hasking hreport =>
    rw [← hactive, ← hstate] at htask
    rw [← hactive] at hasking
    rw [← hstate] at hreport
    exact .going hidle hthread htask (by simp [hoff]) hasking hreport
  | answered hidle hthread htask hlaunch hpoller =>
    exact .answered hidle hthread ⟨hactive.trans htask.1, hstate.trans htask.2⟩ (by simp [hlaunch]) hpoller
  | silent hidle hthread htold hpoller hlaunch =>
    exact .silent hidle hthread htold hpoller (by simp [hlaunch])

/-- Without a thread for the reports, the upgrade is over as soon as its outcome is known. -/
theorem sim_unreported {w : World} {phase : Phase} {i : ℕ} {pc : Pc} (hidle : w.dl.start = .idle)
    (hthread : Current w.dl.threads i pc)
    (htask : phase.task pc = some (w.dl.task.active, w.dl.task.upgradeState)) :
    Follows ⟨phase, w.last⟩ ({ w with poller := .off, launching := false }, [.unreported]) := by
  have hphase : (phase = .running ∧ told pc = false) ∨
      ((phase = .handed ∨ phase = .installed ∨ phase = .failed) ∧ told pc = true) := by
    have hsome : (phase.task pc).isSome = true := by rw [htask]; rfl
    revert hsome
    cases phase <;> cases pc <;> simp [Phase.task, told]
  rcases hphase with ⟨rfl, htold⟩ | ⟨hphase, htold⟩
  · exact ⟨_, rfl, .silent hidle hthread htold rfl rfl⟩
  · refine ⟨⟨.off, w.last⟩, ?_, .ended rfl rfl ?_ fun hne => absurd hidle hne⟩
    · rcases hphase with rfl | rfl | rfl <;> rfl
    · intro pc' hpc'
      obtain ⟨j, hj⟩ := List.getElem?_of_mem hpc'
      rcases eq_or_ne j i with rfl | hne
      · have hat := hthread.at_
        rw [hj] at hat
        cases hat
        exact Or.inr ⟨hidle, htold⟩
      · exact Or.inl (hthread.others j pc' hne hj)

theorem sim_launch {w : World} {p : Promise} (h : Sim w p) (created : Bool) :
    Follows p (step w (.launch created)) := by
  simp only [step]
  split
  · next hlaunch =>
    rw [Bool.and_eq_true] at hlaunch
    cases h with
    | ended _ hnot =>
      rw [hnot] at hlaunch
      cases hlaunch.1
    | going hidle hthread htask =>
      cases created with
      | true => exact ⟨_, rfl, .going hidle hthread htask (iff_of_false nofun nofun) nofun nofun⟩
      | false => exact sim_unreported hidle hthread htask
    | answered _ _ _ hnot =>
      rw [hnot] at hlaunch
      cases hlaunch.1
    | silent _ _ _ _ hnot =>
      rw [hnot] at hlaunch
      cases hlaunch.1
  · exact .same h

/-- The last events of an upgrade are those that are promised. -/
theorem reads_success {phase : Phase} (h : phase = .handed ∨ phase = .answered .success)
    (percentage : ℤ) (last : Status) :
    Monitor.reads Promise.step ⟨phase, last⟩ (upgradeStatusSend .success percentage last).1 =
      some ⟨.off, last⟩ := by
  rcases h with rfl | rfl <;> cases last <;> rfl

/-- The task is inactive only behind the installation. -/
theorem inactive_installed {phase : Phase} {pc : Pc} {state : Status}
    (htask : phase.task pc = some (false, state)) : phase = .installed ∧ pc = .done ∧ state = .install := by
  cases phase <;> cases pc <;> cases htask
  exact ⟨rfl, rfl, rfl⟩

/-- What is read of the task may be reported in the phase; if it is the last report, the thread of the
    download has nothing more to say. -/
theorem reads_report {phase : Phase} {pc : Pc} {active : Bool} {state operation : Status}
    (htask : phase.task pc = some (active, state)) (hop : operation = .download ∨ operation = state)
    (percentage : ℤ) (last : Status) :
    ∃ phase', Monitor.reads Promise.step ⟨phase, last⟩
        (upgradeStatusSend operation percentage last).1 =
        some ⟨phase', (upgradeStatusSend operation percentage last).2.2⟩ ∧
      ((phase' = phase ∧ (upgradeStatusSend operation percentage last).2.1 = false) ∨
        (phase' = .off ∧ (upgradeStatusSend operation percentage last).2.1 = true ∧
          (pc = .done ∨ pc = .failed))) := by
  have hdownload : ∀ {phase : Phase}, phase.task pc = some (active, state) →
      Monitor.reads Promise.step ⟨phase, last⟩ (upgradeStatusSend .download percentage last).1 =
        some ⟨phase, .download⟩ := by
    intro phase htask
    cases phase <;> first | rfl | (cases pc <;> cases htask)
  rcases hop with rfl | rfl
  · exact ⟨phase, hdownload htask, Or.inl ⟨rfl, rfl⟩⟩
  · cases operation with
    | download => exact ⟨phase, hdownload htask, Or.inl ⟨rfl, rfl⟩⟩
    | idle => cases phase <;> cases pc <;> cases htask
    | install =>
      have hphase : phase = .installed := by
        cases phase <;> first | rfl | (cases pc <;> cases htask)
      subst hphase
      exact ⟨.installed, rfl, Or.inl ⟨rfl, rfl⟩⟩
    | fail =>
      have hphase : phase = .failed ∧ (pc = .done ∨ pc = .failed) := by
        cases phase <;> cases pc <;> cases htask <;> exact ⟨rfl, by simp⟩
      obtain ⟨rfl, hpc⟩ := hphase
      exact ⟨.off, rfl, Or.inr ⟨rfl, rfl, hpc⟩⟩
    | success =>
      have hphase : phase = .handed ∧ pc = .done := by
        cases phase <;> cases pc <;> cases htask
        exact ⟨rfl, rfl⟩
      obtain ⟨rfl, hpc⟩ := hphase
      exact ⟨.off, reads_success (Or.inl rfl) percentage last, Or.inr ⟨rfl, rfl, Or.inl hpc⟩⟩

theorem sim_poll {w : World} {p : Promise} (h : Sim w p) (answer : Option (String × ℤ)) :
    Follows p (step w (.poll answer)) := by
  show Follows p (pollStep answer w)
  cases h with
  | ended hpoller hlaunch hthreads htask =>
    simp only [pollStep, hpoller]
    exact .same (.ended hpoller hlaunch hthreads htask)
  | silent hidle hthread htold hpoller hlaunch =>
    simp only [pollStep, hpoller]
    exact .same (.silent hidle hthread htold hpoller hlaunch)
  | @answered i operation percentage hidle hthread htask hlaunch hpoller =>
    simp only [pollStep, hpoller]
    have hgo : ∀ {last : Status}, Sim { w with poller := .waiting, last := last } ⟨.installed, last⟩ := by
      intro last
      refine .going hidle hthread ?_ (by simp [hlaunch]) nofun nofun
      show some (false, Status.install) = some (w.dl.task.active, w.dl.task.upgradeState)
      rw [htask.1, htask.2]
    have hover : ∀ {last : Status}, Sim { w with poller := .off, last := last } ⟨.off, last⟩ := by
      intro last
      refine .ended rfl hlaunch ?_ (fun hstart => absurd hidle hstart)
      intro pc hpc
      obtain ⟨j, hj⟩ := List.getElem?_of_mem hpc
      rcases eq_or_ne j i with rfl | hne
      · have hat := hthread.at_
        rw [hj] at hat
        cases hat
        exact Or.inl rfl
      · exact Or.inl (hthread.others j pc hne hj)
    cases operation with
    | idle => exact ⟨_, rfl, hgo⟩
    | download => exact ⟨_, rfl, hgo⟩
    | install => exact ⟨_, rfl, hgo⟩
    | fail => exact ⟨_, rfl, hover⟩
    | success => exact ⟨_, reads_success (Or.inr rfl) percentage w.last, hover⟩
  | @going phase i pc hidle hthread htask hoff hasking hreport =>
    have hrunning : w.poller ≠ .off → w.launching = false := by
      intro hp
      rw [Bool.eq_false_iff]
      exact fun hlaunch => hp (hoff.mpr hlaunch)
    have hgo : ∀ {poller : Poller}, w.poller ≠ .off → poller ≠ .off →
        (poller = .asking → w.dl.task.active = false) →
        (∀ operation percentage, poller = .reporting operation percentage →
          operation = .download ∨ operation = w.dl.task.upgradeState) →
        Follows ⟨phase, w.last⟩ ({ w with poller := poller }, []) := by
      intro poller hp hp' hasking hreport
      refine ⟨_, rfl, .going hidle hthread htask ?_ hasking hreport⟩
      exact iff_of_false hp' (by simp [hrunning hp])
    cases hp : w.poller with
    | off =>
      simp only [pollStep, hp]
      exact .same (.going hidle hthread htask hoff hasking hreport)
    | waiting =>
      simp only [pollStep, hp]
      cases hactive : w.dl.task.active with
      | true => exact hgo (by rw [hp]; nofun) nofun nofun nofun
      | false => exact hgo (by rw [hp]; nofun) nofun (fun _ => hactive) nofun
    | percentage =>
      simp only [pollStep, hp]
      exact hgo (by rw [hp]; nofun) nofun nofun nofun
    | operation percentage =>
      simp only [pollStep, hp]
      refine hgo (by rw [hp]; nofun) nofun nofun ?_
      intro operation percentage heq
      injection heq with heq
      exact Or.inr heq.symm
    | asking =>
      have hinactive := hasking hp
      cases answer with
      | none =>
        simp only [pollStep, hp]
        exact hgo (by rw [hp]; nofun) nofun nofun nofun
      | some said =>
        simp only [pollStep, hp]
        rw [hinactive] at htask
        have hphase : phase = .installed ∧ pc = .done ∧ w.dl.task.upgradeState = .install := by
          exact inactive_installed htask
        obtain ⟨rfl, rfl, hstate⟩ := hphase
        exact ⟨_, rfl, .answered hidle hthread ⟨hinactive, hstate⟩ (hrunning (by rw [hp]; nofun)) rfl⟩
    | reporting operation percentage =>
      obtain ⟨phase', hread, hphase'⟩ := reads_report htask (hreport _ _ hp) percentage w.last
      have hlaunch := hrunning (by rw [hp]; nofun)
      simp only [pollStep, hp]
      refine ⟨_, hread, ?_⟩
      rcases hphase' with ⟨rfl, hstop⟩ | ⟨rfl, hstop, hpc⟩
      · simp only [hstop]
        exact .going hidle hthread htask (by simp [hlaunch]) nofun nofun
      · simp only [hstop]
        refine .ended rfl hlaunch ?_ (fun hstart => absurd hidle hstart)
        intro pc' hpc'
        obtain ⟨j, hj⟩ := List.getElem?_of_mem hpc'
        rcases eq_or_ne j i with rfl | hne
        · have hat := hthread.at_
          rw [hj] at hat
          cases hat
          rcases hpc with hpc | hpc
          · exact Or.inl hpc
          · exact Or.inr ⟨hidle, by rw [hpc]; rfl⟩
        · exact Or.inl (hthread.others j pc' hne hj)

theorem sim_step {w : World} {p : Promise} {a : Act} (h : Sim w p) (halone : OneAtATime w a) :
    Follows p (step w a) := by
  cases a with
  | dl a =>
    cases a with
    | request => exact sim_request h halone
    | start ok => exact sim_start h ok
    | progress i percentage => exact sim_progress h i percentage
    | thread i ok full => exact sim_thread h i ok full
  | launch created => exact sim_launch h created
  | poll answer => exact sim_poll h answer

theorem sim_init : Sim {} {} := .ended rfl rfl nofun nofun

/-- If an upgrade is requested only when the one before is over, then in whatever order the client, the
    download and the reports go on, what is seen of them is what is promised: there are no events but
    between the start of a download and the last of its events, which is `fail` or `success`; those
    before are of the state that the download has come to, or of one that the switch has answered behind
    the installation; and the device reboots behind each `success`, and for no other reason. If there is no
    thread for the reports, there are no events and no reboot. -/
theorem promise_kept (acts : List Act)
    (h : Run.EveryStep (fun w a => (step w a).1) OneAtATime {} acts) :
    ∃ p, Monitor.reads Promise.step {} (Monitor.trace step {} acts) = some p :=
  Monitor.reads_trace (fun hs ha => sim_step hs ha) acts sim_init h

/-- A package is downloaded, and handed to the script. -/
def packageUpgrade : List Act :=
  [.dl .request, .dl (.start true), .dl (.start true), .dl (.start true), .dl (.start true), .launch true,
    .dl (.thread 0 true true), .dl (.progress 0 40), .poll none, .poll none, .poll none, .poll none,
    .dl (.thread 0 true true), .dl (.thread 0 true true), .dl (.thread 0 true true),
    .dl (.thread 0 true false), .dl (.thread 0 true true), .dl (.thread 0 true true), .poll none,
    .dl (.thread 0 true true), .poll none, .poll none, .poll none, .dl .request]

example : Monitor.trace step {} packageUpgrade =
    [.outcome .started, .event ⟨"download", some 40⟩, .outcome .handed, .event ⟨"install", none⟩,
      .event ⟨"success", none⟩, .reboot] := by decide

/-- Another one, for whose reports there is no thread. -/
def silentUpgrade : List Act :=
  [.dl (.start true), .dl (.start true), .dl (.start true), .dl (.start true), .launch false,
    .dl (.thread 1 true true), .dl (.thread 1 true true), .dl (.thread 1 true true),
    .dl (.thread 1 true true), .dl (.thread 1 true false), .dl (.thread 1 true true),
    .dl (.thread 1 true true), .poll none, .dl (.thread 1 true true), .dl .request]

example : Monitor.trace step {} (packageUpgrade ++ silentUpgrade) =
    Monitor.trace step {} packageUpgrade ++ [.outcome .started, .unreported, .outcome .handed] := by
  decide +kernel

theorem promise_kept_package :
    ∃ p, Monitor.reads Promise.step {} (Monitor.trace step {} (packageUpgrade ++ silentUpgrade)) =
      some p :=
  promise_kept (packageUpgrade ++ silentUpgrade) (by decide +kernel)

/-! ### What has been seen before a reboot -/

/-- What has been seen of the upgrade in the phase. -/
def Phase.Seen : Phase → List Entry → Prop
  | off, _ | running, _ | failed, _ | unreported, _ => True
  | handed, es => .outcome .handed ∈ es
  | installed, es => .outcome .installed ∈ es
  | answered operation, es => .outcome .installed ∈ es ∧ .answer operation ∈ es
  | closing, es | rebooting, es =>
    .outcome .handed ∈ es ∨ (.outcome .installed ∈ es ∧ .answer .success ∈ es)

theorem Phase.Seen.mono {phase : Phase} {es es' : List Entry} (h : phase.Seen es) (hsub : es ⊆ es') :
    phase.Seen es' := by
  cases phase with
  | off | running | failed | unreported => trivial
  | handed => exact hsub h
  | installed => exact hsub h
  | answered operation => exact ⟨hsub h.1, hsub h.2⟩
  | closing | rebooting => exact h.imp (fun h => hsub h) fun h => ⟨hsub h.1, hsub h.2⟩

/-- What `Q` says has been seen since the last start of a download. -/
def SinceStart (Q : List Entry → Prop) (es : List Entry) : Prop :=
  ∃ es₁ es₂, es = es₁ ++ .outcome .started :: es₂ ∧ .outcome .started ∉ es₂ ∧ Q es₂

/-- A further entry, that is no start. -/
theorem SinceStart.snoc {Q Q' : List Entry → Prop} {es : List Entry} {e : Entry}
    (h : SinceStart Q es) (he : e ≠ .outcome .started) (hQ : ∀ es, Q es → Q' (es ++ [e])) :
    SinceStart Q' (es ++ [e]) := by
  obtain ⟨es₁, es₂, rfl, hno, h⟩ := h
  refine ⟨es₁, es₂ ++ [e], by simp, ?_, hQ es₂ h⟩
  simp [hno, Ne.symm he]

/-- What the monitor expects next tells what has been seen so far. -/
def History (es : List Entry) (p : Promise) : Prop := p.phase = .off ∨ SinceStart p.phase.Seen es

theorem History.since {es : List Entry} {p : Promise} (h : History es p) (hphase : p.phase ≠ .off) :
    SinceStart p.phase.Seen es := h.resolve_left hphase

/-- The end of an upgrade that has succeeded is due. -/
theorem history_succeeded {es : List Entry} {p p' : Promise} {name : String} {e : Entry}
    (h : SinceStart (Phase.Seen .closing) es) (he : e ≠ .outcome .started)
    (hp' : (name, p') ∈ p.succeeded) : History (es ++ [e]) p' := by
  have hphase : p'.phase = .closing ∨ p'.phase = .rebooting := by
    unfold Promise.succeeded at hp'
    split at hp' <;> cases List.mem_singleton.mp hp'
    · exact Or.inl rfl
    · exact Or.inr rfl
  refine Or.inr ?_
  rcases hphase with hphase | hphase <;> rw [hphase] <;>
    exact h.snoc he fun es hseen => Phase.Seen.mono hseen (List.subset_append_left es [e])

theorem history_event {es : List Entry} {p p' : Promise} {e : Event} (h : History es p)
    (hstep : p.events.lookup e.operation = some p') : History (es ++ [.event e]) p' := by
  obtain ⟨name, hmem⟩ : ∃ name, (name, p') ∈ p.events := by
    obtain ⟨l₁, l₂, heq, _⟩ := List.lookup_eq_some_iff.mp hstep
    rw [heq]
    exact ⟨e.operation, List.mem_append_right l₁ List.mem_cons_self⟩
  have hsame : ∀ {phase : Phase}, p.phase ≠ .off → p'.phase = phase →
      (∀ es, p.phase.Seen es → phase.Seen es) → History (es ++ [.event e]) p' := by
    intro phase hphase hphase' hseen
    refine Or.inr ?_
    rw [hphase']
    exact (h.since hphase).snoc nofun fun es hs => (hseen es hs).mono (List.subset_append_left es _)
  have hsucceeded : p.phase ≠ .off → (∀ es, p.phase.Seen es → Phase.Seen .closing es) →
      (name, p') ∈ p.succeeded → History (es ++ [.event e]) p' := by
    intro hphase hseen hp'
    obtain ⟨es₁, es₂, heq, hno, hs⟩ := h.since hphase
    exact history_succeeded ⟨es₁, es₂, heq, hno, hseen es₂ hs⟩ nofun hp'
  cases hphase : p.phase with
  | off | unreported | rebooting =>
    rw [Promise.events, hphase] at hmem
    cases hmem
  | running =>
    rw [Promise.events, hphase] at hmem
    cases List.mem_singleton.mp hmem
    exact hsame (by simp [hphase]) rfl fun es hs => hphase ▸ hs
  | handed =>
    rw [Promise.events, hphase] at hmem
    rcases List.mem_cons.mp hmem with heq | hmem
    · cases heq
      exact hsame (by simp [hphase]) rfl fun es hs => hphase ▸ hs
    · exact hsucceeded (by simp [hphase]) (fun es hs => Or.inl (by simpa [hphase, Phase.Seen] using hs)) hmem
  | installed =>
    rw [Promise.events, hphase] at hmem
    rcases List.mem_cons.mp hmem with heq | hmem
    · cases heq
      exact hsame (by simp [hphase]) rfl fun es hs => hphase ▸ hs
    · cases List.mem_singleton.mp hmem
      exact hsame (by simp [hphase]) rfl fun es hs => hphase ▸ hs
  | answered operation =>
    have hinstalled : ∀ es, p.phase.Seen es → Phase.Seen .installed es := by
      intro es hs
      rw [hphase] at hs
      exact hs.1
    rw [Promise.events, hphase] at hmem
    cases operation with
    | idle | download | install =>
      cases List.mem_singleton.mp hmem
      exact hsame (by simp [hphase]) rfl hinstalled
    | fail =>
      cases List.mem_singleton.mp hmem
      exact Or.inl rfl
    | success =>
      refine hsucceeded (by simp [hphase]) (fun es hs => ?_) hmem
      rw [hphase] at hs
      exact Or.inr hs
  | failed =>
    rw [Promise.events, hphase] at hmem
    rcases List.mem_cons.mp hmem with heq | hmem
    · cases heq
      exact hsame (by simp [hphase]) rfl fun es hs => hphase ▸ hs
    · cases List.mem_singleton.mp hmem
      exact Or.inl rfl
  | closing =>
    rw [Promise.events, hphase] at hmem
    cases List.mem_singleton.mp hmem
    exact hsame (by simp [hphase]) rfl fun es hs => by
      rw [hphase] at hs
      exact hs

theorem history_step {es : List Entry} {p : Promise} {e : Entry} {p' : Promise} (h : History es p)
    (hstep : p.step e = some p') : History (es ++ [e]) p' := by
  cases e with
  | event e => exact history_event h hstep
  | reboot =>
    simp only [Promise.step] at hstep
    split at hstep
    · cases hstep
      exact Or.inl rfl
    · cases hstep
  | unreported =>
    simp only [Promise.step] at hstep
    split at hstep
    · next hphase =>
      cases hstep
      exact Or.inr ((h.since (by simp [hphase])).snoc nofun fun _ _ => trivial)
    · cases hstep
      exact Or.inl rfl
    · cases hstep
      exact Or.inl rfl
    · cases hstep
      exact Or.inl rfl
    · cases hstep
  | answer operation =>
    simp only [Promise.step] at hstep
    split at hstep
    · next hphase =>
      cases hstep
      refine Or.inr ((h.since (by simp [hphase])).snoc nofun fun es hs => ?_)
      rw [hphase] at hs
      exact ⟨List.mem_append_left _ hs, List.mem_append_right es List.mem_cons_self⟩
    · cases hstep
  | outcome o =>
    have hnew : ∀ {phase : Phase}, p.phase = .running → o ≠ .started →
        (∀ es, phase.Seen (es ++ [.outcome o])) → SinceStart phase.Seen (es ++ [.outcome o]) := by
      intro phase hphase ho hseen
      exact (h.since (by simp [hphase])).snoc (by simpa using ho) fun es _ => hseen es
    simp only [Promise.step] at hstep
    split at hstep
    · cases hstep
      exact Or.inr ⟨es, [], rfl, List.not_mem_nil, trivial⟩
    · next hphase =>
      cases hstep
      exact Or.inl hphase
    · next hphase =>
      cases hstep
      exact Or.inr (hnew hphase nofun fun es => List.mem_append_right es List.mem_cons_self)
    · next hphase =>
      cases hstep
      exact Or.inr (hnew hphase nofun fun es => List.mem_append_right es List.mem_cons_self)
    · next hphase =>
      cases hstep
      exact Or.inr (hnew hphase nofun fun _ => trivial)
    · cases hstep
      exact Or.inl rfl
    · cases hstep
      exact Or.inl rfl
    · cases hstep
      exact Or.inl rfl
    · cases hstep

/-- Before the device reboots for an upgrade, the package that has been downloaded for it has been handed
    to the script, or its image has been installed and the switch has answered `GLOBAL_STATE_SUCCESS`
    behind the start of the download. -/
theorem reboot_sound (acts : List Act)
    (h : Run.EveryStep (fun w a => (step w a).1) OneAtATime {} acts) (pre post : List Entry)
    (htrace : Monitor.trace step {} acts = pre ++ .reboot :: post) :
    SinceStart (fun es => .outcome .handed ∈ es ∨
      (.outcome .installed ∈ es ∧ .answer .success ∈ es)) pre := by
  obtain ⟨p, hread⟩ := Monitor.reads_trace (fun hs ha => sim_step hs ha) acts sim_init h
  rw [htrace, Monitor.reads_append] at hread
  obtain ⟨p₁, hpre, hrest⟩ := Option.bind_eq_some_iff.mp hread
  obtain ⟨p₂, hreboot, _⟩ := Option.bind_eq_some_iff.mp hrest
  have hphase : p₁.phase = .rebooting := by
    simp only [Promise.step] at hreboot
    split at hreboot
    · assumption
    · cases hreboot
  have hhistory : History pre p₁ :=
    Monitor.reads_history (fun hI hstep => history_step hI hstep) pre [] (Or.inl rfl) hpre
  have hseen := hhistory.since (by simp [hphase])
  rw [hphase] at hseen
  exact hseen

/-- An image is installed, the switch answers so, and the device reboots. -/
def imageUpgrade : List Act :=
  [.dl .request, .dl (.start true), .dl (.start true), .dl (.start true), .dl (.start true), .launch true,
    .dl (.thread 0 true true), .dl (.thread 0 true true), .dl (.thread 0 true true),
    .dl (.thread 0 true true), .dl (.thread 0 true true), .dl (.thread 0 true true),
    .dl (.thread 0 true true), .dl (.thread 0 true true), .dl (.thread 0 true true),
    .dl (.thread 0 true true), .poll none, .poll (some ("GLOBAL_STATE_SUCCESS", 0)), .poll none]

theorem reboot_sound_image :
    SinceStart (fun es => .outcome .handed ∈ es ∨
      (.outcome .installed ∈ es ∧ .answer .success ∈ es))
      [.outcome .started, .outcome .installed, .answer .success, .event ⟨"success", none⟩] :=
  reboot_sound imageUpgrade (by decide) _ [] (by decide)

/-! ### A download that is refused -/

/-- The task of a download that has been refused stays as it was marked, and the reports go on. -/
structure Stalled (w : World) : Prop where
  start : w.dl.start = .idle
  threads : ∀ pc ∈ w.dl.threads, pc = .done
  active : w.dl.task.active = true
  state : w.dl.task.upgradeState = .download
  percentage : w.dl.task.percentage = 0
  launching : w.launching = false
  poller : w.poller = .waiting ∨ w.poller = .percentage ∨ w.poller = .operation 0 ∨
    w.poller = .reporting .download 0

/-- Another upgrade is requested. -/
def Act.requests : Act → Bool
  | dl .request => true
  | _ => false

/-- The event of a download that has not begun. -/
def downloadZero : Entry := .event ⟨"download", some 0⟩

theorem stalled_poll {w : World} (h : Stalled w) (answer : Option (String × ℤ)) :
    Stalled (pollStep answer w).1 ∧ ∀ e ∈ (pollStep answer w).2, e = downloadZero := by
  have hgo : ∀ {poller : Poller} {last : Status}, (poller = .waiting ∨ poller = .percentage ∨
      poller = .operation 0 ∨ poller = .reporting .download 0) →
      Stalled { w with poller := poller, last := last } :=
    fun hp => ⟨h.start, h.threads, h.active, h.state, h.percentage, h.launching, hp⟩
  rcases h.poller with hp | hp | hp | hp
  · simp only [pollStep, hp, h.active, if_true]
    exact ⟨hgo (by simp), nofun⟩
  · simp only [pollStep, hp, h.percentage]
    exact ⟨hgo (by simp), nofun⟩
  · simp only [pollStep, hp, h.state]
    exact ⟨hgo (by simp), nofun⟩
  · simp only [pollStep, hp]
    refine ⟨hgo (by simp [upgradeStatusSend]), ?_⟩
    intro e he
    exact List.mem_singleton.mp he

theorem stalled_step {w : World} (h : Stalled w) {a : Act} (ha : a.requests = false) :
    Stalled (step w a).1 ∧ ∀ e ∈ (step w a).2, e = downloadZero := by
  have hdone : ∀ {i : ℕ} {pc : Pc}, w.dl.threads[i]? = some pc → pc = .done :=
    fun hi => h.threads _ (List.mem_of_getElem? hi)
  cases a with
  | launch created =>
    simp only [step, h.launching, Bool.false_and, Bool.false_eq_true, if_false]
    exact ⟨h, by simp⟩
  | poll answer => exact stalled_poll h answer
  | dl a =>
    have hsame : Plat.ImgDl.step w.dl a = (w.dl, none) := by
      cases a with
      | request => cases ha
      | start ok => exact step_start_idle h.start ok
      | progress i percentage =>
        simp only [Plat.ImgDl.step]
        split
        · next hi => cases hdone hi
        · rfl
      | thread i ok full =>
        cases hi : w.dl.threads[i]? with
        | none => simp only [Plat.ImgDl.step, hi]
        | some pc =>
          cases hdone hi
          exact step_done hi ok full
    rw [step_dl_same hsame]
    exact ⟨h, by simp⟩

theorem stalled_run (acts : List Act) : ∀ {w : World}, Stalled w → (∀ a ∈ acts, a.requests = false) →
    Stalled (acts.foldl (fun w a => (step w a).1) w) ∧ ∀ e ∈ Monitor.trace step w acts, e = downloadZero := by
  induction acts with
  | nil => exact fun h _ => ⟨h, nofun⟩
  | cons a acts ih =>
    intro w h hacts
    obtain ⟨hstalled, hentries⟩ := stalled_step h (hacts a List.mem_cons_self)
    obtain ⟨hend, hrest⟩ := ih hstalled fun b hb => hacts b (List.mem_cons_of_mem a hb)
    refine ⟨hend, ?_⟩
    intro e he
    rcases List.mem_append.mp he with he | he
    · exact hentries e he
    · exact hrest e he

/-- What `plat_img_dl_start` does when `fopen`, `curl_easy_init` or `pthread_create` fails. -/
def refusals : List (List Act) :=
  [[.dl .request, .dl (.start true), .dl (.start false)],
    [.dl .request, .dl (.start true), .dl (.start true), .dl (.start false), .dl (.start true),
      .dl (.start true)],
    [.dl .request, .dl (.start true), .dl (.start true), .dl (.start true), .dl (.start false),
      .dl (.start true), .dl (.start true)]]

theorem stalled_refusal {w : World} (hidle : w.dl.start = .idle)
    (hdone : ∀ pc ∈ w.dl.threads, pc = .done) (hlaunch : w.launching = false)
    (hwaiting : w.poller = .waiting) {refusal : List Act} (hrefusal : refusal ∈ refusals) :
    Monitor.trace step w refusal = [.outcome .refused] ∧
      Stalled (refusal.foldl (fun w a => (step w a).1) w) := by
  obtain ⟨⟨task, start, threads, next, closed, fault⟩, poller, launching, last⟩ := w
  subst hidle hlaunch hwaiting
  simp only [refusals, List.mem_cons, List.not_mem_nil, or_false] at hrefusal
  rcases hrefusal with rfl | rfl | rfl <;>
    exact ⟨rfl, rfl, hdone, rfl, rfl, rfl, rfl, Or.inl rfl⟩

/-- An upgrade that is refused while the one before is still reported puts an end to its reports: until
    another upgrade is requested there is no event but that the download stands at 0 %, no matter what
    the switch says of the installation, and there is always another one to come. -/
theorem refused_stalls (w : World) (hidle : w.dl.start = .idle) (hdone : ∀ pc ∈ w.dl.threads, pc = .done)
    (hlaunch : w.launching = false) (hwaiting : w.poller = .waiting) (refusal : List Act)
    (hrefusal : refusal ∈ refusals) (acts : List Act) (hacts : ∀ a ∈ acts, a.requests = false) :
    (∃ entries, Monitor.trace step w (refusal ++ acts) = .outcome .refused :: entries ∧
      ∀ e ∈ entries, e = downloadZero) ∧
      ((refusal ++ acts).foldl (fun w a => (step w a).1) w).poller ≠ .off := by
  obtain ⟨htrace, hstalled⟩ := stalled_refusal hidle hdone hlaunch hwaiting hrefusal
  obtain ⟨hend, hentries⟩ := stalled_run acts hstalled hacts
  refine ⟨⟨_, ?_, hentries⟩, ?_⟩
  · rw [Monitor.trace_append, htrace]
    rfl
  · rw [List.foldl_append]
    rcases hend.poller with hp | hp | hp | hp <;> rw [hp] <;> nofun

/-- The image of an upgrade is being installed. -/
def installing : World := (imageUpgrade.take 16).foldl (fun w a => (step w a).1) {}

def noFile : List Act := [.dl .request, .dl (.start true), .dl (.start false)]

def fourPolls : List Act :=
  [.poll none, .poll (some ("GLOBAL_STATE_SUCCESS", 0)), .poll none, .poll none]

/-- The file of the next upgrade cannot be opened meanwhile. -/
theorem refused_stalls_installing :
    (∃ entries, Monitor.trace step installing (noFile ++ fourPolls) = .outcome .refused :: entries ∧
      ∀ e ∈ entries, e = downloadZero) ∧
      ((noFile ++ fourPolls).foldl (fun w a => (step w a).1) installing).poller ≠ .off :=
  refused_stalls installing (by decide) (by decide) (by decide) (by decide) noFile (by decide) fourPolls
    (by decide)

end Ucentral.Proto.Upgrade
