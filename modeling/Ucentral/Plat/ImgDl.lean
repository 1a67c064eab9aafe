import Mathlib.Data.List.Perm.Basic
import Mathlib.Data.List.Range
import Mathlib.Tactic.Common

/-! The download of an image.

    `plat_img_dl_start` opens a file and a handle of the transfer, and starts a thread for it that nobody
    joins. The thread gives both back, and it finds them in `img_dl_task`, which the next download
    clears. Each access to the task is one step, of the thread that is named or of the caller. -/

namespace Ucentral.Plat.ImgDl

/-- `enum upgrade_status`. -/
inductive Status
  | idle | download | install | fail | success
  deriving DecidableEq, Repr

/-- `struct img_dl_task`; the files and the handles are numbered as they are opened. -/
structure Task where
  active : Bool := false
  downloadedFullImg : Bool := false
  curl : Option ℕ := none
  fp : Option ℕ := none
  percentage : UInt8 := 0
  upgradeState : Status := .idle
  deriving DecidableEq, Repr

/-- Where `plat_img_dl_start` is: behind the `memset`; at `fopen`, `curl_easy_init` and `pthread_create`;
    and at `err`, with the handle and then the file to give back. -/
inductive Start
  | idle | cleared | opening | initing | creating | cleaning | closing
  deriving DecidableEq, Repr

/-- Where a thread is in `img_dl_entrypoint`. -/
inductive Pc
  | starting
  | performing (curl : Option ℕ)
  | closing (ok : Bool)
  | cleaning (ok : Bool)
  | typing | choosing
  | handing | handed
  | installing | installed | resetting | deactivating
  | failing | failed
  | done
  deriving DecidableEq, Repr

/-- What comes of a download: whether it is begun; the package is handed to the script, or the image
    installed, or neither. -/
inductive Outcome
  | started | refused | handed | installed | failed
  deriving DecidableEq, Repr

structure Dl where
  task : Task := {}
  start : Start := .idle
  threads : List Pc := []
  /-- How many files and handles have been opened. -/
  next : ℕ := 0
  /-- Those that have been closed, the last one first. -/
  closed : List ℕ := []
  /-- Something has been used that was closed. -/
  fault : Bool := false
  deriving DecidableEq, Repr

/-- `fclose`. -/
def Dl.fclose (d : Dl) : Option ℕ → Dl
  | none => { d with fault := true }
  | some h => { d with closed := h :: d.closed, fault := d.fault || decide (h ∈ d.closed) }

/-- `curl_easy_cleanup`. -/
def Dl.cleanup (d : Dl) : Option ℕ → Dl
  | none => d
  | some h => d.fclose (some h)

/-- A step of the thread at `pc`: `ok` is what the call there returns, and `full` what the image is. -/
def threadStep (ok full : Bool) (d : Dl) : Pc → Pc × Dl × Option Outcome
  | .starting => (.performing d.task.curl, d, none)
  | .performing curl =>
    (.closing (ok && curl.isSome), { d with fault := d.fault || curl.any (· ∈ d.closed) }, none)
  | .closing ok => (.cleaning ok, d.fclose d.task.fp, none)
  | .cleaning ok => (if ok then .typing else .failing, d.cleanup d.task.curl, none)
  | .typing =>
    if ok then (.choosing, { d with task := { d.task with downloadedFullImg := full } }, none)
    else (.failing, d, none)
  | .choosing => (if d.task.downloadedFullImg then .installing else .handing, d, none)
  | .handing => if ok then (.handed, d, some .handed) else (.failing, d, none)
  | .handed => (.done, { d with task := { d.task with upgradeState := .success } }, none)
  | .installing => if ok then (.installed, d, some .installed) else (.failing, d, none)
  | .installed => (.resetting, { d with task := { d.task with upgradeState := .install } }, none)
  | .resetting => (.deactivating, { d with task := { d.task with percentage := 0 } }, none)
  | .deactivating => (.done, { d with task := { d.task with active := false } }, none)
  | .failing => (.failed, { d with task := { d.task with upgradeState := .fail } }, some .failed)
  | .failed => (.done, { d with task := { d.task with percentage := 0 } }, none)
  | .done => (.done, d, none)

/-- A step of `plat_img_dl_start`: `ok` is whether the call there succeeds. -/
def startStep (ok : Bool) (d : Dl) : Dl × Option Outcome :=
  match d.start with
  | .idle => (d, none)
  | .cleared =>
    ({ d with task := { d.task with upgradeState := .download, active := true }, start := .opening },
      none)
  | .opening =>
    if ok then
      ({ d with task := { d.task with fp := some d.next }, next := d.next + 1, start := .initing }, none)
    else ({ d with start := .idle }, some .refused)
  | .initing =>
    if ok then
      ({ d with task := { d.task with curl := some d.next }, next := d.next + 1, start := .creating },
        none)
    else ({ d with start := .cleaning }, none)
  | .creating =>
    if ok then ({ d with threads := d.threads ++ [.starting], start := .idle }, some .started)
    else ({ d with start := .cleaning }, none)
  | .cleaning => ({ d.cleanup d.task.curl with start := .closing }, none)
  | .closing =>
    (if d.task.fp.isSome then { d.fclose d.task.fp with start := .idle } else { d with start := .idle },
      some .refused)

inductive Act
  | request
  | start (ok : Bool)
  /-- `img_dl_progress_cb`. -/
  | progress (i : ℕ) (percentage : UInt8)
  | thread (i : ℕ) (ok full : Bool)
  deriving DecidableEq, Repr

def step (d : Dl) : Act → Dl × Option Outcome
  | .request => (if d.start = .idle then { d with task := {}, start := .cleared } else d, none)
  | .start ok => startStep ok d
  | .progress i percentage =>
    match d.threads[i]? with
    | some (.performing _) => ({ d with task := { d.task with percentage := percentage } }, none)
    | _ => (d, none)
  | .thread i ok full =>
    match d.threads[i]? with
    | none => (d, none)
    | some pc =>
      let (pc', d', outcome) := threadStep ok full d pc
      ({ d' with threads := d.threads.set i pc' }, outcome)

def run (d : Dl) (acts : List Act) : Dl := acts.foldl (fun d a => (step d a).1) d

/-! ### Who gives back what -/

/-- The thread has yet to give something back. -/
def Pc.holds : Pc → Bool
  | starting | performing _ | closing _ | cleaning _ => true
  | _ => false

def NoneHolds (d : Dl) : Prop := ∀ pc ∈ d.threads, pc.holds = false

instance (d : Dl) : Decidable (NoneHolds d) := inferInstanceAs (Decidable (∀ pc ∈ d.threads, _))

/-- A download is requested only when the threads of the earlier ones have given back what they had. -/
def Apart (d : Dl) : List Act → Prop
  | [] => True
  | a :: acts => (a = .request → d.start = .idle → NoneHolds d) ∧ Apart (step d a).1 acts

/-- What the thread gives back. -/
def Pc.gives (f c : ℕ) : Pc → List ℕ
  | starting | performing _ | closing _ => [f, c]
  | cleaning _ => [c]
  | _ => []

/-- What is open. -/
def Start.gives (fp curl : Option ℕ) : Start → List ℕ
  | idle | cleared | opening => []
  | initing | closing => fp.toList
  | creating | cleaning => fp.toList ++ curl.toList

/-- What `plat_img_dl_start` has found out about its calls. -/
def Start.Has (fp curl : Option ℕ) : Start → Prop
  | idle => True
  | cleared | opening => curl = none
  | initing => fp.isSome = true ∧ curl = none
  | creating => fp.isSome = true ∧ curl.isSome = true
  | cleaning | closing => fp.isSome = true

/-- Of what has been opened, `hs` is open and the rest closed, once each. -/
def Open (d : Dl) (hs : List ℕ) : Prop := (hs ++ d.closed).Perm (List.range d.next)

inductive Inv (d : Dl) : Prop
  | start (hfault : d.fault = false) (hnone : NoneHolds d) (hhas : d.start.Has d.task.fp d.task.curl)
      (hopen : Open d (d.start.gives d.task.fp d.task.curl))
  | thread {i f c : ℕ} {pc : Pc} (hfault : d.fault = false) (hidle : d.start = .idle)
      (hi : d.threads[i]? = some pc) (hholds : pc.holds = true)
      (hothers : ∀ j pc', j ≠ i → d.threads[j]? = some pc' → pc'.holds = false)
      (hfp : d.task.fp = some f) (hcurl : d.task.curl = some c)
      (hsame : ∀ curl, pc = .performing curl → curl = some c) (hopen : Open d (pc.gives f c))

/-! ### Apart, each of them is closed once -/

namespace Open

variable {d : Dl} {h : ℕ} {hs : List ℕ}

theorem nodup (hd : Open d hs) : (hs ++ d.closed).Nodup :=
  hd.nodup_iff.mpr List.nodup_range

theorem not_closed (hd : Open d hs) (hh : h ∈ hs) : h ∉ d.closed :=
  fun hc => (List.nodup_append.mp hd.nodup).2.2 h hh h hc rfl

theorem lt_next (hd : Open d hs) (hh : h ∈ hs) : h < d.next :=
  List.mem_range.mp (hd.mem_iff.mp (List.mem_append_left _ hh))

/-- One of them is closed. -/
theorem fclose (hd : Open d (h :: hs)) : Open (d.fclose (some h)) hs :=
  List.perm_middle.trans hd

theorem fclose_fault (hd : Open d (h :: hs)) (hfault : d.fault = false) :
    (d.fclose (some h)).fault = false := by
  have hnot : h ∉ d.closed := hd.not_closed List.mem_cons_self
  simp [Dl.fclose, hfault, hnot]

/-- Another one is opened. -/
theorem opened (hd : Open d hs) (task : Task) (start : Start) :
    Open { d with task := task, next := d.next + 1, start := start } (hs ++ [d.next]) := by
  show (hs ++ [d.next] ++ d.closed).Perm (List.range (d.next + 1))
  rw [List.range_succ, List.append_assoc]
  have hcomm : (hs ++ ([d.next] ++ d.closed)).Perm (hs ++ d.closed ++ [d.next]) := by
    rw [List.append_assoc]
    exact List.perm_append_comm.append_left hs
  exact hcomm.trans (hd.append_right [d.next])

end Open

/-- A thread that has given everything back opens and closes nothing. -/
theorem threadStep_frame {pc : Pc} (hpc : pc.holds = false) (ok full : Bool) (d : Dl) :
    (threadStep ok full d pc).1.holds = false ∧
      (threadStep ok full d pc).2.1.task.fp = d.task.fp ∧
      (threadStep ok full d pc).2.1.task.curl = d.task.curl ∧
      (threadStep ok full d pc).2.1.start = d.start ∧
      (threadStep ok full d pc).2.1.next = d.next ∧
      (threadStep ok full d pc).2.1.closed = d.closed ∧
      (threadStep ok full d pc).2.1.fault = d.fault := by
  cases pc with
  | starting | performing | closing | cleaning => cases hpc
  | choosing =>
    cases hfull : d.task.downloadedFullImg <;> simp [threadStep, Pc.holds, hfull]
  | _ => cases ok <;> exact ⟨rfl, rfl, rfl, rfl, rfl, rfl, rfl⟩

/-- No step of a thread is one of the caller. -/
theorem threadStep_start (ok full : Bool) (d : Dl) (pc : Pc) :
    (threadStep ok full d pc).2.1.start = d.start := by
  cases pc with
  | closing ok' => cases hfp : d.task.fp <;> simp [threadStep, hfp, Dl.fclose]
  | cleaning ok' => cases hcurl : d.task.curl <;> simp [threadStep, hcurl, Dl.fclose, Dl.cleanup]
  | _ => cases ok <;> rfl

/-- Of the threads after a step, the one that made it is at `pc'`, and the others are where they were. -/
theorem getElem?_set_cases {threads : List Pc} {i j : ℕ} {pc pc' : Pc}
    (h : (threads.set i pc')[j]? = some pc) : (j = i ∧ pc = pc') ∨ (j ≠ i ∧ threads[j]? = some pc) := by
  rcases eq_or_ne j i with rfl | hne
  · left
    refine ⟨rfl, ?_⟩
    rw [List.getElem?_set_self' ] at h
    cases hj : threads[j]? <;> rw [hj] at h <;> cases h
    rfl
  · right
    rw [List.getElem?_set_ne hne.symm] at h
    exact ⟨hne, h⟩

/-- A step of a thread that has given everything back. -/
theorem Inv.quiet {d : Dl} (h : Inv d) {i : ℕ} {pc : Pc} (hi : d.threads[i]? = some pc)
    (hpc : pc.holds = false) (ok full : Bool) : Inv (step d (.thread i ok full)).1 := by
  obtain ⟨hpc', hfp', hcurl', hstart', hnext', hclosed', hfault'⟩ := threadStep_frame hpc ok full d
  have hstep : (step d (.thread i ok full)).1 =
      { (threadStep ok full d pc).2.1 with threads := d.threads.set i (threadStep ok full d pc).1 } := by
    simp only [step, hi]
  rw [hstep]
  generalize (threadStep ok full d pc).1 = pc' at *
  generalize (threadStep ok full d pc).2.1 = d' at *
  have hopen' : ∀ {hs}, Open d hs → Open { d' with threads := d.threads.set i pc' } hs := by
    intro hs hopen
    show (hs ++ d'.closed).Perm (List.range d'.next)
    rw [hclosed', hnext']
    exact hopen
  cases h with
  | start hfault hnone hhas hopen =>
    refine .start (hfault'.trans hfault) ?_ ?_ ?_
    · intro pc₁ hpc₁
      rcases List.mem_or_eq_of_mem_set hpc₁ with hmem | rfl
      · exact hnone pc₁ hmem
      · exact hpc'
    · show Start.Has d'.task.fp d'.task.curl d'.start
      rw [hfp', hcurl', hstart']
      exact hhas
    · show Open _ (Start.gives d'.task.fp d'.task.curl d'.start)
      rw [hfp', hcurl', hstart']
      exact hopen' hopen
  | @thread k f c pc₁ hfault hidle hk hholds hothers hfp hcurl hsame hopen =>
    have hne : k ≠ i := by
      rintro rfl
      rw [hk] at hi
      cases hi
      rw [hpc] at hholds
      cases hholds
    refine .thread (i := k) (hfault'.trans hfault) (hstart'.trans hidle) ?_ hholds ?_
      (hfp'.trans hfp) (hcurl'.trans hcurl) hsame (hopen' hopen)
    · exact (List.getElem?_set_ne hne.symm).trans hk
    · intro j pc₂ hj hpc₂
      rcases getElem?_set_cases hpc₂ with ⟨_, rfl⟩ | ⟨_, hsame₂⟩
      · exact hpc'
      · exact hothers j pc₂ hj hsame₂

/-- A step of the thread that has something to give back. -/
theorem Inv.giving {d : Dl} {i f c : ℕ} {pc : Pc} (hfault : d.fault = false) (hidle : d.start = .idle)
    (hi : d.threads[i]? = some pc) (hholds : pc.holds = true)
    (hothers : ∀ j pc', j ≠ i → d.threads[j]? = some pc' → pc'.holds = false)
    (hfp : d.task.fp = some f) (hcurl : d.task.curl = some c)
    (hsame : ∀ curl, pc = .performing curl → curl = some c) (hopen : Open d (pc.gives f c))
    (ok full : Bool) : Inv (step d (.thread i ok full)).1 := by
  have hself : ∀ pc', (d.threads.set i pc')[i]? = some pc' := by
    intro pc'
    rw [List.getElem?_set_self', hi]
    rfl
  have hothers' : ∀ pc₁ j pc', j ≠ i → (d.threads.set i pc₁)[j]? = some pc' → pc'.holds = false := by
    intro pc₁ j pc' hj hpc'
    rw [List.getElem?_set_ne hj.symm] at hpc'
    exact hothers j pc' hj hpc'
  cases pc with
  | starting =>
    simp only [step, hi, threadStep]
    refine .thread hfault hidle (hself _) rfl (hothers' _) hfp hcurl ?_ hopen
    intro curl heq
    rw [← hcurl]
    injection heq with heq
    exact heq.symm
  | performing curl =>
    obtain rfl : curl = some c := hsame curl rfl
    have hnot : c ∉ d.closed := hopen.not_closed (List.mem_cons_of_mem f List.mem_cons_self)
    simp only [step, hi, threadStep]
    refine .thread ?_ hidle (hself _) rfl (hothers' _) hfp hcurl nofun hopen
    simp [hfault, hnot]
  | closing ok' =>
    simp only [step, hi, threadStep, hfp]
    exact .thread (hopen.fclose_fault hfault) hidle (hself _) rfl (hothers' _) hfp hcurl nofun hopen.fclose
  | cleaning ok' =>
    have hnone : ∀ pc', pc'.holds = false → ∀ pc ∈ d.threads.set i pc', pc.holds = false := by
      intro pc' hpc' pc hpc
      obtain ⟨j, hj⟩ := List.getElem?_of_mem hpc
      rcases getElem?_set_cases hj with ⟨_, rfl⟩ | ⟨hne, hj⟩
      · exact hpc'
      · exact hothers j pc hne hj
    simp only [step, hi, threadStep, hcurl, Dl.cleanup]
    refine .start (hopen.fclose_fault hfault) (hnone _ ?_) ?_ ?_
    · cases ok' <;> rfl
    · show Start.Has _ _ d.start
      rw [hidle]
      trivial
    · show Open _ (Start.gives _ _ d.start)
      rw [hidle]
      exact hopen.fclose
  | _ => cases hholds

theorem inv_thread {d : Dl} (h : Inv d) (i : ℕ) (ok full : Bool) : Inv (step d (.thread i ok full)).1 := by
  cases hi : d.threads[i]? with
  | none =>
    simp only [step, hi]
    exact h
  | some pc =>
    by_cases hpc : pc.holds = true
    · cases h with
      | start _ hnone =>
        rw [hnone pc (List.mem_of_getElem? hi)] at hpc
        cases hpc
      | @thread k f c pc' hfault hidle hk hholds hothers hfp hcurl hsame hopen =>
        have heq : i = k := by
          by_contra hne
          rw [hothers i pc hne hi] at hpc
          cases hpc
        subst heq
        exact Inv.giving hfault hidle hk hholds hothers hfp hcurl hsame hopen ok full
    · exact h.quiet hi (Bool.eq_false_iff.mpr hpc) ok full

theorem inv_start {d : Dl} (h : Inv d) (ok : Bool) : Inv (step d (.start ok)).1 := by
  cases h with
  | thread _ hidle =>
    have hsame : (step d (.start ok)).1 = d := by
      simp only [step, startStep, hidle]
    rw [hsame]
    exact .thread ‹_› hidle ‹_› ‹_› ‹_› ‹_› ‹_› ‹_› ‹_›
  | start hfault hnone hhas hopen =>
    cases hs : d.start <;> rw [hs] at hhas hopen <;> simp only [step, startStep, hs]
    case idle => exact .start hfault hnone (hs ▸ trivial) (hs ▸ hopen)
    case cleared => exact .start hfault hnone hhas hopen
    case opening =>
      cases ok with
      | true => exact .start hfault hnone ⟨rfl, hhas⟩ (hopen.opened _ _)
      | false => exact .start hfault hnone trivial hopen
    case initing =>
      obtain ⟨hfp, hcurl⟩ := hhas
      cases ok with
      | true => exact .start hfault hnone ⟨hfp, rfl⟩ (hopen.opened _ _)
      | false =>
        refine .start hfault hnone hfp ?_
        show Open _ (d.task.fp.toList ++ d.task.curl.toList)
        rw [hcurl, Option.toList_none, List.append_nil]
        exact hopen
    case creating =>
      obtain ⟨f, hfp⟩ := Option.isSome_iff_exists.mp hhas.1
      obtain ⟨c, hcurl⟩ := Option.isSome_iff_exists.mp hhas.2
      cases ok with
      | true =>
        refine .thread (i := d.threads.length) hfault rfl List.getElem?_concat_length rfl ?_ hfp hcurl
          nofun ?_
        · intro j pc hj hpc
          change (d.threads ++ [.starting])[j]? = some pc at hpc
          have hlt : j < d.threads.length := by
            have hle := (List.getElem?_eq_some_iff.mp hpc).1
            simp only [List.length_append, List.length_singleton] at hle
            omega
          rw [List.getElem?_append_left hlt] at hpc
          exact hnone pc (List.mem_of_getElem? hpc)
        · rw [hfp, hcurl] at hopen
          exact hopen
      | false => exact .start hfault hnone hhas.1 hopen
    case cleaning =>
      obtain ⟨f, hfp⟩ := Option.isSome_iff_exists.mp hhas
      cases hcurl : d.task.curl with
      | none =>
        refine .start hfault hnone hhas ?_
        rw [hcurl, Start.gives, Option.toList_none, List.append_nil] at hopen
        exact hopen
      | some c =>
        rw [hfp, hcurl] at hopen
        have hswap : Open d [c, f] := (List.Perm.swap f c d.closed).trans hopen
        refine .start (hswap.fclose_fault hfault) hnone hhas ?_
        show Open _ d.task.fp.toList
        rw [hfp]
        exact hswap.fclose
    case closing =>
      obtain ⟨f, hfp⟩ := Option.isSome_iff_exists.mp hhas
      rw [hfp] at hopen ⊢
      exact .start (hopen.fclose_fault hfault) hnone trivial hopen.fclose

theorem inv_request {d : Dl} (h : Inv d) (hapart : d.start = .idle → NoneHolds d) :
    Inv (step d .request).1 := by
  by_cases hidle : d.start = .idle
  · have hnone := hapart hidle
    have hopen : Open d [] := by
      cases h with
      | start _ _ _ hopen =>
        rw [hidle] at hopen
        exact hopen
      | thread _ _ hi hholds =>
        rw [hnone _ (List.mem_of_getElem? hi)] at hholds
        cases hholds
    have hfault : d.fault = false := by
      cases h <;> assumption
    simp only [step, if_pos hidle]
    exact .start hfault hnone rfl hopen
  · simp only [step, if_neg hidle]
    exact h

theorem inv_progress {d : Dl} (h : Inv d) (i : ℕ) (percentage : UInt8) :
    Inv (step d (.progress i percentage)).1 := by
  simp only [step]
  split
  · cases h with
    | start hfault hnone hhas hopen => exact .start hfault hnone hhas hopen
    | thread hfault hidle hi hholds hothers hfp hcurl hsame hopen =>
      exact .thread hfault hidle hi hholds hothers hfp hcurl hsame hopen
  · exact h

theorem inv_run : ∀ (acts : List Act) {d : Dl}, Inv d → Apart d acts → Inv (run d acts)
  | [], _, h, _ => h
  | a :: acts, d, h, hapart => by
    refine inv_run acts (d := (step d a).1) ?_ hapart.2
    cases a with
    | request => exact inv_request h (hapart.1 rfl)
    | start ok => exact inv_start h ok
    | progress i percentage => exact inv_progress h i percentage
    | thread i ok full => exact inv_thread h i ok full

theorem inv_init : Inv {} := .start rfl nofun trivial (List.Perm.refl [])

/-! ### Otherwise one is lost -/

/-- It is open, and nothing knows of it. -/
structure Lost (d : Dl) (h : ℕ) : Prop where
  lt : h < d.next
  notClosed : h ∉ d.closed
  fp : d.task.fp ≠ some h
  curl : d.task.curl ≠ some h

theorem Lost.fclose {d : Dl} {h : ℕ} (hd : Lost d h) {o : Option ℕ} (ho : o ≠ some h) :
    Lost (d.fclose o) h := by
  cases o with
  | none => exact ⟨hd.lt, hd.notClosed, hd.fp, hd.curl⟩
  | some k =>
    refine ⟨hd.lt, ?_, hd.fp, hd.curl⟩
    intro hmem
    rcases List.mem_cons.mp hmem with rfl | hmem
    · exact ho rfl
    · exact hd.notClosed hmem

theorem Lost.cleanup {d : Dl} {h : ℕ} (hd : Lost d h) {o : Option ℕ} (ho : o ≠ some h) :
    Lost (d.cleanup o) h := by
  cases o with
  | none => exact hd
  | some k => exact hd.fclose ho

theorem Lost.threads {d : Dl} {h : ℕ} (hd : Lost d h) (threads : List Pc) :
    Lost { d with threads := threads } h := ⟨hd.lt, hd.notClosed, hd.fp, hd.curl⟩

theorem lost_thread {d : Dl} {h : ℕ} (hd : Lost d h) (ok full : Bool) (pc : Pc) :
    Lost (threadStep ok full d pc).2.1 h := by
  cases pc with
  | performing curl => exact ⟨hd.lt, hd.notClosed, hd.fp, hd.curl⟩
  | closing ok' => exact hd.fclose hd.fp
  | cleaning ok' => exact hd.cleanup hd.curl
  | _ => cases ok <;> exact ⟨hd.lt, hd.notClosed, hd.fp, hd.curl⟩

theorem lost_start {d : Dl} {h : ℕ} (hd : Lost d h) (ok : Bool) : Lost (startStep ok d).1 h := by
  have hne : ∀ k, d.next = k → some k ≠ some h := by
    rintro k rfl heq
    injection heq with heq
    exact absurd hd.lt (by omega)
  cases hs : d.start <;> simp only [startStep, hs]
  case opening =>
    cases ok with
    | true => exact ⟨Nat.lt_succ_of_lt hd.lt, hd.notClosed, hne _ rfl, hd.curl⟩
    | false => exact ⟨hd.lt, hd.notClosed, hd.fp, hd.curl⟩
  case initing =>
    cases ok with
    | true => exact ⟨Nat.lt_succ_of_lt hd.lt, hd.notClosed, hd.fp, hne _ rfl⟩
    | false => exact ⟨hd.lt, hd.notClosed, hd.fp, hd.curl⟩
  case creating => cases ok <;> exact ⟨hd.lt, hd.notClosed, hd.fp, hd.curl⟩
  case cleaning =>
    have hc := hd.cleanup hd.curl
    exact ⟨hc.lt, hc.notClosed, hc.fp, hc.curl⟩
  case closing =>
    split
    · have hc := hd.fclose hd.fp
      exact ⟨hc.lt, hc.notClosed, hc.fp, hc.curl⟩
    · exact ⟨hd.lt, hd.notClosed, hd.fp, hd.curl⟩
  all_goals exact ⟨hd.lt, hd.notClosed, hd.fp, hd.curl⟩

theorem lost_step {d : Dl} {h : ℕ} (hd : Lost d h) (a : Act) : Lost (step d a).1 h := by
  cases a with
  | request =>
    simp only [step]
    split
    · exact ⟨hd.lt, hd.notClosed, nofun, nofun⟩
    · exact hd
  | start ok => exact lost_start hd ok
  | progress i percentage =>
    simp only [step]
    split
    · exact ⟨hd.lt, hd.notClosed, hd.fp, hd.curl⟩
    · exact hd
  | thread i ok full =>
    simp only [step]
    split
    · exact hd
    · exact (lost_thread hd ok full _).threads _

theorem lost_run : ∀ (acts : List Act) {d : Dl} {h : ℕ}, Lost d h → Lost (run d acts) h
  | [], _, _, hd => hd
  | a :: acts, _, _, hd => lost_run acts (lost_step hd a)

/-- Every thread gives something back as long as it holds. -/
theorem Pc.gives_ne_nil {pc : Pc} (hpc : pc.holds = true) (f c : ℕ) : ∃ h, h ∈ pc.gives f c := by
  cases pc with
  | starting | performing _ | closing _ => exact ⟨f, List.mem_cons_self⟩
  | cleaning _ => exact ⟨c, List.mem_cons_self⟩
  | _ => cases hpc

/-- A request made too early loses what the thread before has open. -/
theorem request_loses {d : Dl} (h : Inv d) (hidle : d.start = .idle) (hholds : ¬ NoneHolds d) :
    ∃ k, Lost (step d .request).1 k := by
  cases h with
  | start _ hnone => exact absurd hnone hholds
  | @thread i f c pc _ _ _ hpc _ _ _ _ hopen =>
    obtain ⟨k, hk⟩ := Pc.gives_ne_nil hpc f c
    refine ⟨k, ?_⟩
    simp only [step, if_pos hidle]
    exact ⟨hopen.lt_next hk, hopen.not_closed hk, nofun, nofun⟩

theorem lost_of_not_apart : ∀ (acts : List Act) {d : Dl}, Inv d → ¬ Apart d acts → ∃ k, Lost (run d acts) k
  | [], _, _, hnot => absurd trivial hnot
  | a :: acts, d, h, hnot => by
    by_cases hearly : a = .request → d.start = .idle → NoneHolds d
    · have hinv : Inv (step d a).1 := inv_run [a] h ⟨hearly, trivial⟩
      exact lost_of_not_apart acts hinv fun hrest => hnot ⟨hearly, hrest⟩
    · obtain ⟨rfl, hlate⟩ := Classical.not_imp.mp hearly
      obtain ⟨hidle, hholds⟩ := Classical.not_imp.mp hlate
      obtain ⟨k, hk⟩ := request_loses h hidle hholds
      exact ⟨k, lost_run acts hk⟩

/-- When no download is being started, and the threads have given back what they had, every file and
    every handle has been closed, once each, and none has been used behind that, just in the runs where
    each download was requested behind the `curl_easy_cleanup` of the thread before. In the others one
    is lost: it stays open whatever is done from there on. -/
theorem closed_once_iff (acts : List Act) (hidle : (run {} acts).start = .idle)
    (hnone : NoneHolds (run {} acts)) :
    (((run {} acts).fault = false ∧ (run {} acts).closed.Perm (List.range (run {} acts).next)) ↔
      Apart {} acts) ∧
    (¬ Apart {} acts → ∃ k, ∀ rest, Lost (run (run {} acts) rest) k) := by
  refine ⟨⟨?_, ?_⟩, fun hnot => ?_⟩
  · rintro ⟨_, hperm⟩
    by_contra hnot
    obtain ⟨k, hk⟩ := lost_of_not_apart acts inv_init hnot
    exact hk.notClosed (hperm.mem_iff.mpr (List.mem_range.mpr hk.lt))
  · intro hapart
    cases inv_run acts inv_init hapart with
    | start hfault _ _ hopen =>
      rw [hidle] at hopen
      exact ⟨hfault, hopen⟩
    | thread _ _ hi hholds =>
      rw [hnone _ (List.mem_of_getElem? hi)] at hholds
      cases hholds
  · obtain ⟨k, hk⟩ := lost_of_not_apart acts inv_init hnot
    exact ⟨k, fun rest => lost_run rest hk⟩

/-- Two downloads, the second one requested while the first is in the transfer: the file of the first
    stays open, and the one of the second is closed twice. -/
def overtaken : List Act :=
  [.request, .start true, .start true, .start true, .start true, .thread 0 true true, .request,
    .start true, .start true, .start true, .start true, .thread 1 true true, .thread 0 true true,
    .thread 0 true true, .thread 0 true true, .thread 1 true true, .thread 1 true true,
    .thread 1 true true]

example : (run {} overtaken).closed = [3, 2, 3, 2] := by decide

theorem closed_once_overtaken :
    (((run {} overtaken).fault = false ∧
      (run {} overtaken).closed.Perm (List.range (run {} overtaken).next)) ↔ Apart {} overtaken) ∧
    ∃ k, ∀ rest, Lost (run (run {} overtaken) rest) k := by
  have h := closed_once_iff overtaken (by decide) (by decide)
  refine ⟨h.1, h.2 fun hapart => ?_⟩
  -- the handle with the number 0 is not closed
  exact absurd ((h.1.mpr hapart).2.mem_iff.mpr (List.mem_range.mpr (by decide : 0 < 4))) (by decide)

end Ucentral.Plat.ImgDl
