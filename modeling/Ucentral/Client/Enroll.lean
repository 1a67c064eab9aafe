import Ucentral.Lib.Run
import Ucentral.Proto.Replies

/-! The operational certificate and its two writers.

    `pki2_check_and_enroll` runs at every boot and trusts `operational.pem` if it is there. It writes
    the file itself after an enrollment, and `reenroll_handle` writes it again at a request; both
    truncate the file and write into it. A run is any sequence of boots and requests. -/

namespace Ucentral.Client.Enroll
open Proto

/-! ### Files -/

/-- The certificates `client.cert` may name, and the CA bundles `client.ca` may name. -/
inductive Origin
  | birth | operational
  deriving DecidableEq

/-- How `fopen`, `fwrite` and `fclose` go for one file: whether it is opened, how many bytes `fwrite`
    accounts for, and how many of these are in the file once it is closed. -/
structure Write where
  opened : Bool
  written : ℕ
  kept : ℕ

variable {α : Type}

/-- What `fwrite` returns. -/
def Write.count (w : Write) (data : List α) : ℕ := min w.written data.length

/-- What is left in the file. -/
def Write.content (w : Write) (data : List α) : List α := data.take (min w.kept (w.count data))

/-- All of the data comes to be in the file. -/
def Write.Whole (w : Write) (data : List α) : Prop :=
  data.length ≤ w.written ∧ data.length ≤ w.kept

instance (w : Write) (data : List α) : Decidable (w.Whole data) :=
  inferInstanceAs (Decidable (_ ∧ _))

theorem Write.content_eq {w : Write} {data : List α} (h : w.Whole data) : w.content data = data := by
  rw [content, count, Nat.min_eq_right h.1, Nat.min_eq_right h.2, List.take_length]

/-- `est_save_cert` on a file: its content, and whether `EST_SUCCESS` is returned. -/
def estSaveCert (data : List α) (w : Write) (file : Option (List α)) : Option (List α) × Bool :=
  if data.isEmpty then (file, false)
  else if !w.opened then (file, false)
  else (some (w.content data), w.count data == data.length)

/-! ### The device -/

/-- The files under `/etc/ucentral`, what the client has selected since it was started, and the
    certificates that the EST server has returned so far. -/
structure Device where
  operationalPem : Option (List UInt8)
  operationalCa : Option (List UInt8)
  birthPem : Bool
  cert : Option Origin
  ca : Option Origin
  issued : List (List UInt8)

/-- What the calls of a boot give. -/
structure Boot where
  server : Bool
  enroll : Option (List UInt8)
  save : Write
  cacerts : Option (List UInt8)
  saveCa : Write

/-- What the calls of a request give, and whether it has its parameter. -/
structure Request where
  serial : Bool
  server : Bool
  reenroll : Option (List UInt8)
  save : Write

/-- The birth certificate is selected, and the boot goes on without an operational one. -/
def fallBack (d : Device) : Device × Bool :=
  ({ d with cert := some .birth, ca := some .birth }, false)

/-- `pki2_check_and_enroll` in a client that has just been started, and whether it returns 0. -/
def pki2CheckAndEnroll (d : Device) (b : Boot) : Device × Bool :=
  let d := { d with cert := none, ca := none }
  if d.operationalPem.isSome then
    ({ d with cert := some .operational, ca := some .operational }, true)
  else if !d.birthPem then (d, false)
  else if !b.server then fallBack d
  else
    match b.enroll with
    | none => fallBack d
    | some enrolled =>
      let d := { d with issued := d.issued ++ [enrolled] }
      let saved := estSaveCert enrolled b.save d.operationalPem
      let d := { d with operationalPem := saved.1 }
      if !saved.2 then fallBack d
      else
        let operationalCa :=
          match b.cacerts with
          | some ca => (estSaveCert ca b.saveCa d.operationalCa).1
          | none => d.operationalCa
        ({ d with
            operationalCa := operationalCa
            cert := some .operational
            ca := some .operational }, true)

/-- `reenroll_handle`, and how it ends; none if the request is turned down. -/
def reenrollHandle (d : Device) (r : Request) : Device × Option Reenroll :=
  if !r.serial then (d, none)
  else if !r.server then (d, some .noServer)
  else
    match r.reenroll with
    | none => (d, some .failed)
    | some renewed =>
      let d := { d with issued := d.issued ++ [renewed] }
      if !r.save.opened then (d, some .notSaved)
      else
        let d := { d with operationalPem := some (r.save.content renewed) }
        if r.save.count renewed ≠ renewed.length then (d, some .notSaved) else (d, some .renewed)

inductive Event
  | boot (b : Boot)
  | reenroll (r : Request)

def step (d : Device) : Event → Device
  | .boot b => (pki2CheckAndEnroll d b).1
  | .reenroll r => (reenrollHandle d r).1

/-- If the client has selected the operational certificate, the file holds one that the EST server
    has returned. -/
def Sound (d : Device) : Prop :=
  d.cert = some .operational → ∃ c ∈ d.issued, d.operationalPem = some c

/-- What is asked of a step: a boot selects no other certificate. -/
def SoundBoot (d : Device) : Event → Prop
  | .boot b => Sound (step d (.boot b))
  | .reenroll _ => True

/-- What an event writes to `operational.pem`, and how that goes. -/
def written (d : Device) : Event → Option (List UInt8 × Write)
  | .boot b =>
    if d.operationalPem.isSome || !d.birthPem || !b.server then none
    else b.enroll.map fun c => (c, b.save)
  | .reenroll r => if !r.serial || !r.server then none else r.reenroll.map fun c => (c, r.save)

/-- If `operational.pem` is opened for writing, all of the certificate comes to be in it. -/
def NotCutShort (d : Device) (e : Event) : Prop :=
  ∀ c w, written d e = some (c, w) → w.opened = true → w.Whole c

/-! ### What a step leaves in the file -/

/-- The file is absent or holds a certificate that was returned. -/
def Stored (d : Device) : Prop := ∀ c, d.operationalPem = some c → c ∈ d.issued

/-- A whole write leaves the old certificate or the new one. -/
theorem stored_save {c : List UInt8} {w : Write} {d : Device} (hd : Stored d)
    (hw : w.opened = true → w.Whole c) (d' : Device) (hissued : d'.issued = d.issued ++ [c])
    (hfile : d'.operationalPem = (estSaveCert c w d.operationalPem).1) : Stored d' := by
  intro a ha
  rw [hissued, List.mem_append, List.mem_singleton]
  rw [hfile] at ha
  unfold estSaveCert at ha
  split_ifs at ha with h0 h1
  · exact Or.inl (hd a ha)
  · exact Or.inl (hd a ha)
  · rw [Write.content_eq (hw (by simpa using h1))] at ha
    exact Or.inr (Option.some.inj ha).symm

/-- What `est_save_cert` reports as saved is in the file. -/
theorem isSome_of_saved {c : List UInt8} {w : Write} {file : Option (List UInt8)}
    (h : (estSaveCert c w file).2 = true) : (estSaveCert c w file).1.isSome = true := by
  unfold estSaveCert at h ⊢
  split_ifs at h ⊢
  rfl

theorem Stored.sound {d : Device} (hd : Stored d) (h : d.operationalPem.isSome = true) : Sound d := by
  obtain ⟨c, hc⟩ := Option.isSome_iff_exists.mp h
  exact fun _ => ⟨c, hd c hc, hc⟩

theorem stored_boot {d : Device} {b : Boot} (hd : Stored d) (hw : NotCutShort d (.boot b)) :
    Stored (step d (.boot b)) ∧ Sound (step d (.boot b)) := by
  unfold step pki2CheckAndEnroll
  dsimp only
  split_ifs with hfile hbirth hserver
  · exact ⟨hd, Stored.sound hd hfile⟩
  · exact ⟨hd, nofun⟩
  · exact ⟨hd, nofun⟩
  · split
    · exact ⟨hd, nofun⟩
    · next enrolled henroll =>
      have hwhole : b.save.opened = true → b.save.Whole enrolled :=
        hw enrolled b.save (by simp_all [written])
      split_ifs with hsaved
      · exact ⟨stored_save hd hwhole _ rfl rfl, nofun⟩
      · have hstored := stored_save (c := enrolled) hd hwhole
        refine ⟨hstored _ rfl rfl, Stored.sound (hstored _ rfl rfl) ?_⟩
        exact isSome_of_saved (by simpa using hsaved)

theorem stored_reenroll {d : Device} {r : Request} (hd : Stored d)
    (hw : NotCutShort d (.reenroll r)) : Stored (step d (.reenroll r)) := by
  unfold step reenrollHandle
  dsimp only
  split
  · exact hd
  split
  · exact hd
  split
  · exact hd
  · next renewed hrenew =>
    have hwhole : r.save.opened = true → r.save.Whole renewed :=
      hw renewed r.save (by simp_all [written])
    split
    · exact fun c hc => List.mem_append_left _ (hd c hc)
    · next hopened =>
      -- whether it is reported as saved or not, the file now holds the renewed certificate
      have hcontent := Write.content_eq (hwhole (by simpa using hopened))
      have hstored : Stored { d with
          issued := d.issued ++ [renewed], operationalPem := some (r.save.content renewed) } := by
        intro c hc
        rw [hcontent] at hc
        rw [← Option.some.inj hc]
        exact List.mem_append_right _ (List.mem_singleton.mpr rfl)
      split <;> exact hstored

/-- In every run in which no write of `operational.pem` is cut short, a boot that selects the file
    finds in it a certificate that the EST server has returned. -/
theorem boots_sound (d : Device) (hd : Stored d) (es : List Event)
    (h : Run.EveryStep step NotCutShort d es) : Run.EveryStep step SoundBoot d es := by
  refine Run.everyStep_of_invariant (I := Stored) (fun d e hd hw => ?_) es hd h
  cases e with
  | boot b => exact stored_boot hd hw
  | reenroll r => exact ⟨stored_reenroll hd hw, trivial⟩

/-! ### A write that is cut short -/

/-- A device that has its birth certificate only. -/
def factory : Device := ⟨none, none, true, none, none, []⟩

/-- A boot that enrolls a certificate of four bytes and saves it like this. -/
def enrolling (w : Write) : Event := .boot ⟨true, some [1, 2, 3, 4], w, none, w⟩

theorem boots_sound_enrolled :
    Run.EveryStep step SoundBoot factory [enrolling ⟨true, 4, 4⟩, enrolling ⟨false, 0, 0⟩] := by
  refine boots_sound factory nofun _ ?_
  rw [Run.everyStep_cons, Run.everyStep_cons]
  refine ⟨fun c w hc _ => ?_, fun c w hc _ => ?_, Run.everyStep_nil _⟩
  · cases hc
    decide
  · cases hc

/-- The disk is full after two bytes: the save fails and the boot falls back to the birth
    certificate, but the next one selects what is in the file. -/
theorem truncated_pem_selected :
    let d := step (step factory (enrolling ⟨true, 2, 2⟩)) (enrolling ⟨true, 4, 4⟩)
    (step factory (enrolling ⟨true, 2, 2⟩)).cert = some .birth ∧ d.cert = some .operational ∧
      d.operationalPem = some [1, 2] ∧ d.issued = [[1, 2, 3, 4]] ∧
      ¬ ∀ es, Run.EveryStep step SoundBoot factory es := by
  refine ⟨by decide, by decide, by decide, by decide, fun h => ?_⟩
  have hrun := h [enrolling ⟨true, 2, 2⟩, enrolling ⟨true, 4, 4⟩]
  rw [Run.everyStep_cons, Run.everyStep_cons] at hrun
  obtain ⟨c, hc, hfile⟩ : ∃ c ∈ [[1, 2, 3, 4]], some ([1, 2] : List UInt8) = some c := hrun.2.1 rfl
  rw [List.mem_singleton] at hc
  rw [hc] at hfile
  exact absurd hfile (by decide)

end Ucentral.Client.Enroll
