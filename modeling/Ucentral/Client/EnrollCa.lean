import Ucentral.Client.Enroll

/-! The pair of files that a boot selects: the certificate and the CA bundle.

    The bundle of the operational PKI is fetched once, in the boot that enrolls. Whether that works is not
    looked at: `operational.ca` is selected in any case, then and in all later boots. -/

namespace Ucentral.Client.EnrollCa
open Enroll Run

/-! ### The directory -/

/-- The device with its birth key and CA bundle, and the bundle that was last written, in part or as a
    whole, to `operational.ca`. -/
structure Install where
  device : Device
  birthKey : Bool
  birthCa : Bool
  bundle : Option (List UInt8)

/-- Birth certificate, key and CA bundle are there. -/
structure Born (i : Install) : Prop where
  cert : i.device.birthPem = true
  key : i.birthKey = true
  ca : i.birthCa = true

/-- `operational.ca` holds a bundle that was obtained, all of it. -/
def Complete (i : Install) : Prop := ∃ ca, i.bundle = some ca ∧ i.device.operationalCa = some ca

/-- The boot gets a certificate and saves it. -/
def enrolls (d : Device) (b : Boot) : Bool :=
  d.operationalPem.isNone && d.birthPem && b.server &&
    match b.enroll with
    | none => false
    | some c => !c.isEmpty && b.save.opened && b.save.count c == c.length

/-- A bundle is obtained and `operational.ca` is opened for it. -/
def opensCa (b : Boot) : Bool :=
  match b.cacerts with
  | none => false
  | some ca => !ca.isEmpty && b.saveCa.opened

/-- One boot. -/
def boot (i : Install) (b : Boot) : Install :=
  { i with
    device := (pki2CheckAndEnroll i.device b).1
    bundle := if enrolls i.device b && opensCa b then b.cacerts else i.bundle }

/-! ### What is asked of a boot -/

/-- The file that `client.cert` names, and the one that `client.ca` names. -/
def certExists (i : Install) : Origin → Prop
  | .birth => i.device.birthPem = true
  | .operational => i.device.operationalPem.isSome

def caExists (i : Install) : Origin → Prop
  | .birth => i.birthCa = true
  | .operational => i.device.operationalCa.isSome

/-- After the boot the pair names existing files, and the CA bundle is the operational one only if that
    is complete; if the boot enrolls and cannot get a bundle, it is the birth one. -/
structure Trusted (i : Install) (b : Boot) : Prop where
  cert : ∃ c, (boot i b).device.cert = some c ∧ certExists (boot i b) c
  ca : ∃ a, (boot i b).device.ca = some a ∧ caExists (boot i b) a
  saved : (boot i b).device.ca = some .operational → Complete (boot i b)
  fallback : enrolls i.device b = true → b.cacerts = none → (boot i b).device.ca = some .birth

/-- An operational certificate comes with a complete bundle. A boot that enrolls obtains one, and either
    saves it as a whole or does not touch a complete one. -/
structure CaKept (i : Install) (b : Boot) : Prop where
  found : i.device.operationalPem.isSome → Complete i
  fetched : enrolls i.device b = true → b.cacerts.isSome
  whole : enrolls i.device b = true → opensCa b = true → b.saveCa.Whole (b.cacerts.getD [])
  kept : enrolls i.device b = true → opensCa b = false → Complete i

/-! ### The ways through a boot -/

theorem content_eq_iff {α : Type} {w : Write} {data : List α} :
    w.content data = data ↔ w.Whole data := by
  refine ⟨fun h => ?_, Write.content_eq⟩
  have hlen := congrArg List.length h
  unfold Write.content Write.count at hlen
  rw [List.length_take] at hlen
  unfold Write.Whole
  omega

theorem estSaveCert_eq {α : Type} (data : List α) (w : Write) (file : Option (List α)) :
    estSaveCert data w file =
      (if (!data.isEmpty && w.opened) = true then some (w.content data) else file,
        !data.isEmpty && w.opened && w.count data == data.length) := by
  unfold estSaveCert
  cases data.isEmpty <;> cases w.opened <;> rfl

/-- The bundle's file after a boot that enrolls. -/
def caAfter (d : Device) (b : Boot) : Option (List UInt8) :=
  if opensCa b = true then some (b.saveCa.content (b.cacerts.getD [])) else d.operationalCa

theorem pki2_of_enrolls {d : Device} {b : Boot} (h : enrolls d b = true) :
    let d' := (pki2CheckAndEnroll d b).1
    d'.cert = some .operational ∧ d'.ca = some .operational ∧ d'.operationalPem.isSome ∧
      d'.operationalCa = caAfter d b ∧ d'.birthPem = d.birthPem := by
  unfold enrolls at h
  unfold pki2CheckAndEnroll caAfter opensCa
  simp only [Bool.and_eq_true, Option.isNone_iff_eq_none] at h
  obtain ⟨⟨⟨hpem, hbirth⟩, hserver⟩, h⟩ := h
  rcases henroll : b.enroll with _ | c
  · rw [henroll] at h
    cases h
  · rw [henroll] at h
    have hsaved : (estSaveCert c b.save d.operationalPem).2 = true := by rw [estSaveCert_eq]; exact h
    simp only [hpem] at hsaved
    have hfile := isSome_of_saved hsaved
    simp only [hpem, hbirth, hserver, hsaved, Option.isSome_none, Bool.false_eq_true, if_false,
      Bool.not_true]
    refine ⟨trivial, trivial, hfile, ?_, trivial⟩
    rcases hca : b.cacerts with _ | ca
    · rfl
    · simp only [estSaveCert_eq, Option.getD_some]

theorem pki2_of_found {d : Device} {b : Boot} (h : d.operationalPem.isSome = true) :
    (pki2CheckAndEnroll d b).1 = { d with cert := some .operational, ca := some .operational } := by
  unfold pki2CheckAndEnroll
  simp only [h, if_true]

theorem pki2_of_not_enrolls {d : Device} {b : Boot} (hpem : d.operationalPem = none)
    (hbirth : d.birthPem = true) (h : enrolls d b = false) :
    let d' := (pki2CheckAndEnroll d b).1
    d'.cert = some .birth ∧ d'.ca = some .birth ∧ d'.birthPem = true := by
  unfold enrolls at h
  unfold pki2CheckAndEnroll
  simp only [hpem, hbirth, Option.isNone_none, Option.isSome_none, Bool.true_and, Bool.false_eq_true,
    if_false, Bool.not_true] at h ⊢
  cases hserver : b.server with
  | false => exact ⟨rfl, rfl, rfl⟩
  | true =>
    rw [hserver, Bool.true_and] at h
    rcases henroll : b.enroll with _ | c
    · exact ⟨rfl, rfl, rfl⟩
    · rw [henroll] at h
      have hsaved : (estSaveCert c b.save (none : Option (List UInt8))).2 = false := by
        rw [estSaveCert_eq]
        exact h
      simp only [hsaved, Bool.not_true, Bool.not_false, Bool.false_eq_true, if_false, if_true]
      exact ⟨rfl, rfl, rfl⟩

/-! ### One boot, and a run of them -/

theorem boot_born {i : Install} (h : Born i) (b : Boot) : Born (boot i b) := by
  refine ⟨?_, h.key, h.ca⟩
  cases hpem : i.device.operationalPem with
  | some c =>
    have hfound : i.device.operationalPem.isSome = true := by rw [hpem]; rfl
    exact (congrArg Device.birthPem (pki2_of_found (b := b) hfound)).trans h.cert
  | none =>
    cases henrolls : enrolls i.device b with
    | true => exact (pki2_of_enrolls henrolls).2.2.2.2.trans h.cert
    | false => exact (pki2_of_not_enrolls hpem h.cert henrolls).2.2

theorem caExists_of_complete {i : Install} (h : Complete i) : caExists i .operational := by
  obtain ⟨ca, -, hfile⟩ := h
  change i.device.operationalCa.isSome
  rw [hfile]
  rfl

/-- The certificate is found, and the bundle is not touched. -/
theorem trusted_iff_of_found {i : Install} (b : Boot) (hfound : i.device.operationalPem.isSome = true) :
    Trusted i b ↔ CaKept i b := by
  have hnot : enrolls i.device b = false := by simp [enrolls, Option.isSome_iff_ne_none.mp hfound]
  have hdev : (boot i b).device =
      { i.device with cert := some .operational, ca := some .operational } := pki2_of_found hfound
  have hcomplete : Complete (boot i b) ↔ Complete i := by
    unfold Complete
    rw [hdev]
    simp only [boot, hnot, Bool.false_and, Bool.false_eq_true, if_false]
  constructor
  · intro ht
    refine ⟨fun _ => hcomplete.mp (ht.saved (by rw [hdev])), ?_, ?_, ?_⟩ <;>
      exact fun he => absurd he (by simp [hnot])
  · intro hk
    have hca := hcomplete.mpr (hk.found hfound)
    refine ⟨⟨.operational, by rw [hdev], ?_⟩, ⟨.operational, by rw [hdev], caExists_of_complete hca⟩,
      fun _ => hca, fun he => absurd he (by simp [hnot])⟩
    change (boot i b).device.operationalPem.isSome
    rw [hdev]
    exact hfound

/-- The boot stays with the birth files. -/
theorem trusted_iff_of_not_enrolls {i : Install} (h : Born i) {b : Boot}
    (hpem : i.device.operationalPem = none) (henrolls : enrolls i.device b = false) :
    Trusted i b ↔ CaKept i b := by
  obtain ⟨hcert, hca, hbirth⟩ := pki2_of_not_enrolls hpem h.cert henrolls
  refine iff_of_true ⟨⟨.birth, hcert, hbirth⟩, ⟨.birth, hca, h.ca⟩, ?_, ?_⟩ ⟨?_, ?_, ?_, ?_⟩
  · exact fun hop => nomatch hca.symm.trans hop
  · exact fun _ _ => hca
  · rw [hpem]
    exact nofun
  all_goals exact fun he => absurd he (by simp [henrolls])

theorem complete_boot_iff {i : Install} {b : Boot} (henrolls : enrolls i.device b = true) :
    Complete (boot i b) ↔ ∃ ca, (if opensCa b = true then b.cacerts else i.bundle) = some ca ∧
      caAfter i.device b = some ca := by
  unfold Complete
  simp only [boot, henrolls, Bool.true_and, (pki2_of_enrolls henrolls).2.2.2.1]

/-- A bundle that is saved has to be saved as a whole. -/
theorem complete_boot_of_opens {i : Install} {b : Boot} (henrolls : enrolls i.device b = true)
    (hopens : opensCa b = true) :
    Complete (boot i b) ↔ b.saveCa.Whole (b.cacerts.getD []) := by
  obtain ⟨ca, hgot⟩ : ∃ ca, b.cacerts = some ca := by
    cases hgot : b.cacerts with
    | none => simp [opensCa, hgot] at hopens
    | some ca => exact ⟨ca, rfl⟩
  rw [complete_boot_iff henrolls, if_pos hopens, caAfter, if_pos hopens, hgot, Option.getD_some,
    ← content_eq_iff]
  constructor
  · rintro ⟨ca', heq, hcontent⟩
    rw [Option.some.inj hcontent, Option.some.inj heq]
  · exact fun hcontent => ⟨ca, rfl, by rw [hcontent]⟩

/-- One that is not saved is the one from before. -/
theorem complete_boot_of_not_opens {i : Install} {b : Boot} (henrolls : enrolls i.device b = true)
    (hopens : opensCa b = false) : Complete (boot i b) ↔ Complete i := by
  rw [complete_boot_iff henrolls, if_neg (by simp [hopens]), caAfter, if_neg (by simp [hopens])]
  rfl

/-- The boot enrolls. -/
theorem trusted_iff_of_enrolls {i : Install} {b : Boot} (hpem : i.device.operationalPem = none)
    (henrolls : enrolls i.device b = true) : Trusted i b ↔ CaKept i b := by
  obtain ⟨hcert, hca, hsome, -, -⟩ := pki2_of_enrolls henrolls
  constructor
  · intro ht
    have hdone := ht.saved hca
    refine ⟨by rw [hpem]; exact nofun, fun _ => ?_,
      fun _ hopens => (complete_boot_of_opens henrolls hopens).mp hdone,
      fun _ hopens => (complete_boot_of_not_opens henrolls hopens).mp hdone⟩
    rw [Option.isSome_iff_ne_none]
    exact fun hnone => nomatch hca.symm.trans (ht.fallback henrolls hnone)
  · intro hk
    have hdone : Complete (boot i b) := by
      cases hopens : opensCa b with
      | true => exact (complete_boot_of_opens henrolls hopens).mpr (hk.whole henrolls hopens)
      | false => exact (complete_boot_of_not_opens henrolls hopens).mpr (hk.kept henrolls hopens)
    refine ⟨⟨.operational, hcert, hsome⟩, ⟨.operational, hca, caExists_of_complete hdone⟩,
      fun _ => hdone, ?_⟩
    intro _ hnone
    have hfetched := hk.fetched henrolls
    rw [hnone] at hfetched
    cases hfetched

/-- A boot is trusted exactly if the bundle is kept. -/
theorem trusted_iff {i : Install} (h : Born i) (b : Boot) : Trusted i b ↔ CaKept i b := by
  cases hpem : i.device.operationalPem with
  | some c => exact trusted_iff_of_found b (by rw [hpem]; rfl)
  | none =>
    cases henrolls : enrolls i.device b with
    | false => exact trusted_iff_of_not_enrolls h hpem henrolls
    | true => exact trusted_iff_of_enrolls hpem henrolls

/-- The boots of a run are all trusted exactly if all of them keep the bundle. -/
theorem boots_trusted_iff (i : Install) (h : Born i) (boots : List Boot) :
    EveryStep boot Trusted i boots ↔ EveryStep boot CaKept i boots :=
  everyStep_iff (fun _ b hb => trusted_iff hb b) (fun _ b hb _ => boot_born hb b) boots i h

/-! ### A bundle that cannot be had -/

/-- A device that has its birth files only. -/
def born : Install := ⟨factory, true, true, none⟩

/-- A boot that enrolls, with the bundle that it gets and how that is saved. -/
def enrollingWith (cacerts : Option (List UInt8)) (saveCa : Write) : Boot :=
  ⟨true, some [1, 2, 3, 4], ⟨true, 4, 4⟩, cacerts, saveCa⟩

theorem boots_trusted_saved :
    EveryStep boot Trusted born
      [enrollingWith (some [7, 8]) ⟨true, 2, 2⟩, enrollingWith none ⟨false, 0, 0⟩] := by
  refine (boots_trusted_iff born ⟨rfl, rfl, rfl⟩ _).mpr ?_
  rw [everyStep_cons, everyStep_cons]
  refine ⟨⟨fun h => absurd h (by decide), by decide, by decide, fun _ h => absurd h (by decide)⟩,
    ⟨fun _ => ⟨[7, 8], rfl, rfl⟩, ?_, ?_, ?_⟩,
    everyStep_nil _⟩
  all_goals exact fun he => absurd he (by decide)

/-- The server has a certificate, but no bundle: `operational.ca` is selected and does not exist. -/
theorem missing_ca_selected :
    let i := boot born (enrollingWith none ⟨true, 0, 0⟩)
    i.device.cert = some .operational ∧ i.device.ca = some .operational ∧
      i.device.operationalCa = none ∧
      ¬ ∀ boots, EveryStep boot Trusted born boots := by
  refine ⟨by decide, by decide, by decide, fun h => ?_⟩
  have hrun := h [enrollingWith none ⟨true, 0, 0⟩]
  rw [everyStep_cons] at hrun
  exact nomatch hrun.1.fallback (by decide) rfl

end Ucentral.Client.EnrollCa
