import Ucentral.Proto.Sections
import Ucentral.Proto.Selection

/-! `ethernet`: what a port has after an accepted configuration.

    The settings of an entry depend on the entry alone. They are put at each port that it selects, over
    whatever an entry before it has left there, so a port has the settings of the last entry that
    selects it. -/

namespace Ucentral.Proto
open CJson Inet Router Plat Parse

/-! ### The settings of an entry -/

/-- What `poe` says; nothing is set where it says nothing. -/
def poeOf (poe : Ptr) : PortPoe where
  isAdminModeUp := isTrue (getItem poe "admin-mode")
  doReset := isTrue (getItem poe "do-reset")
  detectionMode := strOf (getItem poe "detection")
  isDetectionModeSet := (getItem poe "detection").isSome
  powerLimit := (getNumberValue (getItem poe "power-limit")).toUInt 32
  isPowerLimitSet := (getItem poe "power-limit").isSome
  priority := strOf (getItem poe "priority")
  isPrioritySet := (getItem poe "priority").isSome

/-- What `ieee8021x` says. -/
def dot1xOf (ieee8021x : Ptr) : PortDot1x where
  authFailVid := (getNumberValue (getItem ieee8021x "unauthenticated-vlan")).toUInt 16
  guestVid := (getNumberValue (getItem ieee8021x "guest-vlan")).toUInt 16
  controlMode :=
    (controlModeOf (strOf (getItem ieee8021x "authentication-mode"))).getD .forceAuthorized
  hostMode := (hostModeOf (strOf (getItem ieee8021x "host-mode"))).getD .multiAuth
  isAuthenticator := isTrue (getItem ieee8021x "is-authenticator")

/-- The settings, on no port yet. -/
def settingsOf (eth : Json) : PlatPort where
  speed := protoPortSpeedToNum (getNumberValue (getItem (some eth) "speed"))
  duplex := protoPortDuplexToNum (strOf (getItem (some eth) "duplex"))
  state := protoPortStateToNum (isTrue (getItem (some eth) "enabled"))
  poe := poeOf (getItem (some eth) "poe")
  dot1x := dot1xOf (getItem (some eth) "ieee8021x")

theorem turns_fill_id {σ : Type} (f : σ → σ) : Turns id f (Parser.fill f) := turns_fill fun _ => rfl

theorem turns_cfgEthernetPoeParse (poe : Ptr) : ∃ g : PlatPort → PlatPort,
    Turns id g (cfgEthernetPoeParse poe) ∧ g {} = { poe := poeOf poe } := by
  have hset := fun f : PortPoe → PortPoe => turns_fill_id (setPoe f)
  refine ⟨_, turns_optional (hset _) (turns_optional (hset _) (turns_optional
    (turns_leaves_bind (leaves_pass _) fun _ => hset _) (turns_optional (hset _)
    (turns_leaves_bind (leaves_pass _) fun _ =>
      turns_when (turns_leaves_bind (leaves_pass _) fun _ => hset _))))), ?_⟩
  rw [poeOf]
  -- each field is read from a member of its own
  cases getItem poe "admin-mode" <;> cases getItem poe "do-reset" <;>
    cases getItem poe "detection" <;> cases getItem poe "power-limit" <;>
    cases getItem poe "priority" <;> rfl

theorem turns_cfgEthernetIeee8021xParse (ieee8021x : Ptr) :
    Turns id (setDot1x fun _ => dot1xOf ieee8021x) (cfgEthernetIeee8021xParse ieee8021x) := by
  have hset := fun f : PortDot1x → PortDot1x => turns_fill_id (setDot1x f)
  have hmode : ∀ (c : Check) (f : PortDot1x → PortDot1x) (v : Option String), Turns id (setDot1x f)
      (text v >>= fun _ => c.pass >>= fun _ => Parser.fill (setDot1x f)) := fun _ f _ =>
    turns_leaves_bind (leaves_pass _) fun _ => turns_leaves_bind (leaves_pass _) fun _ => hset f
  refine turns_bind _ _ (hset _) (fun _ => turns_optional (hset _) (turns_optional (hmode _ _ _)
    (turns_optional (hmode _ _ _) (turns_optional (hset _)
    (turns_leaves_bind (leaves_pass _) fun _ => turns_when (hset _)))))) (fun p => ?_)
  rw [dot1xOf]
  cases getItem ieee8021x "is-authenticator" <;> cases getItem ieee8021x "authentication-mode" <;>
    cases getItem ieee8021x "host-mode" <;> cases getItem ieee8021x "guest-vlan" <;>
    cases getItem ieee8021x "unauthenticated-vlan" <;> rfl

theorem settings_ethernetPort {eth : Json} (h : (ethernetPort eth {}).1 = .ok ()) :
    (ethernetPort eth {}).2 = settingsOf eth := by
  obtain ⟨g, hpoe, hg⟩ := turns_cfgEthernetPoeParse (getItem (some eth) "poe")
  have hdot1x := turns_cfgEthernetIeee8021xParse (getItem (some eth) "ieee8021x")
  have hport : ∃ k, Turns id k (ethernetPort eth) ∧ k {} = settingsOf eth := by
    refine ⟨_, turns_optional hpoe (turns_optional hdot1x
      (turns_leaves_bind (leaves_pass _) fun _ => turns_fill_id _)), ?_⟩
    have hfirst : (if (getItem (some eth) "poe").isSome then g else id) {} =
        ({ poe := poeOf (getItem (some eth) "poe") } : PlatPort) := by
      rw [← hg]
      cases hnone : getItem (some eth) "poe" with
      | some v => rfl
      | none =>
        rw [hnone] at hg
        exact hg.symm
    rw [hfirst, settingsOf]
    cases getItem (some eth) "ieee8021x" <;> rfl
  obtain ⟨k, hk, hval⟩ := hport
  exact (hk {} () h).trans hval

/-! ### The entry that is in force on a port -/

/-- The entry selects the port. -/
def Selects (ports : Ports) (eth : Json) (i : ℕ) : Prop :=
  i < maxNumOfPorts ∧
    (cfgEthernetSelectPortsParse ports (getItem (some eth) "select-ports") {}).2.bmap i = true

/-- The entry is the last one that selects the port. -/
def InForce (ports : Ports) (config : Ptr) (eth : Json) (i : ℕ) : Prop :=
  ∃ pre post, children (getItem config "ethernet") = pre ++ eth :: post ∧ Selects ports eth i ∧
    ∀ e ∈ post, ¬ Selects ports e i

theorem InForce.mem {ports : Ports} {config : Ptr} {eth : Json} {i : ℕ}
    (h : InForce ports config eth i) : eth ∈ children (getItem config "ethernet") := by
  obtain ⟨pre, post, hchildren, -⟩ := h
  rw [hchildren]
  exact List.mem_append_right _ List.mem_cons_self

theorem InForce.selects {ports : Ports} {config : Ptr} {eth : Json} {i : ℕ}
    (h : InForce ports config eth i) : Selects ports eth i := by
  obtain ⟨pre, post, -, hsel, -⟩ := h
  exact hsel

/-- The settings at one port. -/
def placeAt (port : PlatPort) (c : PlatCfg) (i : ℕ) : PlatCfg :=
  { c with
    ports := Function.update c.ports i { port with name := pidToName i, fpId := i }
    portsToCfg := c.portsToCfg.setBit i }

theorem placeAt_other (port : PlatPort) (c : PlatCfg) {i j : ℕ} (h : i ≠ j) :
    (placeAt port c j).ports i = c.ports i ∧ (placeAt port c j).portsToCfg i = c.portsToCfg i := by
  refine ⟨Function.update_of_ne h _ _, ?_⟩
  simp [placeAt, Bitmap.setBit, h]

/-- Other ports keep what they have. -/
theorem foldl_placeAt_other (port : PlatPort) {i : ℕ} : ∀ (is : List ℕ) (c : PlatCfg), i ∉ is →
    (is.foldl (placeAt port) c).ports i = c.ports i ∧
      (is.foldl (placeAt port) c).portsToCfg i = c.portsToCfg i
  | [], _, _ => ⟨rfl, rfl⟩
  | j :: is, c, hi => by
      rw [List.mem_cons, not_or] at hi
      obtain ⟨hports, hbit⟩ := foldl_placeAt_other port is (placeAt port c j) hi.2
      rw [List.foldl_cons, hports, hbit]
      exact placeAt_other port c hi.1

/-- The selected ports get the settings. -/
theorem foldl_placeAt_selected (port : PlatPort) {i : ℕ} : ∀ (is : List ℕ) (c : PlatCfg), i ∈ is →
    (is.foldl (placeAt port) c).ports i = { port with name := pidToName i, fpId := i } ∧
      (is.foldl (placeAt port) c).portsToCfg i = true
  | [], _, hi => absurd hi List.not_mem_nil
  | j :: is, c, hi => by
      rw [List.foldl_cons]
      by_cases hmem : i ∈ is
      · exact foldl_placeAt_selected port is _ hmem
      · obtain rfl := (List.mem_cons.mp hi).resolve_right hmem
        obtain ⟨hports, hbit⟩ := foldl_placeAt_other port is (placeAt port c i) hmem
        rw [hports, hbit]
        refine ⟨Function.update_self _ _ _, ?_⟩
        simp [placeAt, Bitmap.setBit]

/-- The settings of an entry at a port. -/
def portOf (eth : Json) (i : ℕ) : PlatPort := { settingsOf eth with name := pidToName i, fpId := i }

/-- An entry that is accepted puts its settings at the ports it selects, and nowhere else. -/
theorem ethernetElem_ok {ports : Ports} {eth : Json} {d : Draft}
    (h : (ethernetElem ports eth d).1 = .ok ()) (i : ℕ) :
    (Selects ports eth i → (ethernetElem ports eth d).2.cfg.ports i = portOf eth i ∧
      (ethernetElem ports eth d).2.cfg.portsToCfg i = true) ∧
    (¬ Selects ports eth i → (ethernetElem ports eth d).2.cfg.ports i = d.cfg.ports i ∧
      (ethernetElem ports eth d).2.cfg.portsToCfg i = d.cfg.portsToCfg i) := by
  unfold ethernetElem at h ⊢
  obtain ⟨-, heq⟩ := need_bind_ok h
  rw [heq] at h ⊢
  obtain ⟨hport, heq⟩ := scratch_bind_ok h
  rw [heq] at h ⊢
  obtain ⟨-, heq⟩ := scratch_bind_ok h
  rw [heq] at h ⊢
  obtain ⟨-, heq⟩ := need_bind_ok h
  rw [heq, settings_ethernetPort hport]
  constructor
  · intro hsel
    exact foldl_placeAt_selected (settingsOf eth) _ d.cfg (Bitmap.mem_bitsSet.mpr hsel)
  · intro hsel
    exact foldl_placeAt_other (settingsOf eth) _ d.cfg (fun hmem => hsel (Bitmap.mem_bitsSet.mp hmem))

/-- What some entries have made of the ports. -/
structure AfterEntries (ports : Ports) (before : PlatCfg) (done : List Json) (c : PlatCfg) : Prop where
  last : ∀ pre eth post i, done = pre ++ eth :: post → Selects ports eth i →
    (∀ e ∈ post, ¬ Selects ports e i) → c.ports i = portOf eth i ∧ c.portsToCfg i = true
  other : ∀ i, (∀ e ∈ done, ¬ Selects ports e i) →
    c.ports i = before.ports i ∧ c.portsToCfg i = before.portsToCfg i

theorem afterEntries_nil (ports : Ports) (c : PlatCfg) : AfterEntries ports c [] c := by
  refine ⟨?_, fun i _ => ⟨rfl, rfl⟩⟩
  intro pre eth post i hnil
  simp at hnil

/-- One more entry. -/
theorem AfterEntries.step {ports : Ports} {before : PlatCfg} {done : List Json} {d : Draft} {eth : Json}
    (h : AfterEntries ports before done d.cfg) (hok : (ethernetElem ports eth d).1 = .ok ()) :
    AfterEntries ports before (done ++ [eth]) (ethernetElem ports eth d).2.cfg := by
  constructor
  · intro pre e post i heq hsel hpost
    rcases List.eq_nil_or_concat post with rfl | ⟨post, e', rfl⟩
    · have hlast : eth = e := by simpa using (List.append_inj' heq rfl).2
      subst hlast
      exact (ethernetElem_ok hok i).1 hsel
    · have hsplit : done ++ [eth] = (pre ++ e :: post) ++ [e'] := by simpa using heq
      obtain ⟨hdone, hlast⟩ := List.append_inj' hsplit rfl
      obtain rfl : eth = e' := by simpa using hlast
      have hno : ¬ Selects ports eth i := hpost eth (by simp)
      obtain ⟨hports, hbit⟩ := (ethernetElem_ok hok i).2 hno
      rw [hports, hbit]
      exact h.last pre e post i hdone hsel (fun x hx => hpost x (by simp [hx]))
  · intro i hno
    obtain ⟨hports, hbit⟩ := (ethernetElem_ok hok i).2 (hno eth (by simp))
    rw [hports, hbit]
    exact h.other i (fun e he => hno e (by simp [he]))

/-- All entries. -/
theorem AfterEntries.run {ports : Ports} {before : PlatCfg} (l : List Json) {done : List Json}
    {d : Draft} (h : AfterEntries ports before done d.cfg)
    (hok : (forM l (ethernetElem ports) d).1 = .ok ()) :
    AfterEntries ports before (done ++ l) (forM l (ethernetElem ports) d).2.cfg := by
  induction l generalizing done d with
  | nil =>
    rw [List.append_nil]
    exact h
  | cons eth l ih =>
    rw [List.forM_cons] at hok ⊢
    obtain ⟨_, helem, heq⟩ := Parser.bind_ok hok
    rw [heq] at hok ⊢
    have hrun := ih (h.step helem) hok
    rwa [List.append_assoc] at hrun

theorem afterEntries_cfgEthernetParse {ports : Ports} {config : Ptr}
    (hok : (cfgEthernetParse ports (getItem config "ethernet") (platformDraft ports)).1 = .ok ()) :
    AfterEntries ports (platformDraft ports).cfg (children (getItem config "ethernet"))
      (ethernetDraft ports config).cfg :=
  (afterEntries_nil ports _).run _ hok

/-! ### The ports of the platform -/

section Platform

variable {ks : List UInt16} {junk : ℕ} {stack : InAddr}

/-- One port of the platform gets its name and its number. -/
theorem platformPorts_cons (k : UInt16) (ks : List UInt16) (junk : ℕ) (stack : InAddr) (c : PlatCfg) :
    platformPorts (platform (k :: ks) junk stack) c = platformPorts (platform ks junk stack)
      { c with
        ports := Function.update c.ports k.toNat
          { c.ports k.toNat with name := pidToName k.toNat, fpId := k.toNat }
        portsToCfg := c.portsToCfg.setBit k.toNat } := by
  have hpid : (platform (k :: ks) junk stack).pid (portName k) = k.toNat := by
    rw [Ports.pid, nameToPid_portName]
    rfl
  have hnames : (platform (k :: ks) junk stack).names = portName k :: ks.map portName := rfl
  unfold platformPorts
  rw [hnames, List.foldl_cons, hpid]
  rfl

theorem platformPorts_apply (ks : List UInt16) (junk : ℕ) (stack : InAddr) (c : PlatCfg) (i : ℕ) :
    ((platformPorts (platform ks junk stack) c).ports i =
      if i ∈ ks.map UInt16.toNat then { c.ports i with name := pidToName i, fpId := i }
      else c.ports i) ∧
    ((platformPorts (platform ks junk stack) c).portsToCfg i = true ↔
      i ∈ ks.map UInt16.toNat ∨ c.portsToCfg i = true) := by
  induction ks generalizing c with
  | nil => exact ⟨rfl, by simp [platformPorts, platform, Ports.names]⟩
  | cons k ks ih =>
    rw [platformPorts_cons]
    obtain ⟨hports, hbit⟩ := ih _
    rw [hports, hbit]
    by_cases hi : i = k.toNat
    · subst hi
      simp [Bitmap.setBit]
    · simp [Bitmap.setBit, hi]

/-- An entry only selects ports of the platform. -/
theorem mem_of_selects {eth : Json} {i : ℕ} (h : Selects (platform ks junk stack) eth i) :
    i ∈ ks.map UInt16.toNat := by
  have hbit := h.2
  rw [cfgEthernetSelectPortsParse_run ks junk stack] at hbit
  generalize children (getItem (some eth) "select-ports") = ps at hbit
  have hnamed : setBits Bitmap.clear (namedPorts (platform ks junk stack) ps) i = true →
      i ∈ ks.map UInt16.toNat := by
    intro hset
    exact (setBits_pids ks junk stack ps i).mp ((setBits_apply _ _ _).mpr (Or.inr hset))
  rcases hend : ps.findSome? (entryEnd (platform ks junk stack)) with _ | (e | u)
  · rw [hend] at hbit
    exact hnamed hbit
  · rw [hend] at hbit
    exact hnamed hbit
  · rw [hend] at hbit
    exact (setBits_pids ks junk stack ps i).mp hbit

/-- A port of the platform has the settings of the last entry that selects it, or only its name and
    number if none does; there are no other ports. -/
structure PortsConfigured (ks : List UInt16) (ports : Ports) (config : Ptr) (c : PlatCfg) : Prop where
  selected : ∀ eth i, InForce ports config eth i →
    c.ports i = { settingsOf eth with name := pidToName i, fpId := i }
  unselected : ∀ i ∈ ks.map UInt16.toNat,
    (∀ eth ∈ children (getItem config "ethernet"), ¬ Selects ports eth i) →
    c.ports i = { name := pidToName i, fpId := i }
  other : ∀ i, i ∉ ks.map UInt16.toNat → c.ports i = {} ∧ c.portsToCfg i = false
  toCfg : ∀ i, i ∈ c.portsToCfg.bitsSet maxNumOfPorts ↔ i ∈ ks.map UInt16.toNat

/-- A list has a last element with a property, or none with it. -/
theorem exists_last {α : Type} {P : α → Prop} (l : List α) :
    (∀ x ∈ l, ¬ P x) ∨ ∃ pre x post, l = pre ++ x :: post ∧ P x ∧ ∀ y ∈ post, ¬ P y := by
  induction l with
  | nil => exact Or.inl (by simp)
  | cons a l ih =>
    rcases ih with hno | ⟨pre, x, post, rfl, hx, hpost⟩
    · by_cases ha : P a
      · exact Or.inr ⟨[], a, l, rfl, ha, hno⟩
      · exact Or.inl (by simpa using ⟨ha, hno⟩)
    · exact Or.inr ⟨a :: pre, x, post, rfl, hx, hpost⟩

theorem AfterEntries.configured (hks : ∀ k ∈ ks, k.toNat < maxNumOfPorts) {config : Ptr}
    {c : PlatCfg} (h : AfterEntries (platform ks junk stack) (platformDraft (platform ks junk stack)).cfg
      (children (getItem config "ethernet")) c) :
    PortsConfigured ks (platform ks junk stack) config c := by
  have hstart : ∀ i, _ := fun i => platformPorts_apply ks junk stack {} i
  have hbit : ∀ i, c.portsToCfg i = true ↔ i ∈ ks.map UInt16.toNat := by
    intro i
    rcases exists_last (P := (Selects (platform ks junk stack) · i))
      (children (getItem config "ethernet")) with hno | ⟨pre, eth, post, heq, hsel, hpost⟩
    · rw [(h.other i hno).2]
      refine (hstart i).2.trans (or_iff_left ?_)
      simp [Bitmap.clear]
    · exact iff_of_true (h.last pre eth post i heq hsel hpost).2 (mem_of_selects hsel)
  constructor
  · rintro eth i ⟨pre, post, heq, hsel, hpost⟩
    exact (h.last pre eth post i heq hsel hpost).1
  · intro i hi hno
    rw [(h.other i hno).1]
    exact (hstart i).1.trans (if_pos hi)
  · intro i hi
    have hno : ∀ e ∈ children (getItem config "ethernet"), ¬ Selects (platform ks junk stack) e i :=
      fun e _ hsel => hi (mem_of_selects hsel)
    constructor
    · rw [(h.other i hno).1]
      exact (hstart i).1.trans (if_neg hi)
    · exact Bool.eq_false_iff.mpr (fun htrue => hi ((hbit i).mp htrue))
  · intro i
    rw [Bitmap.mem_bitsSet, hbit i]
    refine and_iff_right_of_imp (fun hi => ?_)
    obtain ⟨k, hk, rfl⟩ := List.mem_map.mp hi
    exact hks k hk

/-- For every array that `cfg_ethernet_parse` accepts, and from there to the end of `cfg_parse`. -/
theorem portsConfigured (ks : List UInt16) (hks : ∀ k ∈ ks, k.toNat < maxNumOfPorts) (junk : ℕ)
    (stack : InAddr) (config : Ptr)
    (hok : (cfgEthernetParse (platform ks junk stack) (getItem config "ethernet")
      (platformDraft (platform ks junk stack))).1 = .ok ()) :
    PortsConfigured ks (platform ks junk stack) config
      (ethernetDraft (platform ks junk stack) config).cfg ∧
    ((cfgParse (platform ks junk stack) config {}).1 = .ok () →
      PortsConfigured ks (platform ks junk stack) config
        (cfgParse (platform ks junk stack) config {}).2.cfg) := by
  have hethernet := afterEntries_cfgEthernetParse hok
  refine ⟨hethernet.configured hks, fun hparse => ?_⟩
  have hpart := portPart_cfgParse hparse
  obtain ⟨hports, hbits⟩ := Prod.mk.inj hpart
  refine AfterEntries.configured hks ⟨?_, ?_⟩
  · rw [hports, hbits]
    exact hethernet.last
  · rw [hports, hbits]
    exact hethernet.other

end Platform

/-- Two entries that both select the second port. -/
def overlapConfig : Ptr :=
  some (.obj [("ethernet", .arr [
    .obj [("select-ports", .arr [.str "Ethernet0", .str "Ethernet1"]), ("duplex", .str "full"),
      ("enabled", .bool true), ("speed", .num (.fin 1000)),
      ("ieee8021x", .obj [("is-authenticator", .bool true)])],
    .obj [("select-ports", .arr [.str "Ethernet1"]), ("duplex", .str "half"),
      ("speed", .num (.fin 100))]]), ("interfaces", .arr [])])

theorem portsConfigured_overlap :
    PortsConfigured [0, 1, 2] (platform [0, 1, 2] 0 .zero) overlapConfig
      (cfgParse (platform [0, 1, 2] 0 .zero) overlapConfig {}).2.cfg :=
  (portsConfigured [0, 1, 2] (by simp [maxNumOfPorts]) 0 .zero overlapConfig (by decide +kernel)).2
    (by decide +kernel)

end Ucentral.Proto
