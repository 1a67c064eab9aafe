import Ucentral.Proto.EthernetCfg
import Ucentral.Proto.RadiusCfg

/-! The integers of a configuration, and the fields that they are stored in.

    The fields are narrower than the numbers, and each is filled by a conversion. Nothing compares the
    number with the field, so a number that does not fit is stored as another one. -/

namespace Ucentral.Proto
open CJson Inet Router Plat Parse

/-! ### The fields -/

/-- The fields of a port that take a number. -/
inductive PortField
  | powerLimit | guestVlan | unauthenticatedVlan

namespace PortField

def bits : PortField → ℕ
  | powerLimit => 32
  | guestVlan => 16
  | unauthenticatedVlan => 16

/-- The member of an entry. -/
def member (eth : Json) : PortField → Ptr
  | powerLimit => getItem (getItem (some eth) "poe") "power-limit"
  | guestVlan => getItem (getItem (some eth) "ieee8021x") "guest-vlan"
  | unauthenticatedVlan => getItem (getItem (some eth) "ieee8021x") "unauthenticated-vlan"

def value (p : PlatPort) : PortField → ℕ
  | powerLimit => p.poe.powerLimit
  | guestVlan => p.dot1x.guestVid
  | unauthenticatedVlan => p.dot1x.authFailVid

end PortField

/-- The fields of an STP instance. -/
inductive StpField
  | priority | forwardDelay | helloTime | maxAge

namespace StpField

def member (iter : Json) : StpField → Ptr
  | priority => getItem (some iter) "priority"
  | forwardDelay => getItem (some iter) "forward_delay"
  | helloTime => getItem (some iter) "hello_time"
  | maxAge => getItem (some iter) "max_age"

def value (s : StpInstance) : StpField → ℕ
  | priority => s.priority
  | forwardDelay => s.forwardDelay
  | helloTime => s.helloTime
  | maxAge => s.maxAge

end StpField

inductive Field
  | port (f : PortField)
  | stp (f : StpField)
  | usageThreshold
  | radiusPort
  | syslogPort

/-- The number is one of the field's type. -/
def Field.Fits : Field → ℤ → Prop
  | .port f, n => 0 ≤ n ∧ n < 2 ^ f.bits
  | .stp _, n => 0 ≤ n ∧ n < 2 ^ 16
  | .usageThreshold, n => 0 ≤ n ∧ n < 2 ^ 8
  | .radiusPort, n => 0 ≤ n ∧ n < 2 ^ 16
  | .syslogPort, n => -2 ^ 31 ≤ n ∧ n < 2 ^ 31

/-- An integer as an `int`. -/
def asInt (n : ℤ) : ℤ := if -2 ^ 31 ≤ n ∧ n < 2 ^ 31 then n else -2 ^ 31

/-- What becomes of an integer on its way into the field; the STP numbers go through an `int`. -/
def Field.narrow : Field → ℤ → ℤ
  | .port f, n => n % 2 ^ f.bits
  | .stp _, n => asInt n % 2 ^ 16
  | .usageThreshold, n => n % 2 ^ 8
  | .radiusPort, n => n % 2 ^ 16
  | .syslogPort, n => asInt n

theorem narrow_eq_iff (f : Field) (n : ℤ) : f.narrow n = n ↔ f.Fits n := by
  have hmod : ∀ m : ℤ, 0 < m → (n % m = n ↔ 0 ≤ n ∧ n < m) := by
    intro m hm
    constructor
    · intro h
      rw [← h]
      exact ⟨Int.emod_nonneg _ hm.ne', Int.emod_lt_of_pos _ hm⟩
    · rintro ⟨h0, hlt⟩
      exact Int.emod_eq_of_lt h0 hlt
  cases f with
  | port f => exact hmod _ (Int.pow_pos (by decide))
  | usageThreshold => exact hmod _ (by decide)
  | radiusPort => exact hmod _ (by decide)
  | syslogPort =>
    simp only [Field.narrow, Field.Fits, asInt]
    split <;> omega
  | stp f =>
    simp only [Field.narrow, Field.Fits, asInt]
    split <;> omega

/-! ### The numbers of a configuration -/

/-- The member is an integer. -/
def IsInt (j : Ptr) (n : ℤ) : Prop := j = some (.num (.fin (n : ℚ)))

def entriesOf (config : Ptr) : List Json := children (getItem config "ethernet")

def stpIters (config : Ptr) : List Json :=
  children (getItem (getItem (getItem config "switch") "loop-detection") "instances")

def radiusIters (config : Ptr) : List Json := radiusOf (getItem config "switch")

def thresholdOf (config : Ptr) : Ptr :=
  getItem (getItem (getItem config "unit") "poe") "usage-threshold"

def syslogPortOf (config : Ptr) : Ptr :=
  getItem (getItem (getItem config "services") "log") "port"

/-- An integer that the configuration has for a field. A RADIUS port of 0 stands for the default. -/
inductive Given (config : Ptr) : Field → ℤ → Prop
  | port {eth n} (f : PortField) : eth ∈ entriesOf config → IsInt (f.member eth) n →
    Given config (.port f) n
  | stp {iter n} (f : StpField) : iter ∈ stpIters config → IsInt (f.member iter) n →
    Given config (.stp f) n
  | usageThreshold {n} : IsInt (thresholdOf config) n → Given config .usageThreshold n
  | radiusPort {iter n} : iter ∈ radiusIters config → IsInt (authPortOf iter) n → n ≠ 0 →
    Given config .radiusPort n
  | syslogPort {n} : IsInt (syslogPortOf config) n → Given config .syslogPort n

/-- The same with the value that the field has. The settings of an entry are first put into a structure
    of their own, and from there to the ports. -/
inductive Stored (ports : Ports) (config : Ptr) (c : PlatCfg) : Field → ℤ → ℤ → Prop
  | scratch {eth n} (f : PortField) : eth ∈ entriesOf config → IsInt (f.member eth) n →
    Stored ports config c (.port f) n (f.value (ethernetPort eth {}).2)
  | port {eth n i} (f : PortField) : InForce ports config eth i → IsInt (f.member eth) n →
    Stored ports config c (.port f) n (f.value (c.ports i))
  | stp {iter n} (f : StpField) : iter ∈ stpIters config → IsInt (f.member iter) n →
    Stored ports config c (.stp f) n (f.value (c.stpInstances (stpId iter).toNat))
  | usageThreshold {n} : IsInt (thresholdOf config) n →
    Stored ports config c .usageThreshold n c.unit.usageThreshold
  | radiusPort {iter n host} {k : ℕ} : (radiusIters config)[k]? = some iter →
    c.radiusHosts.reverse[k]? = some host → IsInt (authPortOf iter) n → n ≠ 0 →
    Stored ports config c .radiusPort n host.authPort
  | syslogPort {n l} : IsInt (syslogPortOf config) n → l ∈ c.logCfg →
    Stored ports config c .syslogPort n l.port

/-- Every integer is stored as it is. -/
def NumbersKept (ports : Ports) (config : Ptr) (c : PlatCfg) : Prop :=
  ∀ f n v, Stored ports config c f n v → v = n

/-! ### What the sections store -/

theorem value_settingsOf (eth : Json) (f : PortField) :
    f.value (settingsOf eth) = (getNumberValue (f.member eth)).toUInt f.bits := by
  cases f <;> rfl

theorem value_stpInstance (iter : Json) (old : StpInstance) (f : StpField) :
    f.value (stpInstance iter old) = stpValue (f.member iter) (f.value old) := by
  cases f <;> rfl

/-- An id occurs once, so an instance is made of one element. -/
theorem stpInstancesGo_ok {iters : List Json} {seen : Bitmap} {c : PlatCfg}
    (h : (stpInstancesGo seen iters c).1 = .ok ()) :
    (∀ i, seen i = true → (stpInstancesGo seen iters c).2.stpInstances i = c.stpInstances i) ∧
    ∀ iter ∈ iters, ∃ old,
      (stpInstancesGo seen iters c).2.stpInstances (stpId iter).toNat = stpInstance iter old := by
  induction iters generalizing seen c with
  | nil => exact ⟨fun _ _ => rfl, by simp⟩
  | cons iter iters ih =>
    rw [stpInstancesGo] at h ⊢
    obtain ⟨-, heq⟩ := need_bind_ok h
    rw [heq] at h ⊢
    obtain ⟨hseen, heq⟩ := need_bind_ok h
    rw [heq] at h ⊢
    rw [fill_bind] at h ⊢
    obtain ⟨hkeep, hall⟩ := ih h
    have hnot : seen (stpId iter).toNat = false := by simpa using hseen
    constructor
    · intro i hi
      have hne : i ≠ (stpId iter).toNat := by
        rintro rfl
        rw [hnot] at hi
        cases hi
      rw [hkeep i (by simp [Bitmap.setBit, hi])]
      exact Function.update_of_ne hne _ _
    · intro iter' hiter'
      rcases List.mem_cons.mp hiter' with rfl | hmem
      · refine ⟨c.stpInstances (stpId iter').toNat, ?_⟩
        rw [hkeep _ (by simp [Bitmap.setBit])]
        exact Function.update_self _ _ _
      · exact hall iter' hmem

theorem ends_stpSections (config : Ptr) :
    Ends (fun c : PlatCfg => ∀ iter ∈ stpIters config, ∃ old,
      c.stpInstances (stpId iter).toNat = stpInstance iter old) (stpSections config) := by
  refine ends_bind fun _ => ends_bind fun _ => ends_bind fun _ => ?_
  refine ends_bind_of_keep (fun c _ h => (stpInstancesGo_ok h).2) (fun _ c hc => ?_)
  have hleaves := leaves_when (b := (getItem (getItem config "switch") "port-isolation").isSome)
    (leaves_cfgSwitchPortIsolationParse PlatCfg.stpInstances (fun _ _ => rfl)
      (getItem (getItem config "switch") "port-isolation")) c
  intro iter hiter
  rw [hleaves]
  exact hc iter hiter

theorem turns_cfgServiceLogParse (log : Ptr) :
    Turns SyslogCfg.port (fun _ => (getNumberValue (getItem log "port")).toInt)
      (cfgServiceLogParse log) := by
  have hport : ∀ (f : SyslogCfg → SyslogCfg), (∀ l, (f l).port = l.port) →
      Leaves SyslogCfg.port (Parser.fill f) := fun f hf => leaves_fill hf
  refine turns_leaves_bind (leaves_pass _) (fun _ => ?_)
  refine turns_bind _ id (turns_fill fun _ => rfl) (fun _ => Leaves.turns ?_) (fun _ => rfl)
  refine leaves_bind (leaves_when (leaves_bind (leaves_pass _) fun _ => hport _ fun _ => rfl))
    (fun _ => ?_)
  refine leaves_bind (hport _ fun _ => rfl) (fun _ => ?_)
  refine leaves_bind (leaves_when (leaves_bind (leaves_pass _) fun _ => hport _ fun _ => rfl))
    (fun _ => ?_)
  refine leaves_bind (leaves_when ?_) (fun _ => leaves_when ?_)
  · refine leaves_bind (leaves_pass _) (fun _ => leaves_bind (leaves_pass _) fun _ => ?_)
    exact leaves_bind (leaves_pass _) (fun _ => hport _ fun _ => rfl)
  · refine leaves_bind (leaves_pass _) (fun _ => leaves_bind (leaves_pass _) fun _ => ?_)
    exact hport _ fun _ => rfl

theorem ends_cfgServicesParse (services : Ptr) :
    Ends (fun c : PlatCfg => (getItem services "log").isSome = true →
      ∃ l, c.logCfg = [l] ∧ l.port = (getNumberValue (getItem (getItem services "log") "port")).toInt)
      (cfgServicesParse services) := by
  refine ends_bind_of_keep (ends_when ?_) (fun _ c hc hlog => ?_)
  · refine ends_bind fun _ c _ h => ?_
    obtain ⟨hlog, heq⟩ := scratch_bind_ok h
    rw [heq]
    exact ⟨_, rfl, turns_cfgServiceLogParse _ {} () hlog⟩
  · have hleaves := leaves_enabledServices PlatCfg.logCfg (fun _ _ => rfl) services c
    obtain ⟨l, hl, hport⟩ := hc hlog
    exact ⟨l, hleaves.trans hl, hport⟩

theorem turns_cfgUnitParse (unit : Ptr) :
    Turns PlatUnit.usageThreshold
      (if isNumber (getItem (getItem unit "poe") "usage-threshold") then
        fun _ => (getNumberValue (getItem (getItem unit "poe") "usage-threshold")).toUInt 8 else id)
      (cfgUnitParse unit) := by
  have hother : ∀ (f : PlatUnit → PlatUnit), (∀ u, (f u).usageThreshold = u.usageThreshold) →
      Leaves PlatUnit.usageThreshold (Parser.fill f) := fun f hf => leaves_fill hf
  refine turns_leaves_bind (leaves_when (leaves_bind (leaves_pass _) fun _ => hother _ fun _ => rfl))
    (fun _ => ?_)
  refine turns_bind _ id (turns_when (turns_fill fun _ => rfl)) (fun _ => Leaves.turns ?_) (fun _ => rfl)
  refine leaves_bind (leaves_when (leaves_bind (leaves_pass _) fun _ => hother _ fun _ => rfl))
    (fun _ => ?_)
  exact leaves_bind (leaves_when (hother _ fun _ => rfl)) (fun _ => leaves_when (hother _ fun _ => rfl))

/-- The parts of an accepted configuration that the numbers are in. -/
structure SectionsStored (config : Ptr) (c : PlatCfg) : Prop where
  stp : ∀ iter ∈ stpIters config, ∃ old, c.stpInstances (stpId iter).toNat = stpInstance iter old
  radius : c.radiusHosts = ((radiusIters config).map radiusHostOf).reverse
  log : (getItem (getItem config "services") "log").isSome = true →
    ∃ l, c.logCfg = [l] ∧ l.port = (getNumberValue (syslogPortOf config)).toInt
  unit : isNumber (thresholdOf config) = true →
    c.unit.usageThreshold = (getNumberValue (thresholdOf config)).toUInt 8

theorem ends_inCfg {Q : PlatCfg → Prop} {x : Parser PlatCfg Unit} (h : Ends Q x) :
    Ends (fun d : Draft => Q d.cfg) (inCfg x) :=
  fun d a hok => h d.cfg a hok

theorem ends_stp (ports : Ports) (config : Ptr) :
    Ends (fun d : Draft => ∀ iter ∈ stpIters config, ∃ old,
      d.cfg.stpInstances (stpId iter).toNat = stpInstance iter old) (lastSections ports config) := by
  refine ends_bind_of_keep (ends_inCfg (ends_bind fun _ => ends_stpSections config)) (fun _ d hd => ?_)
  have hleaves : (restSections ports config d).2.cfg.stpInstances = d.cfg.stpInstances :=
    leaves_restSections PlatCfg.stpInstances (fun _ _ _ _ _ _ => rfl) ports config d
  intro iter hiter
  rw [hleaves]
  exact hd iter hiter

theorem ends_log (ports : Ports) (config : Ptr) :
    Ends (fun d : Draft => (getItem (getItem config "services") "log").isSome = true →
      ∃ l, d.cfg.logCfg = [l] ∧ l.port = (getNumberValue (syslogPortOf config)).toInt)
      (lastSections ports config) := by
  have hservices := (ends_when (b := (getItem config "services").isSome)
    (ends_inCfg (ends_cfgServicesParse (getItem config "services")))).imp fun d hd hlog =>
      hd (isSome_of_member hlog) hlog
  refine ends_bind fun _ => ends_bind fun _ => ends_bind_of_keep hservices (fun _ d hd hlog => ?_)
  have hleaves := leaves_bind (leaves_when (b := (getItem config "unit").isSome)
    (leaves_inUnit PlatCfg.logCfg (fun _ _ => rfl) (cfgUnitParse (getItem config "unit"))))
    (fun _ => leaves_routerSection PlatCfg.logCfg (fun _ _ _ => rfl) ports config) d
  obtain ⟨l, hl, hport⟩ := hd hlog
  exact ⟨l, hleaves.trans hl, hport⟩

theorem ends_unit (ports : Ports) (config : Ptr) :
    Ends (fun d : Draft => isNumber (thresholdOf config) = true →
      d.cfg.unit.usageThreshold = (getNumberValue (thresholdOf config)).toUInt 8)
      (lastSections ports config) := by
  have hunit : Ends (fun u : PlatUnit => isNumber (thresholdOf config) = true →
      u.usageThreshold = (getNumberValue (thresholdOf config)).toUInt 8)
      (cfgUnitParse (getItem config "unit")) := by
    intro u a h hnumber
    rw [turns_cfgUnitParse _ u a h]
    unfold thresholdOf at hnumber ⊢
    rw [if_pos hnumber]
  have hsection : Ends (fun d : Draft => isNumber (thresholdOf config) = true →
      d.cfg.unit.usageThreshold = (getNumberValue (thresholdOf config)).toUInt 8)
      (Parser.when (getItem config "unit").isSome (inUnit (cfgUnitParse (getItem config "unit")))) := by
    have hwithin : Ends (fun d : Draft => isNumber (thresholdOf config) = true →
        d.cfg.unit.usageThreshold = (getNumberValue (thresholdOf config)).toUInt 8)
        (inUnit (cfgUnitParse (getItem config "unit"))) := fun d a h => hunit d.cfg.unit a h
    refine (ends_when hwithin).imp fun d hd hnumber => hd ?_ hnumber
    exact isSome_of_member (isSome_of_member (isSome_of_isNumber hnumber))
  refine ends_bind fun _ => ends_bind fun _ => ends_bind fun _ => ?_
  refine ends_bind_of_keep hsection (fun _ d hd hnumber => ?_)
  have hleaves : (_ : Draft).cfg.unit = d.cfg.unit :=
    leaves_routerSection PlatCfg.unit (fun _ _ _ => rfl) ports config d
  exact (congrArg PlatUnit.usageThreshold hleaves).trans (hd hnumber)

theorem radiusHosts_interfacesDraft (ports : Ports) (config : Ptr) :
    (interfacesDraft ports config).cfg.radiusHosts = [] := by
  have hinterfaces := leaves_cfgInterfacesParse PlatCfg.radiusHosts (fun _ _ _ _ => rfl) ports
    (getItem config "interfaces") (ethernetDraft ports config)
  have hethernet := leaves_cfgEthernetParse PlatCfg.radiusHosts (fun _ _ _ => rfl) ports
    (getItem config "ethernet") (platformDraft ports)
  refine hinterfaces.trans (hethernet.trans ?_)
  exact part_platformPorts PlatCfg.radiusHosts (fun _ _ _ => rfl) ports {}

theorem turns_radius (ports : Ports) (config : Ptr) :
    Turns (fun d : Draft => d.cfg.radiusHosts)
      (((radiusIters config).map radiusHostOf).reverse ++ ·) (lastSections ports config) := by
  refine turns_bind _ id ?_ (fun _ => Leaves.turns ?_) (fun _ => rfl)
  · intro d a h
    refine turns_bind _ id (turns_cfgSwitchIeee8021xParse _) (fun _ => Leaves.turns ?_) (fun _ => rfl)
      d.cfg a h
    exact leaves_stpSections PlatCfg.radiusHosts (fun _ _ _ _ => rfl) config
  · exact leaves_restSections PlatCfg.radiusHosts (fun _ _ _ _ _ _ => rfl) ports config

theorem sectionsStored {ports : Ports} {config : Ptr} (hok : (cfgParse ports config {}).1 = .ok ()) :
    SectionsStored config (cfgParse ports config {}).2.cfg := by
  have heq := (cfgParse_ok hok).2.2
  rw [heq] at hok ⊢
  have hradius := turns_radius ports config _ () hok
  dsimp only at hradius
  rw [radiusHosts_interfacesDraft, List.append_nil] at hradius
  exact ⟨ends_stp ports config _ () hok, hradius, ends_log ports config _ () hok,
    ends_unit ports config _ () hok⟩

/-! ### Numbers and fields -/

section Accepted

variable {ports : Ports} {config : Ptr}

/-- The settings of each entry of an accepted array. -/
theorem settings_of_mem (hok : (cfgParse ports config {}).1 = .ok ()) {eth : Json}
    (heth : eth ∈ entriesOf config) : (ethernetPort eth {}).2 = settingsOf eth := by
  obtain ⟨d, hd⟩ := forM_ok_mem (cfgParse_ok hok).1 heth
  obtain ⟨-, heq⟩ := need_bind_ok hd
  unfold ethernetElem at hd
  rw [heq] at hd
  exact settings_ethernetPort (scratch_bind_ok hd).1

theorem value_of_isInt {eth : Json} {n : ℤ} {f : PortField} (h : IsInt (f.member eth) n) :
    (f.value (settingsOf eth) : ℤ) = (Field.port f).narrow n := by
  rw [value_settingsOf, h]
  exact Double.toUInt_intCast _ n

theorem stpValue_of_isInt {j : Ptr} {n : ℤ} (h : IsInt j n) (old : ℕ) :
    (stpValue j old : ℤ) = asInt n % 2 ^ 16 := by
  have htoInt : (getNumberValue j).toInt = asInt n := by
    rw [h]
    exact Double.toInt_intCast n
  have hsome : j.isNone = false := by
    rw [h]
    rfl
  rw [stpValue, htoInt, hsome]
  exact Int.toNat_of_nonneg (Int.emod_nonneg _ (by decide))

theorem isNumber_of_isInt {j : Ptr} {n : ℤ} (h : IsInt j n) : isNumber j = true := by
  rw [h]
  rfl

theorem noNumber_of_isInt {j : Ptr} {n : ℤ} (h : IsInt j n) (hn : n ≠ 0) : noNumber j = false := by
  rw [h]
  simpa [noNumber, getNumberValue, Double.isZero] using hn

theorem log_of_isInt {n : ℤ} (h : IsInt (syslogPortOf config) n) :
    (getItem (getItem config "services") "log").isSome = true :=
  isSome_of_member (isSome_of_isNumber (isNumber_of_isInt h))

/-- What is in a field is the number, narrowed. -/
theorem stored_narrow (hok : (cfgParse ports config {}).1 = .ok ()) {f : Field} {n v : ℤ}
    (h : Stored ports config (cfgParse ports config {}).2.cfg f n v) : v = f.narrow n := by
  have hsections := sectionsStored hok
  cases h with
  | scratch f heth hint =>
    rw [settings_of_mem hok heth]
    exact value_of_isInt hint
  | port f hforce hint =>
    obtain ⟨pre, post, heq, hsel, hpost⟩ := hforce
    have hafter := afterEntries_cfgEthernetParse (cfgParse_ok hok).1
    have hports := (hafter.last pre _ post _ heq hsel hpost).1
    have hpart := congrArg Prod.fst (portPart_cfgParse hok)
    simp only [portPart] at hpart
    rw [hpart, hports]
    have hvalue : ∀ eth i, f.value (portOf eth i) = f.value (settingsOf eth) := by
      intro eth i
      cases f <;> rfl
    rw [hvalue]
    exact value_of_isInt hint
  | stp f hiter hint =>
    obtain ⟨old, hold⟩ := hsections.stp _ hiter
    rw [hold, value_stpInstance]
    exact stpValue_of_isInt hint _
  | usageThreshold hint =>
    rw [hsections.unit (isNumber_of_isInt hint), hint]
    exact Double.toUInt_intCast 8 n
  | radiusPort hiter hhost hint hn =>
    rw [hsections.radius, List.reverse_reverse, List.getElem?_map, hiter] at hhost
    obtain rfl := Option.some.inj hhost
    simp only [radiusHostOf, noNumber_of_isInt hint hn, if_false, Bool.false_eq_true]
    rw [hint]
    exact Double.toUInt_intCast 16 n
  | syslogPort hint hl =>
    obtain ⟨l, hlog, hport⟩ := hsections.log (log_of_isInt hint)
    rw [hlog] at hl
    obtain rfl := List.mem_singleton.mp hl
    rw [hport, hint]
    exact Double.toInt_intCast n

theorem given_of_stored {c : PlatCfg} {f : Field} {n v : ℤ} (h : Stored ports config c f n v) :
    Given config f n := by
  cases h with
  | scratch f heth hint => exact .port f heth hint
  | port f hforce hint => exact .port f hforce.mem hint
  | stp f hiter hint => exact .stp f hiter hint
  | usageThreshold hint => exact .usageThreshold hint
  | radiusPort hiter _ hint hn => exact .radiusPort (List.mem_of_getElem? hiter) hint hn
  | syslogPort hint _ => exact .syslogPort hint

/-- Every number has a field. -/
theorem stored_of_given (hok : (cfgParse ports config {}).1 = .ok ()) {f : Field} {n : ℤ}
    (h : Given config f n) : ∃ v, Stored ports config (cfgParse ports config {}).2.cfg f n v := by
  have hsections := sectionsStored hok
  cases h with
  | port f heth hint => exact ⟨_, .scratch f heth hint⟩
  | stp f hiter hint => exact ⟨_, .stp f hiter hint⟩
  | usageThreshold hint => exact ⟨_, .usageThreshold hint⟩
  | @radiusPort iter _ hiter hint hn =>
    obtain ⟨k, hk⟩ := List.mem_iff_getElem?.mp hiter
    have hhost : (cfgParse ports config {}).2.cfg.radiusHosts.reverse[k]? = some (radiusHostOf iter) := by
      rw [hsections.radius, List.reverse_reverse, List.getElem?_map, hk]
      rfl
    exact ⟨_, .radiusPort hk hhost hint hn⟩
  | syslogPort hint =>
    obtain ⟨l, hlog, -⟩ := hsections.log (log_of_isInt hint)
    exact ⟨_, .syslogPort hint (by rw [hlog]; exact List.mem_singleton_self l)⟩

end Accepted

/-- Of an accepted configuration, exactly the numbers that fit are kept. -/
theorem numbersKept_iff (ports : Ports) (config : Ptr) (hok : (cfgParse ports config {}).1 = .ok ()) :
    NumbersKept ports config (cfgParse ports config {}).2.cfg ↔
      ∀ f n, Given config f n → f.Fits n := by
  constructor
  · intro hkept f n hgiven
    obtain ⟨v, hv⟩ := stored_of_given hok hgiven
    rw [← narrow_eq_iff, ← stored_narrow hok hv]
    exact hkept f n v hv
  · intro hfit f n v hv
    rw [stored_narrow hok hv, narrow_eq_iff]
    exact hfit f n (given_of_stored hv)

def narrowPorts : Ports := ⟨some ["Ethernet0"], 0, InAddr.zero⟩

/-- A guest VLAN and a threshold. -/
def narrowConfig (vlan threshold : ℚ) : Ptr :=
  some (.obj [("ethernet", .arr [.obj [("select-ports", .arr [.str "Ethernet0"]),
      ("duplex", .str "full"), ("speed", .num (.fin 1000)),
      ("ieee8021x", .obj [("guest-vlan", .num (.fin vlan))])]]),
    ("interfaces", .arr []), ("unit", .obj [("poe", .obj [("usage-threshold", .num (.fin threshold))])])])

theorem isInt_num {q : ℚ} {m n : ℤ} (h : IsInt (some (.num (.fin q))) n) (hq : q = m) : n = m := by
  obtain rfl : q = (n : ℚ) := by simpa [IsInt] using h
  exact_mod_cast hq

theorem numbersKept_small :
    NumbersKept narrowPorts (narrowConfig 10 80) (cfgParse narrowPorts (narrowConfig 10 80) {}).2.cfg := by
  refine (numbersKept_iff narrowPorts (narrowConfig 10 80) (by decide +kernel)).mpr ?_
  intro f n h
  cases h with
  | port f heth hint =>
    cases List.mem_singleton.mp heth
    cases f with
    | powerLimit => cases hint
    | unauthenticatedVlan => cases hint
    | guestVlan =>
      obtain rfl : n = 10 := isInt_num hint rfl
      exact ⟨by decide, by decide⟩
  | stp f hiter hint => cases hiter
  | usageThreshold hint =>
    obtain rfl : n = 80 := isInt_num hint rfl
    exact ⟨by decide, by decide⟩
  | radiusPort hiter hint hn => cases hiter
  | syslogPort hint => cases hint

/-- Both are accepted; the VLAN becomes 10 and the threshold 44. -/
theorem numbers_wrap :
    (cfgParse narrowPorts (narrowConfig 65546 300) {}).1 = .ok () ∧
    ((cfgParse narrowPorts (narrowConfig 65546 300) {}).2.cfg.ports 0).dot1x.guestVid = 10 ∧
    (cfgParse narrowPorts (narrowConfig 65546 300) {}).2.cfg.unit.usageThreshold = 44 ∧
    ¬ NumbersKept narrowPorts (narrowConfig 65546 300)
      (cfgParse narrowPorts (narrowConfig 65546 300) {}).2.cfg := by
  have hthreshold : (cfgParse narrowPorts (narrowConfig 65546 300) {}).2.cfg.unit.usageThreshold = 44 := by
    decide +kernel
  refine ⟨by decide +kernel, by decide +kernel, hthreshold, ?_⟩
  intro hkept
  have hstored := hkept _ _ _ (.usageThreshold (n := 300) (by simp [IsInt, thresholdOf, narrowConfig, getItem]))
  rw [hthreshold] at hstored
  cases hstored

end Ucentral.Proto
