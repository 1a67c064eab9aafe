import Ucentral.Plat.Frame
import Ucentral.Proto.EthernetCfg

/-! Port speeds, from the number in a configuration to the text that the switch gets.

    A speed goes through two tables that know nothing of each other: the parser turns the number into
    an enumeration, the apply stage turns that into a text. The parser drops a failed lookup, so a
    number that it does not know ends as the first entry of the enumeration. -/

namespace Ucentral.Proto
open CJson Inet Router Plat Parse Effect

/-! ### The two tables -/

/-- The text is the decimal rendering of the number. -/
def Renders (v : Double) (str : String) : Prop := ∃ n : ℕ, v.eqNat n = true ∧ str = toString n

/-- One of the texts for speeds is the decimal rendering of the number. -/
def HasSpeedText (v : Double) : Prop := ∃ k str, speedToStr k = some str ∧ Renders v str

/-- The speeds with a text. -/
def textSpeeds : List ℕ := [10, 100, 1000, 2500, 5000, 10000, 25000, 40000, 100000]

/-- The speeds that the parser knows. -/
def parsedSpeeds : List ℕ := [10, 100, 1000, 2500, 5000, 10000, 25000, 100000]

theorem toString_inj {m n : ℕ} (h : toString m = toString n) : m = n := by
  have hm : (toString m).toList = Decimal.print m := String.toList_ofList
  have hn : (toString n).toList = Decimal.print n := String.toList_ofList
  refine Decimal.print_inj ?_
  rw [← hm, ← hn, h]

theorem renders_toString {v : Double} {n : ℕ} : Renders v (toString n) ↔ v.eqNat n = true := by
  constructor
  · rintro ⟨m, hm, heq⟩
    rwa [toString_inj heq]
  · exact fun h => ⟨n, h, rfl⟩

/-- The texts are the renderings of the speeds with a text. -/
theorem speedToStr_eq : ∀ k : ℕ, speedToStr k = textSpeeds[k]?.map toString
  | 0 | 1 | 2 | 3 | 4 | 5 | 6 | 7 | 8 => rfl
  | _ + 9 => rfl

theorem hasSpeedText_iff (v : Double) : HasSpeedText v ↔ ∃ n ∈ textSpeeds, v.eqNat n = true := by
  constructor
  · rintro ⟨k, str, hstr, hrenders⟩
    rw [speedToStr_eq, Option.map_eq_some_iff] at hstr
    obtain ⟨n, hn, rfl⟩ := hstr
    exact ⟨n, List.mem_of_getElem? hn, renders_toString.mp hrenders⟩
  · rintro ⟨n, hn, hv⟩
    obtain ⟨k, hk⟩ := List.mem_iff_getElem?.mp hn
    refine ⟨k, toString n, ?_, n, hv, rfl⟩
    rw [speedToStr_eq, hk]
    rfl

theorem speedToStr_of_parsed {v : Double} {n : ℕ} (hn : n ∈ parsedSpeeds) (hv : v.eqNat n = true) :
    speedToStr (protoPortSpeedToNum v) = some (toString n) := by
  have hother : ∀ m, m ≠ n → v.eqNat m = false := by
    intro m hm
    exact Bool.eq_false_iff.mpr (fun h => hm (Double.eqNat_unique h hv))
  unfold protoPortSpeedToNum
  simp only [parsedSpeeds, List.mem_cons, List.not_mem_nil, or_false] at hn
  rcases hn with rfl | rfl | rfl | rfl | rfl | rfl | rfl | rfl <;> simp [hv, hother] <;> rfl

/-- The text that the number of an entry ends in: right exactly for the speeds that the parser
    knows. -/
theorem speedToStr_protoPortSpeedToNum (v : Double) :
    ∃ n : ℕ, speedToStr (protoPortSpeedToNum v) = some (toString n) ∧
      (v.eqNat n = true ↔ ∃ n ∈ parsedSpeeds, v.eqNat n = true) := by
  by_cases hknown : ∃ n ∈ parsedSpeeds, v.eqNat n = true
  · obtain ⟨n, hn, hv⟩ := hknown
    exact ⟨n, speedToStr_of_parsed hn hv, iff_of_true hv ⟨n, hn, hv⟩⟩
  · have hnone : ∀ n ∈ parsedSpeeds, v.eqNat n = false := by
      intro n hn
      exact Bool.eq_false_iff.mpr (fun h => hknown ⟨n, hn, h⟩)
    simp only [parsedSpeeds, List.forall_mem_cons] at hnone
    refine ⟨10, ?_, iff_of_false (fun h => hknown ⟨10, by decide, h⟩) hknown⟩
    unfold protoPortSpeedToNum
    simp [hnone]
    rfl

/-! ### The speed of a port -/

/-- The port has the speed and the state of the entry. -/
def TakesFrom (eth : Json) (i : ℕ) (c : PlatCfg) : Prop :=
  (c.ports i).speed = protoPortSpeedToNum (getNumberValue (getItem (some eth) "speed")) ∧
    (c.ports i).state = protoPortStateToNum (isTrue (getItem (some eth) "enabled")) ∧
    c.portsToCfg i = true

/-- In an accepted configuration a port has the speed and the state of the entry in force on it. -/
theorem takesFrom_of_inForce {ports : Ports} {config : Ptr} {eth : Json} {i : ℕ}
    (hok : (cfgParse ports config {}).1 = .ok ()) (h : InForce ports config eth i) :
    TakesFrom eth i (cfgParse ports config {}).2.cfg := by
  obtain ⟨pre, post, hchildren, hsel, hpost⟩ := h
  have hafter := afterEntries_cfgEthernetParse (cfgParse_ok hok).1
  obtain ⟨hports, hbits⟩ := hafter.last pre eth post i hchildren hsel hpost
  obtain ⟨hports', hbits'⟩ := Prod.mk.inj (portPart_cfgParse hok)
  unfold TakesFrom
  rw [hports', hbits', hports, hbits]
  exact ⟨rfl, rfl, rfl⟩

/-! ### What is sent -/

section Sent

variable {δ : Type} (dv : Dev δ) (cfg : PlatCfg)

/-- The speeds sent are those of enabled ports. -/
def SpeedsOf (log : List (Op × Bool)) : Prop :=
  ∀ name str b, (Op.portSpeedSet name str, b) ∈ log → ∃ i, i < maxNumOfPorts ∧ name = pidToName i ∧
    (cfg.ports i).state ≠ 0 ∧ speedToStr (cfg.ports i).speed = some str

/-- The speed of a port was sent. -/
def SpeedSent (i : ℕ) (log : List (Op × Bool)) : Prop :=
  ∃ str b, speedToStr (cfg.ports i).speed = some str ∧ (Op.portSpeedSet (pidToName i) str, b) ∈ log

theorem frame_speedsOf : Frame dv (· ≠ .speed) fun s => SpeedsOf cfg s.log := by
  refine frame_of_log dv (fun op b l hop h => ?_)
  intro name str b' hmem
  rcases List.mem_append.mp hmem with hmem | hmem
  · exact h name str b' hmem
  · cases List.mem_singleton.mp hmem
    exact absurd rfl hop

/-- A condition on the log that more requests do not break is kept by everything. -/
theorem frame_speedSent (is : List ℕ) : Frame dv (fun _ => True)
    fun s => ∀ i ∈ is, (cfg.ports i).state ≠ 0 → SpeedSent cfg i s.log := by
  refine frame_of_log dv (P := fun log => ∀ i ∈ is, (cfg.ports i).state ≠ 0 → SpeedSent cfg i log) ?_
  intro op b l _ h i hi hstate
  obtain ⟨str, b', hstr, hmem⟩ := h i hi hstate
  exact ⟨str, b', hstr, List.mem_append_left _ hmem⟩

theorem keeps_platPortSpeedSet {i : ℕ} (hi : i < maxNumOfPorts) (hstate : (cfg.ports i).state ≠ 0) :
    Keeps (fun s => SpeedsOf cfg s.log) (platPortSpeedSet dv i (cfg.ports i).speed) := by
  unfold platPortSpeedSet
  cases hstr : speedToStr (cfg.ports i).speed with
  | none => exact keeps_fail _
  | some str =>
    refine keeps_ignore (keeps_gnmiRequest dv fun s hs name str' b hmem => ?_)
    rcases List.mem_append.mp hmem with hmem | hmem
    · exact hs name str' b hmem
    · cases List.mem_singleton.mp hmem
      exact ⟨i, hi, rfl, hstate, hstr⟩

/-- However the call ends, the speeds it has sent are those of enabled ports. -/
theorem keeps_platConfigApply_speedsOf (qs : Qsort) :
    Keeps (fun s => SpeedsOf cfg s.log) (platConfigApply dv qs cfg) := by
  have h := frame_speedsOf dv cfg
  refine keeps_bind (keeps_orFail ?_) (fun _ => keeps_bind (keeps_orFail ?_) fun _ => ?_)
  · exact h.keeps_configVlanApply (by decide) cfg (fun _ _ => by simp) (fun _ _ _ _ hs => hs)
  · refine triple_forM_mem _ (fun i hi => h.keeps_portApply (by decide) cfg i fun hstate => ?_)
    exact keeps_platPortSpeedSet dv cfg (Bitmap.mem_bitsSet.mp hi).1 hstate
  · exact h.keeps_afterPorts (fun _ ha => ha) (fun _ _ _ hs => hs) qs cfg

/-- A speed that has a text is sent. -/
theorem triple_platPortSpeedSet (i : ℕ) :
    Triple (fun _ => True) (platPortSpeedSet dv i (cfg.ports i).speed)
      (fun _ s => SpeedSent cfg i s.log) (fun _ => True) := by
  unfold platPortSpeedSet
  cases hstr : speedToStr (cfg.ports i).speed with
  | none => exact triple_fail _
  | some str =>
    dsimp only
    intro s _
    rw [Prog.ignore_run, gnmiRequest_run]
    exact ⟨str, _, hstr, List.mem_append_right _ (List.mem_singleton_self _)⟩

/-- A turn over a port that ends well has sent its speed if it is enabled. -/
theorem triple_portApply (done : List ℕ) (i : ℕ) :
    Triple (fun s => ∀ j ∈ done, (cfg.ports j).state ≠ 0 → SpeedSent cfg j s.log) (portApply dv cfg i)
      (fun _ s => ∀ j ∈ done ++ [i], (cfg.ports j).state ≠ 0 → SpeedSent cfg j s.log)
      (fun _ => True) := by
  have h := frame_speedSent dv cfg done
  have hafter := frame_speedSent dv cfg (done ++ [i])
  refine triple_bind (Keeps.anyFailure (keeps_ignore (h.keeps_request trivial))) (fun _ => ?_)
  refine triple_bind (Q := fun _ s => ∀ j ∈ done ++ [i], (cfg.ports j).state ≠ 0 →
    SpeedSent cfg j s.log) (triple_when (fun _ => triple_orFail ?_) (fun hoff s hs => ?_)) (fun _ => ?_)
  · have hspeed := (h.keeps_platPortSpeedSet trivial i (cfg.ports i).speed).and
      (triple_platPortSpeedSet dv cfg i)
    refine hspeed.imp (fun _ hs => ⟨hs, trivial⟩) (fun _ s hs j hj hstate => ?_) (fun _ _ => trivial)
    rcases List.mem_append.mp hj with hj | hj
    · exact hs.1 j hj hstate
    · cases List.mem_singleton.mp hj
      exact hs.2
  · intro j hj hstate
    rcases List.mem_append.mp hj with hj | hj
    · exact hs j hj hstate
    · cases List.mem_singleton.mp hj
      simp [hstate] at hoff
  · exact (hafter.keeps_afterSpeed trivial cfg i).anyFailure

/-- A call that returns 0 has sent the speeds of all enabled ports. -/
theorem triple_platConfigApply_sent (qs : Qsort) :
    Triple (fun _ => True) (platConfigApply dv qs cfg)
      (fun _ s => ∀ i ∈ cfg.portsToCfg.bitsSet maxNumOfPorts, (cfg.ports i).state ≠ 0 →
        SpeedSent cfg i s.log) (fun _ => True) := by
  have h := frame_speedSent dv cfg (cfg.portsToCfg.bitsSet maxNumOfPorts)
  have hports := triple_forM (E := fun _ => True)
    (I := fun done _ s => ∀ j ∈ done, (cfg.ports j).state ≠ 0 → SpeedSent cfg j s.log)
    (fun done i _ => triple_portApply dv cfg done i) (cfg.portsToCfg.bitsSet maxNumOfPorts) []
  refine triple_bind (Q := fun _ _ => True) ?_ (fun _ => ?_)
  · exact triple_of_cases (fun _ _ _ _ _ => trivial) (fun _ _ _ _ _ => trivial)
  refine triple_bind (triple_orFail (hports.pre fun s _ j hj => ?_)) (fun _ => ?_)
  · exact absurd hj List.not_mem_nil
  · exact (h.keeps_afterPorts (fun _ _ => trivial) (fun _ _ _ hs => hs) qs cfg).anyFailure

end Sent

/-! ### The numbers of a configuration -/

/-- The number given as the speed of an entry. -/
def SpeedIs (eth : Json) (v : Double) : Prop := getItem (some eth) "speed" = some (.num v)

/-- What is sent for a port is the rendering of the number in force on it, and a number that has no
    text makes the call fail. -/
structure SpeedsSent {δ : Type} (ports : Ports) (config : Ptr)
    (r : Except ℤ Unit × Traced (Env δ) (Op × Bool)) : Prop where
  rendered : ∀ eth i v, InForce ports config eth i → SpeedIs eth v → ∀ str b,
    (Op.portSpeedSet (pidToName i) str, b) ∈ r.2.log → Renders v str
  refused : ∀ eth ∈ children (getItem config "ethernet"), ∀ v, SpeedIs eth v → ¬ HasSpeedText v →
    Prog.retCode r.1 ≠ 0

/-- Every number is a speed with a text, and those in force on enabled ports are not 40000. -/
structure SpeedsKnown (ports : Ports) (config : Ptr) : Prop where
  text : ∀ eth ∈ children (getItem config "ethernet"), ∀ v, SpeedIs eth v →
    ∃ n ∈ textSpeeds, v.eqNat n = true
  parsed : ∀ eth i v, InForce ports config eth i → isTrue (getItem (some eth) "enabled") = true →
    SpeedIs eth v → v.eqNat 40000 = false

theorem mem_parsedSpeeds {n : ℕ} (h : n ∈ textSpeeds) (hne : n ≠ 40000) : n ∈ parsedSpeeds := by
  revert n
  decide

theorem mem_textSpeeds {n : ℕ} (h : n ∈ parsedSpeeds) : n ≠ 40000 := by
  revert n
  decide

theorem TakesFrom.state_ne_zero_iff {eth : Json} {i : ℕ} {c : PlatCfg} (h : TakesFrom eth i c) :
    (c.ports i).state ≠ 0 ↔ isTrue (getItem (some eth) "enabled") = true := by
  rw [h.2.1, protoPortStateToNum]
  cases isTrue (getItem (some eth) "enabled") <;> simp

theorem TakesFrom.speedToStr_eq {eth : Json} {i : ℕ} {c : PlatCfg} {v : Double} (h : TakesFrom eth i c)
    (hv : SpeedIs eth v) : speedToStr (c.ports i).speed = speedToStr (protoPortSpeedToNum v) := by
  rw [h.1, hv]
  rfl

/-- The text for a number, if it is known. -/
theorem renders_of_known {v : Double} {str : String}
    (hstr : speedToStr (protoPortSpeedToNum v) = some str)
    (htext : ∃ n ∈ textSpeeds, v.eqNat n = true) (hparsed : v.eqNat 40000 = false) :
    Renders v str := by
  obtain ⟨n, hn, hv⟩ := htext
  have hne : n ≠ 40000 := by
    rintro rfl
    rw [hv] at hparsed
    cases hparsed
  rw [speedToStr_of_parsed (mem_parsedSpeeds hn hne) hv] at hstr
  cases hstr
  exact renders_toString.mpr hv

/-- A number whose text is right is known. -/
theorem eqNat_of_renders {v : Double} {str : String}
    (hstr : speedToStr (protoPortSpeedToNum v) = some str) (h : Renders v str) :
    v.eqNat 40000 = false := by
  obtain ⟨n, hn, hiff⟩ := speedToStr_protoPortSpeedToNum v
  rw [hn] at hstr
  cases hstr
  obtain ⟨m, hm, hv⟩ := hiff.mp (renders_toString.mp h)
  exact Bool.eq_false_iff.mpr (fun h' => mem_textSpeeds hm (Double.eqNat_unique hv h'))

/-- For every accepted configuration, on every switch and from every cache: if the numbers are known,
    what is sent is right, however the call ends; and of the calls that return 0 only those are
    right. -/
theorem speeds_sent_iff {δ : Type} (dv : Dev δ) (qs : Qsort) (ports : Ports) (config : Ptr)
    (hok : (cfgParse ports config {}).1 = .ok ()) (e : Env δ) :
    (SpeedsKnown ports config → SpeedsSent ports config
      (platConfigApply dv qs (cfgParse ports config {}).2.cfg ⟨e, []⟩)) ∧
    (Prog.retCode (platConfigApply dv qs (cfgParse ports config {}).2.cfg ⟨e, []⟩).1 = 0 →
      SpeedsSent ports config
        (platConfigApply dv qs (cfgParse ports config {}).2.cfg ⟨e, []⟩) →
      SpeedsKnown ports config) := by
  generalize hcfg : (cfgParse ports config {}).2.cfg = cfg
  have htakes : ∀ {eth i}, InForce ports config eth i → TakesFrom eth i cfg :=
    fun h => hcfg ▸ takesFrom_of_inForce hok h
  constructor
  · intro hknown
    refine ⟨fun eth i v hforce hv str b hmem => ?_, fun eth heth v hv hno => ?_⟩
    · have hnone : SpeedsOf cfg [] := fun _ _ _ hmem => absurd hmem List.not_mem_nil
      have hlog := (keeps_platConfigApply_speedsOf dv cfg qs).final (s := ⟨e, []⟩) hnone id
      obtain ⟨j, hj, hname, hstate, hstr⟩ := hlog _ _ _ hmem
      have hi := hforce.selects.1
      unfold maxNumOfPorts at hi hj
      obtain rfl := pidToName_inj (by omega) (by omega) hname
      rw [(htakes hforce).speedToStr_eq hv] at hstr
      exact renders_of_known hstr (hknown.text eth hforce.mem v hv)
        (hknown.parsed eth i v hforce ((htakes hforce).state_ne_zero_iff.mp hstate) hv)
    · exact absurd ((hasSpeedText_iff v).mpr (hknown.text eth heth v hv)) hno
  · intro hret hsent
    refine ⟨fun eth heth v hv => ?_, fun eth i v hforce henabled hv => ?_⟩
    · refine (hasSpeedText_iff v).mp (by_contra fun hno => ?_)
      exact hsent.refused eth heth v hv hno hret
    · rcases hrun : platConfigApply dv qs cfg ⟨e, []⟩ with ⟨c | _, t⟩
      · exact absurd hret ((reports_platConfigApply dv qs cfg).retCode_ne_zero hrun)
      · rw [hrun] at hsent
        have hi : i ∈ cfg.portsToCfg.bitsSet maxNumOfPorts :=
          Bitmap.mem_bitsSet.mpr ⟨hforce.selects.1, (htakes hforce).2.2⟩
        obtain ⟨str, b, hstr, hmem⟩ := (triple_platConfigApply_sent dv cfg qs).ok trivial hrun i hi
          ((htakes hforce).state_ne_zero_iff.mpr henabled)
        rw [(htakes hforce).speedToStr_eq hv] at hstr
        exact eqNat_of_renders hstr (hsent.rendered eth i v hforce hv str b hmem)

/-! ### One port -/

def speedPorts : Ports := ⟨some ["Ethernet0"], 0, InAddr.zero⟩

/-- The only port is enabled, with a speed. -/
def speedEntry (speed : ℚ) : Json :=
  .obj [("select-ports", .arr [.str "Ethernet0"]), ("duplex", .str "full"), ("enabled", .bool true),
    ("speed", .num (.fin speed))]

def speedConfig (speed : ℚ) : Ptr :=
  some (.obj [("ethernet", .arr [speedEntry speed]), ("interfaces", .arr [])])

theorem speedConfig_inForce (speed : ℚ) :
    InForce speedPorts (speedConfig speed) (speedEntry speed) 0 := by
  have hselect : getItem (some (speedEntry speed)) "select-ports" = some (.arr [.str "Ethernet0"]) := by
    simp [speedEntry, getItem]
  refine ⟨[], [], ?_, ⟨by decide, ?_⟩, by simp⟩
  · simp [speedConfig, getItem]
  · rw [hselect]
    decide +kernel

theorem speeds_sent_iff_thousand :
    (Op.portSpeedSet "Ethernet0" "1000", true) ∈ (platConfigApply (constDev true) insertionQsort
      (cfgParse speedPorts (speedConfig 1000) {}).2.cfg applyStart).2.log ∧
    SpeedsSent speedPorts (speedConfig 1000) (platConfigApply (constDev true) insertionQsort
      (cfgParse speedPorts (speedConfig 1000) {}).2.cfg applyStart) := by
  have hnumber : ∀ eth ∈ children (getItem (speedConfig 1000) "ethernet"), ∀ v, SpeedIs eth v →
      v = .fin 1000 := by
    intro eth heth v hv
    cases List.mem_singleton.mp heth
    cases hv
    rfl
  refine ⟨by decide +kernel, (speeds_sent_iff (constDev true) insertionQsort speedPorts (speedConfig 1000)
    (by decide +kernel) ⟨{}, ()⟩).1 ⟨fun eth heth v hv => ?_, fun eth i v hforce _ hv => ?_⟩⟩
  · rw [hnumber eth heth v hv]
    exact ⟨1000, by decide, by decide +kernel⟩
  · rw [hnumber eth hforce.mem v hv]
    decide +kernel

theorem not_speedsSent_of_ten {δ : Type} {speed : ℚ}
    {r : Except ℤ Unit × Traced (Env δ) (Op × Bool)}
    (hmem : (Op.portSpeedSet "Ethernet0" "10", true) ∈ r.2.log) (hne : speed ≠ 10) :
    ¬ SpeedsSent speedPorts (speedConfig speed) r := by
  intro hsent
  have hname : pidToName 0 = "Ethernet0" := by decide +kernel
  rw [← hname] at hmem
  have hspeed : SpeedIs (speedEntry speed) (.fin speed) := by simp [SpeedIs, speedEntry, getItem]
  have hten := hsent.rendered _ 0 (.fin speed) (speedConfig_inForce speed) hspeed "10" true hmem
  have heq : (Double.fin speed).eqNat 10 = true := renders_toString.mp hten
  simp only [Double.eqNat, beq_iff_eq] at heq
  exact hne heq

/-- 40000, which has a text, and 1234, which has none: both are accepted, 0 is returned and the switch
    gets 10. -/
theorem speeds_sent_ten :
    (cfgParse speedPorts (speedConfig 40000) {}).1 = .ok () ∧
    Prog.retCode (platConfigApply (constDev true) insertionQsort
      (cfgParse speedPorts (speedConfig 40000) {}).2.cfg applyStart).1 = 0 ∧
    ¬ SpeedsSent speedPorts (speedConfig 40000) (platConfigApply (constDev true) insertionQsort
      (cfgParse speedPorts (speedConfig 40000) {}).2.cfg applyStart) ∧
    (cfgParse speedPorts (speedConfig 1234) {}).1 = .ok () ∧
    Prog.retCode (platConfigApply (constDev true) insertionQsort
      (cfgParse speedPorts (speedConfig 1234) {}).2.cfg applyStart).1 = 0 ∧
    ¬ SpeedsSent speedPorts (speedConfig 1234) (platConfigApply (constDev true) insertionQsort
      (cfgParse speedPorts (speedConfig 1234) {}).2.cfg applyStart) := by
  refine ⟨by decide +kernel, by decide +kernel, ?_, by decide +kernel, by decide +kernel, ?_⟩
  · exact not_speedsSent_of_ten (by decide +kernel) (by decide +kernel)
  · exact not_speedsSent_of_ten (by decide +kernel) (by decide +kernel)

end Ucentral.Proto
