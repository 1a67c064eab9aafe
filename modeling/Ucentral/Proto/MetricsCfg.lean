import Ucentral.Proto.CfgParse

/-! The state event of `metrics`: when it is on, and with which reports.

    The check that is to switch the event off where no type is given has one condition the wrong way
    round: it switches off the event with clients only, and leaves on the one without any type. Nothing
    is reset where the interval is 0. -/

namespace Ucentral.Proto
open CJson Plat Parse

/-! ### The types -/

/-- The name is among the types. -/
def hasType (name : String) (types : List Json) : Bool :=
  types.any fun t => isString (some t) && strOf (some t) == name

theorem hasType_iff {name : String} {types : List Json} :
    hasType name types = true ↔ Json.str name ∈ types := by
  rw [hasType, List.any_eq_true]
  constructor
  · rintro ⟨t, hmem, ht⟩
    rw [Bool.and_eq_true, beq_iff_eq] at ht
    cases t with
    | str s =>
      obtain rfl : s = name := ht.2
      exact hmem
    | _ => cases ht.1
  · intro hmem
    exact ⟨_, hmem, by simp [isString, strOf]⟩

/-- One type; what is no string changes nothing. -/
theorem statisticsType_run (t : Json) (m : MetricsCfg) :
    statisticsType t m = (.ok (), { m with
      clientsEnabled := m.clientsEnabled || hasType "clients" [t]
      lldpEnabled := m.lldpEnabled || hasType "lldp" [t] }) := by
  rw [statisticsType]
  cases t with
  | str s =>
    have hname : ∀ name, hasType name [Json.str s] = (s == name) := by
      intro name
      simp [hasType, isString, strOf]
    rw [hname, hname]
    rfl
  | _ =>
    simp only [hasType, List.any_cons, isString, getStringValue, Option.isSome_none, Bool.false_and,
      List.any_nil, Bool.or_false]
    rfl

theorem hasType_cons (name : String) (t : Json) (types : List Json) :
    hasType name (t :: types) = (hasType name [t] || hasType name types) := by
  simp [hasType]

theorem forM_statisticsType (types : List Json) (m : MetricsCfg) :
    forM types statisticsType m = (.ok (), { m with
      clientsEnabled := m.clientsEnabled || hasType "clients" types
      lldpEnabled := m.lldpEnabled || hasType "lldp" types }) := by
  induction types generalizing m with
  | nil =>
    have hnil : ∀ name, hasType name [] = false := fun _ => rfl
    rw [hnil, hnil, Bool.or_false, Bool.or_false]
    rfl
  | cons t types ih =>
    rw [List.forM_cons]
    refine (Parser.bind_of_ok (statisticsType_run t m)).trans ((ih _).trans ?_)
    simp only [hasType_cons _ t types, Bool.or_assoc]

/-! ### The state event -/

def intervalOf (metrics : Ptr) : Ptr := getItem (getItem metrics "statistics") "interval"

def typesOf (metrics : Ptr) : Ptr := getItem (getItem metrics "statistics") "types"

def maxMacOf (metrics : Ptr) : Ptr := getItem (getItem metrics "statistics") "wired-clients-max-num"

/-- The event before the check. -/
def stateRead (metrics : Ptr) (types : List Json) (n : ℤ) : MetricsCfg where
  stateEnabled := decide (n ≠ 0)
  lldpEnabled := hasType "lldp" types
  clientsEnabled := hasType "clients" types
  stateInterval := (Double.fin (n : ℚ)).toUInt 64
  maxMacCount :=
    if isNumber (maxMacOf metrics) then (getNumberValue (maxMacOf metrics)).toUInt 32 else 2000

/-- The fields of the state event. -/
structure SameState (m m' : MetricsCfg) : Prop where
  enabled : m.stateEnabled = m'.stateEnabled
  lldp : m.lldpEnabled = m'.lldpEnabled
  clients : m.clientsEnabled = m'.clientsEnabled
  interval : m.stateInterval = m'.stateInterval
  maxMac : m.maxMacCount = m'.maxMacCount
  lookup : m.publicIpLookup = m'.publicIpLookup

/-- `statistics`, once its two members are there. -/
def statisticsPart (metrics : Ptr) : Parser MetricsCfg Unit := do
  forM (children (typesOf metrics)) statisticsType
  Parser.fill fun m => dropClientsOnly { m with
    stateInterval := (getNumberValue (intervalOf metrics)).toUInt 64
    stateEnabled := !(getNumberValue (intervalOf metrics)).isZero
    maxMacCount :=
      if isNumber (maxMacOf metrics) then (getNumberValue (maxMacOf metrics)).toUInt 32 else 2000 }

/-- `health`. -/
def healthPart (metrics : Ptr) : Parser MetricsCfg Unit :=
  let health := getItem (getItem metrics "health") "interval"
  Parser.when health.isSome
    (Parser.fill fun m => { m with
      healthInterval := (getNumberValue health).toUInt 64
      healthEnabled := !(getNumberValue health).isZero })

theorem cfgMetricsParse_eq (metrics : Ptr) : cfgMetricsParse metrics =
    Parser.fill (fun _ => {}) >>= fun _ =>
      Parser.when ((intervalOf metrics).isSome && (typesOf metrics).isSome) (statisticsPart metrics) >>=
        fun _ => healthPart metrics := rfl

theorem healthPart_run (metrics : Ptr) (m : MetricsCfg) :
    (healthPart metrics m).1 = .ok () ∧ SameState (healthPart metrics m).2 m := by
  unfold healthPart
  cases (getItem (getItem metrics "health") "interval").isSome with
  | false => exact ⟨rfl, rfl, rfl, rfl, rfl, rfl, rfl⟩
  | true => exact ⟨rfl, rfl, rfl, rfl, rfl, rfl, rfl⟩

/-- The event after `cfg_metrics_parse`, which never refuses. -/
theorem cfgMetricsParse_run {metrics : Ptr} {types : List Json} {n : ℤ}
    (hinterval : intervalOf metrics = some (.num (.fin (n : ℚ))))
    (htypes : typesOf metrics = some (.arr types)) (m : MetricsCfg) :
    (cfgMetricsParse metrics m).1 = .ok () ∧
      SameState (cfgMetricsParse metrics m).2 (dropClientsOnly (stateRead metrics types n)) := by
  have hzero : (!(Double.fin (n : ℚ)).isZero) = decide (n ≠ 0) := by
    by_cases hn : n = 0
    · simp [hn, Double.isZero]
    · simp [hn, Double.isZero]
  have hstatistics : statisticsPart metrics {} = (.ok (), dropClientsOnly (stateRead metrics types n)) := by
    unfold statisticsPart
    rw [hinterval, htypes]
    refine (Parser.bind_of_ok (forM_statisticsType types {})).trans ?_
    change ((.ok (), dropClientsOnly { lldpEnabled := hasType "lldp" types
                                       clientsEnabled := hasType "clients" types
                                       stateInterval := (Double.fin (n : ℚ)).toUInt 64
                                       stateEnabled := !(Double.fin (n : ℚ)).isZero
                                       maxMacCount := _ }) : Except Stop Unit × MetricsCfg) = _
    rw [hzero]
    rfl
  have hrun : cfgMetricsParse metrics m =
      healthPart metrics (dropClientsOnly (stateRead metrics types n)) := by
    rw [cfgMetricsParse_eq, fill_bind, hinterval, htypes]
    exact Parser.bind_of_ok hstatistics
  rw [hrun]
  exact healthPart_run metrics _

/-! ### What is asked for -/

/-- The event is on exactly if there is an interval and a type, and then it is as given; otherwise all
    of it is zero. -/
structure StateAsGiven (types : List Json) (n : ℤ) (m : MetricsCfg) : Prop where
  enabled : m.stateEnabled = true ↔ n ≠ 0 ∧ (Json.str "lldp" ∈ types ∨ Json.str "clients" ∈ types)
  given : m.stateEnabled = true → (m.lldpEnabled = true ↔ Json.str "lldp" ∈ types) ∧
    (m.clientsEnabled = true ↔ Json.str "clients" ∈ types) ∧ (m.stateInterval : ℤ) = n
  zero : m.stateEnabled = false → m.lldpEnabled = false ∧ m.clientsEnabled = false ∧
    m.stateInterval = 0 ∧ m.maxMacCount = 0 ∧ m.publicIpLookup = ""

theorem SameState.asGiven_iff {m m' : MetricsCfg} (h : SameState m m') (types : List Json) (n : ℤ) :
    StateAsGiven types n m ↔ StateAsGiven types n m' := by
  obtain ⟨henabled, hlldp, hclients, hinterval, hmax, hlookup⟩ := h
  constructor
  · rintro ⟨h1, h2, h3⟩
    rw [henabled, hlldp, hclients, hinterval, hmax, hlookup] at *
    exact ⟨h1, h2, h3⟩
  · rintro ⟨h1, h2, h3⟩
    rw [← henabled, ← hlldp, ← hclients, ← hinterval, ← hmax, ← hlookup] at *
    exact ⟨h1, h2, h3⟩

/-- `lldp` is given with an interval that a `size_t` holds, or there is nothing to switch on and
    nothing but zeros to store. -/
def StateGiven (metrics : Ptr) (types : List Json) (n : ℤ) : Prop :=
  (0 < n ∧ n < 2 ^ 64 ∧ Json.str "lldp" ∈ types) ∨
  (n = 0 ∧ Json.str "lldp" ∉ types ∧ Json.str "clients" ∉ types ∧
    isNumber (maxMacOf metrics) = true ∧ (getNumberValue (maxMacOf metrics)).trunc % 2 ^ 32 = 0)

theorem maxMac_eq_zero_iff (metrics : Ptr) :
    (if isNumber (maxMacOf metrics) then (getNumberValue (maxMacOf metrics)).toUInt 32 else 2000) = 0 ↔
      isNumber (maxMacOf metrics) = true ∧ (getNumberValue (maxMacOf metrics)).trunc % 2 ^ 32 = 0 := by
  by_cases hnumber : isNumber (maxMacOf metrics) = true
  · simp only [hnumber, if_true, true_and, Double.toUInt]
    omega
  · simp [hnumber]

/-- Without an interval nothing is reset. -/
theorem stateAsGiven_read_zero_iff (metrics : Ptr) (types : List Json) :
    StateAsGiven types 0 (dropClientsOnly (stateRead metrics types 0)) ↔ StateGiven metrics types 0 := by
  have hmax := maxMac_eq_zero_iff metrics
  have hread : dropClientsOnly (stateRead metrics types 0) = stateRead metrics types 0 := rfl
  rw [hread]
  constructor
  · intro h
    obtain ⟨hlldp, hclients, -, hzero, -⟩ := h.zero rfl
    refine Or.inr ⟨rfl, ?_, ?_, hmax.mp hzero⟩
    · rw [← hasType_iff]
      exact Bool.eq_false_iff.mp hlldp
    · rw [← hasType_iff]
      exact Bool.eq_false_iff.mp hclients
  · rintro (⟨hpos, -⟩ | ⟨-, hlldp, hclients, hnumber⟩)
    · omega
    · refine ⟨by simp [stateRead], by simp [stateRead], fun _ => ⟨?_, ?_, ?_, hmax.mpr hnumber, rfl⟩⟩
      · exact Bool.eq_false_iff.mpr (fun h => hlldp (hasType_iff.mp h))
      · exact Bool.eq_false_iff.mpr (fun h => hclients (hasType_iff.mp h))
      · exact_mod_cast Double.toUInt_intCast 64 0

/-- With `lldp` the interval decides. -/
theorem stateAsGiven_read_lldp_iff (metrics : Ptr) {types : List Json} {n : ℤ} (hn : n ≠ 0)
    (hmem : Json.str "lldp" ∈ types) :
    StateAsGiven types n (dropClientsOnly (stateRead metrics types n)) ↔ StateGiven metrics types n := by
  have hcast := Double.toUInt_intCast 64 n
  have henabled : (stateRead metrics types n).stateEnabled = true := by simpa [stateRead] using hn
  have hread : dropClientsOnly (stateRead metrics types n) = stateRead metrics types n := by
    simp [dropClientsOnly, stateRead, hasType_iff.mpr hmem]
  rw [hread]
  constructor
  · intro h
    have hkept : ((Double.fin (n : ℚ)).toUInt 64 : ℤ) = n := (h.given henabled).2.2
    refine Or.inl ⟨?_, ?_, hmem⟩
    · omega
    · omega
  · rintro (⟨hpos, hlt, -⟩ | ⟨hzero, -⟩)
    · refine ⟨iff_of_true henabled ⟨hn, Or.inl hmem⟩, fun _ => ⟨hasType_iff, hasType_iff, ?_⟩, ?_⟩
      · exact hcast.trans (Int.emod_eq_of_lt hpos.le hlt)
      · rw [henabled]
        exact nofun
    · exact absurd hzero hn

/-- Without `lldp` the event is switched off if there are clients, and stays on if there are none. -/
theorem not_stateAsGiven_read (metrics : Ptr) {types : List Json} {n : ℤ} (hn : n ≠ 0)
    (hno : Json.str "lldp" ∉ types) :
    ¬ StateAsGiven types n (dropClientsOnly (stateRead metrics types n)) := by
  have hlldp : hasType "lldp" types = false := Bool.eq_false_iff.mpr fun h => hno (hasType_iff.mp h)
  intro h
  have hiff := h.enabled
  cases hclients : hasType "clients" types with
  | true =>
    have hmem := hasType_iff.mp hclients
    simp [dropClientsOnly, stateRead, hlldp, hclients, hn, hmem] at hiff
  | false =>
    have hnot : Json.str "clients" ∉ types := fun hmem => by simp [hasType_iff.mpr hmem] at hclients
    simp [dropClientsOnly, stateRead, hlldp, hclients, hn, hno, hnot] at hiff

theorem stateAsGiven_read_iff (metrics : Ptr) (types : List Json) (n : ℤ) :
    StateAsGiven types n (dropClientsOnly (stateRead metrics types n)) ↔
      StateGiven metrics types n := by
  by_cases hn : n = 0
  · rw [hn]
    exact stateAsGiven_read_zero_iff metrics types
  · by_cases hmem : Json.str "lldp" ∈ types
    · exact stateAsGiven_read_lldp_iff metrics hn hmem
    · refine iff_of_false (not_stateAsGiven_read metrics hn hmem) ?_
      rintro (⟨-, -, hlldp⟩ | ⟨hzero, -⟩)
      · exact hmem hlldp
      · exact hn hzero

/-- For every interval and every list of types. -/
theorem stateAsGiven_iff (metrics : Ptr) (types : List Json) (n : ℤ)
    (hinterval : intervalOf metrics = some (.num (.fin (n : ℚ))))
    (htypes : typesOf metrics = some (.arr types)) (m : MetricsCfg) :
    StateAsGiven types n (cfgMetricsParse metrics m).2 ↔ StateGiven metrics types n := by
  rw [(cfgMetricsParse_run hinterval htypes m).2.asGiven_iff types n]
  exact stateAsGiven_read_iff metrics types n

/-- An interval of a minute. -/
def minuteMetrics (types : List Json) : Ptr :=
  some (.obj [("statistics", .obj [("interval", .num (.fin 60)), ("types", .arr types)])])

theorem minuteMetrics_interval (types : List Json) :
    intervalOf (minuteMetrics types) = some (.num (.fin ((60 : ℤ) : ℚ))) := by
  simp [intervalOf, minuteMetrics, getItem]

theorem minuteMetrics_types (types : List Json) :
    typesOf (minuteMetrics types) = some (.arr types) := by
  simp [typesOf, minuteMetrics, getItem]

theorem stateAsGiven_lldp :
    StateAsGiven [.str "lldp", .null] 60 (cfgMetricsParse (minuteMetrics [.str "lldp", .null]) {}).2 :=
  (stateAsGiven_iff (minuteMetrics [.str "lldp", .null]) _ 60 (minuteMetrics_interval _)
    (minuteMetrics_types _) {}).mpr (Or.inl ⟨by decide, by decide, List.mem_cons_self⟩)

/-- With clients only the event is off, without any type it is on. -/
theorem state_upside_down :
    (cfgMetricsParse (minuteMetrics [.str "clients"]) {}).2.stateEnabled = false ∧
    ¬ StateAsGiven [.str "clients"] 60 (cfgMetricsParse (minuteMetrics [.str "clients"]) {}).2 ∧
    (cfgMetricsParse (minuteMetrics []) {}).2.stateEnabled = true ∧
    ¬ StateAsGiven [] 60 (cfgMetricsParse (minuteMetrics []) {}).2 := by
  have hclients : (cfgMetricsParse (minuteMetrics [.str "clients"]) {}).2.stateEnabled = false := by
    decide +kernel
  have hnone : (cfgMetricsParse (minuteMetrics []) {}).2.stateEnabled = true := by decide +kernel
  refine ⟨hclients, fun h => ?_, hnone, fun h => ?_⟩
  · have htrue := h.enabled.mpr ⟨by decide, Or.inr (List.mem_singleton_self _)⟩
    rw [hclients] at htrue
    cases htrue
  · obtain ⟨-, hmem⟩ := h.enabled.mp hnone
    simp at hmem

end Ucentral.Proto
