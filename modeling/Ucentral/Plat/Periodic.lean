import Mathlib.Data.Rat.Floor
import Ucentral.Proto.MetricsCfg

/-! The periodic threads behind the reports.

    An interval in seconds is a `size_t` in the configuration, an `int` where a poll is started, an
    `int` product of microseconds, and a `uint64_t` in the thread, which adds it to the clock. -/

namespace Ucentral.Plat.Periodic
open CJson Parse Proto

/-! ### Machine integers -/

/-- The value of the low 32 bits as an `int`. -/
def toInt32 (x : ℤ) : ℤ := (x + 2 ^ 31) % 2 ^ 32 - 2 ^ 31

/-- The value of the low 64 bits as a `time_t` or a `long`. -/
def toInt64 (x : ℤ) : ℤ := (x + 2 ^ 63) % 2 ^ 64 - 2 ^ 63

/-- The value of the low 64 bits as a `uint64_t`. -/
def toUInt64 (x : ℤ) : ℤ := x % 2 ^ 64

/-! ### The polls -/

/-- `struct periodic`, with the two times of the thread. -/
structure Timer where
  delayUsec : ℤ
  periodUsec : ℤ
  deriving DecidableEq

/-- `periodic_create(&periodic, 0, period_sec * 1000000, ...)`, with the interval as it is handed to the
    poll. -/
def poll (interval : ℕ) : Timer where
  delayUsec := 0
  periodUsec := toUInt64 (toInt32 (toInt32 interval * 1000000))

/-- `plat_state_poll`, `plat_health_poll` and `plat_telemetry_poll`. -/
def platStatePoll : ℕ → Timer := poll

def platHealthPoll : ℕ → Timer := poll

def platTelemetryPoll : ℕ → Timer := poll

/-! ### The thread -/

/-- `struct timespec`. -/
structure Timespec where
  tvSec : ℤ
  tvNsec : ℤ
  deriving DecidableEq

/-- A time as the clock gives it. -/
structure Timespec.Normal (t : Timespec) : Prop where
  sec_ge : -2 ^ 63 ≤ t.tvSec
  sec_lt : t.tvSec < 2 ^ 63
  nsec_ge : 0 ≤ t.tvNsec
  nsec_lt : t.tvNsec < 1000000000

/-- The time in nanoseconds. -/
def Timespec.total (t : Timespec) : ℤ := t.tvSec * 1000000000 + t.tvNsec

/-- The deadline that `periodic_thread` computes from the clock and its timeout. -/
def deadline (now : Timespec) (timeout : ℤ) : Timespec :=
  let tvSec := toInt64 (now.tvSec + timeout / 1000000)
  let tvNsec := toInt64 (now.tvNsec + timeout % 1000000 * 1000)
  if 1000000000 ≤ tvNsec then ⟨toInt64 (tvSec + 1), tvNsec - 1000000000⟩ else ⟨tvSec, tvNsec⟩

/-- How a turn of the thread goes: the clock, and whether the wait ends with the timeout and the callback
    wants to go on. -/
structure Turn where
  now : Timespec
  timedOut : Bool
  goesOn : Bool

/-- The deadlines of `periodic_thread`, which waits for `delay_usec` first. -/
def periodicThread (p : Timer) (timeout : ℤ) : List Turn → List Timespec
  | [] => []
  | t :: ts =>
    deadline t.now timeout ::
      if t.timedOut && t.goesOn then periodicThread p p.periodUsec ts else []

/-- From the second turn on, the thread adds its period to the clock. -/
theorem periodicThread_deadlines (p : Timer) : ∀ (ts : List Turn) (timeout : ℤ) (i : ℕ) (d : Timespec),
    (periodicThread p timeout ts)[i + 1]? = some d →
    ∃ t, ts[i + 1]? = some t ∧ d = deadline t.now p.periodUsec
  | [], _, _, _, h => nomatch h
  | t :: ts, timeout, i, d, h => by
      rw [periodicThread, List.getElem?_cons_succ] at h
      split at h
      · cases i with
        | zero =>
          cases ts with
          | nil => cases h
          | cons u us =>
            rw [periodicThread] at h
            cases h
            exact ⟨u, rfl, rfl⟩
        | succ i => exact periodicThread_deadlines p ts p.periodUsec i d h
      · cases h

/-! ### The deadline -/

/-- A period of whole seconds that stays within the range of the clock. -/
theorem deadline_seconds {now : Timespec} (hnow : now.Normal) (n : ℤ) :
    deadline now (n * 1000000) = ⟨toInt64 (now.tvSec + n), now.tvNsec⟩ := by
  have hdiv : n * 1000000 / 1000000 = n := by omega
  have hmod : n * 1000000 % 1000000 = 0 := by omega
  have hnsec : toInt64 now.tvNsec = now.tvNsec := by
    have := hnow.nsec_ge
    have := hnow.nsec_lt
    unfold toInt64
    omega
  have hlow : ¬ 1000000000 ≤ now.tvNsec := not_le.mpr hnow.nsec_lt
  unfold deadline
  dsimp only
  rw [hdiv, hmod, zero_mul, add_zero, hnsec, if_neg hlow]

theorem toInt64_add_iff {now : Timespec} (hnow : now.Normal) {n : ℤ} (hn : 0 ≤ n) (hlt : n < 2 ^ 63) :
    toInt64 (now.tvSec + n) = now.tvSec + n ↔ now.tvSec + n < 2 ^ 63 := by
  have := hnow.sec_ge
  have := hnow.sec_lt
  unfold toInt64
  omega

/-! ### The period -/

/-- The period is the given number of seconds. -/
def Exact (interval : Double) (p : Timer) : Prop :=
  ∃ q, interval = .fin q ∧ (p.periodUsec : ℚ) = q * 1000000

/-- The values of a sign-extended `int` in a `uint64_t`. -/
def Extended (usec : ℤ) : Prop :=
  0 ≤ usec ∧ usec < 2 ^ 31 ∨ 2 ^ 64 - 2 ^ 31 ≤ usec ∧ usec < 2 ^ 64

/-- The low 32 bits tell them apart. -/
theorem Extended.eq_of_emod {p a : ℤ} (hp : Extended p) (ha : Extended a) (h : (p - a) % 2 ^ 32 = 0) :
    p = a := by
  unfold Extended at hp ha
  omega

/-- Wrapping adds a multiple of 2^32. -/
theorem toInt32_spec (x : ℤ) :
    -2 ^ 31 ≤ toInt32 x ∧ toInt32 x < 2 ^ 31 ∧ ∃ k, toInt32 x = x + 2 ^ 32 * k := by
  refine ⟨?_, ?_, -((x + 2 ^ 31) / 2 ^ 32), ?_⟩ <;> unfold toInt32 <;> omega

/-- The period is in the range of a sign-extended `int`, and agrees with the product in 32 bits. -/
theorem periodUsec_range (interval : ℕ) :
    Extended (poll interval).periodUsec ∧
      ((poll interval).periodUsec - interval * 1000000) % 2 ^ 32 = 0 := by
  obtain ⟨-, -, k, hk⟩ := toInt32_spec interval
  obtain ⟨hge, hlt, l, hl⟩ := toInt32_spec (toInt32 interval * 1000000)
  have hperiod : (poll interval).periodUsec =
      toInt32 (toInt32 interval * 1000000) % 2 ^ 64 := rfl
  rw [hperiod]
  unfold Extended
  rcases lt_or_ge (toInt32 (toInt32 interval * 1000000)) 0 with hneg | hpos
  · have hextended : toInt32 (toInt32 interval * 1000000) % 2 ^ 64 =
        toInt32 (toInt32 interval * 1000000) + 2 ^ 64 := by omega
    omega
  · have hsame : toInt32 (toInt32 interval * 1000000) % 2 ^ 64 =
        toInt32 (toInt32 interval * 1000000) := by omega
    omega

/-- With fractions of a second the product differs in its low bits. -/
theorem whole_of_exact {q : ℚ} (h : Exact (.fin q) (poll ((Double.fin q).toUInt 64))) :
    q = (⌊q⌋ : ℚ) ∧ Extended (⌊q⌋ * 1000000) := by
  obtain ⟨_, hfin, hq⟩ := h
  obtain rfl := Double.fin.inj hfin
  obtain ⟨hrange, hmod⟩ := periodUsec_range ((Double.fin q).toUInt 64)
  have hinterval : ((Double.fin q).toUInt 64 : ℤ) = (Double.fin q).trunc % 2 ^ 64 :=
    Int.toNat_of_nonneg (Int.emod_nonneg _ (by decide))
  generalize (poll ((Double.fin q).toUInt 64)).periodUsec = p at hrange hmod hq
  have hp : 0 ≤ p := by
    unfold Extended at hrange
    omega
  have hpos : (0 : ℚ) ≤ q := by
    have : (0 : ℚ) ≤ p := by exact_mod_cast hp
    linarith
  have htrunc : (Double.fin q).trunc = ⌊q⌋ := by
    change q.num.tdiv q.den = _
    rw [Int.tdiv_eq_ediv_of_nonneg (Rat.num_nonneg.mpr hpos), Rat.floor_def']
  have hlow : ⌊q⌋ * 1000000 ≤ p := by
    have hfloor := Int.floor_le q
    have : (⌊q⌋ : ℚ) * 1000000 ≤ p := by linarith
    exact_mod_cast this
  have hhigh : p < (⌊q⌋ + 1) * 1000000 := by
    have hfloor := Int.lt_floor_add_one q
    have : (p : ℚ) < (⌊q⌋ + 1) * 1000000 := by linarith
    exact_mod_cast this
  have hwhole : p = ⌊q⌋ * 1000000 := by
    rw [htrunc] at hinterval
    omega
  refine ⟨?_, hwhole ▸ hrange⟩
  have : (p : ℚ) = ⌊q⌋ * 1000000 := by exact_mod_cast hwhole
  linarith

theorem exact_of_extended {n : ℤ} (h : Extended (n * 1000000)) :
    Exact (.fin n) (poll ((Double.fin (n : ℚ)).toUInt 64)) := by
  obtain ⟨hrange, hmod⟩ := periodUsec_range ((Double.fin (n : ℚ)).toUInt 64)
  have hsame : n % 2 ^ 64 = n := by
    unfold Extended at h
    exact Int.emod_eq_of_lt (by omega) (by omega)
  rw [Double.toUInt_intCast, hsame] at hmod
  refine ⟨n, rfl, ?_⟩
  rw [hrange.eq_of_emod h hmod]
  push_cast
  rfl

/-- The seconds whose microseconds an `int` holds, and those just below 2^64. -/
theorem exact_iff (x : Double) :
    Exact x (poll (x.toUInt 64)) ↔ ∃ n : ℤ, x = .fin n ∧ Extended (n * 1000000) := by
  constructor
  · intro h
    obtain ⟨q, rfl, -⟩ := id h
    obtain ⟨hq, hfits⟩ := whole_of_exact h
    exact ⟨⌊q⌋, congrArg _ hq, hfits⟩
  · rintro ⟨n, rfl, hfits⟩
    exact exact_of_extended hfits

/-! ### The threads on time -/

/-- The period is the given number of seconds, and the deadline is a period after the clock. -/
structure OnTime (interval : Double) (p : Timer) (now : Timespec) : Prop where
  exact : Exact interval p
  total : (deadline now p.periodUsec).total = now.total + 1000 * p.periodUsec
  nsec_ge : 0 ≤ (deadline now p.periodUsec).tvNsec
  nsec_lt : (deadline now p.periodUsec).tvNsec < 1000000000

/-- An integer number of seconds whose microseconds survive the `int` product, and with which the clock
    does not run over. -/
def InTime (interval : Double) (now : Timespec) : Prop :=
  ∃ n : ℤ, interval = .fin n ∧ Extended (n * 1000000) ∧ now.tvSec + n < 2 ^ 63

theorem onTime_iff (x : Double) {now : Timespec} (hnow : now.Normal) :
    OnTime x (poll (x.toUInt 64)) now ↔ InTime x now := by
  have hdeadline : ∀ n : ℤ, x = .fin n → Extended (n * 1000000) →
      deadline now (poll (x.toUInt 64)).periodUsec = ⟨toInt64 (now.tvSec + n), now.tvNsec⟩ ∧
        (poll (x.toUInt 64)).periodUsec = n * 1000000 ∧ 0 ≤ n ∧ n < 2 ^ 63 := by
    intro n hx hfits
    obtain ⟨q, hq, hperiod⟩ := (exact_iff x).mpr ⟨n, hx, hfits⟩
    obtain rfl := Double.fin.inj (hx.symm.trans hq)
    have hwhole : (poll (x.toUInt 64)).periodUsec = n * 1000000 := by exact_mod_cast hperiod
    unfold Extended at hfits
    rw [hwhole, deadline_seconds hnow]
    exact ⟨rfl, rfl, by omega, by omega⟩
  constructor
  · rintro ⟨hexact, htotal, -, -⟩
    obtain ⟨n, hx, hfits⟩ := (exact_iff x).mp hexact
    obtain ⟨hd, hperiod, hn, hlt⟩ := hdeadline n hx hfits
    rw [hd, hperiod] at htotal
    refine ⟨n, hx, hfits, (toInt64_add_iff hnow hn hlt).mp ?_⟩
    dsimp only [Timespec.total] at htotal
    omega
  · rintro ⟨n, hx, hfits, hclock⟩
    obtain ⟨hd, hperiod, hn, hlt⟩ := hdeadline n hx hfits
    rw [(toInt64_add_iff hnow hn hlt).mpr hclock] at hd
    refine ⟨(exact_iff x).mpr ⟨n, hx, hfits⟩, ?_, ?_, ?_⟩
    · rw [hd, hperiod]
      dsimp only [Timespec.total]
      omega
    · rw [hd]
      exact hnow.nsec_ge
    · rw [hd]
      exact hnow.nsec_lt

/-! ### The intervals of the configuration -/

def healthOf (metrics : Ptr) : Ptr := getItem (getItem metrics "health") "interval"

/-- What `statistics` leaves is the interval that is given, or nothing that is on. -/
theorem statisticsPart_run (metrics : Ptr) :
    ∃ m, statisticsPart metrics {} = (.ok (), m) ∧ m.healthEnabled = false ∧
      (m.stateEnabled = true → m.stateInterval = (getNumberValue (intervalOf metrics)).toUInt 64) := by
  refine ⟨_, Parser.bind_of_ok (forM_statisticsType (children (typesOf metrics)) {}), ?_, ?_⟩
  · dsimp only [Parser.fill, dropClientsOnly]
    split <;> rfl
  · dsimp only [Parser.fill, dropClientsOnly]
    split
    · exact nofun
    · exact fun _ => rfl

theorem healthPart_health (metrics : Ptr) {m : MetricsCfg} (h : m.healthEnabled = false)
    (hon : (healthPart metrics m).2.healthEnabled = true) :
    (healthPart metrics m).2.healthInterval = (getNumberValue (healthOf metrics)).toUInt 64 := by
  unfold healthPart at hon ⊢
  cases hsome : (getItem (getItem metrics "health") "interval").isSome with
  | false =>
    rw [hsome] at hon
    exact absurd hon (Bool.eq_false_iff.mp h)
  | true => rfl

/-- The intervals that are on are those that are given. -/
theorem cfgMetricsParse_intervals (metrics : Ptr) (m : MetricsCfg) :
    ((cfgMetricsParse metrics m).2.stateEnabled = true →
      (cfgMetricsParse metrics m).2.stateInterval = (getNumberValue (intervalOf metrics)).toUInt 64) ∧
    ((cfgMetricsParse metrics m).2.healthEnabled = true →
      (cfgMetricsParse metrics m).2.healthInterval = (getNumberValue (healthOf metrics)).toUInt 64) := by
  have hread : ∃ r : MetricsCfg, cfgMetricsParse metrics m = healthPart metrics r ∧
      r.healthEnabled = false ∧
      (r.stateEnabled = true → r.stateInterval = (getNumberValue (intervalOf metrics)).toUInt 64) := by
    rw [cfgMetricsParse_eq, fill_bind]
    cases (intervalOf metrics).isSome && (typesOf metrics).isSome with
    | false => exact ⟨{}, rfl, rfl, nofun⟩
    | true =>
      obtain ⟨r, hrun, hhealth, hstate⟩ := statisticsPart_run metrics
      exact ⟨r, Parser.bind_of_ok hrun, hhealth, hstate⟩
  obtain ⟨r, hrun, hhealth, hstate⟩ := hread
  have hsame := (healthPart_run metrics r).2
  rw [hrun]
  refine ⟨fun hon => ?_, healthPart_health metrics hhealth⟩
  rw [hsame.enabled] at hon
  rw [hsame.interval]
  exact hstate hon

/-- Each of the three threads, started with an interval from the configuration. -/
def AllOnTime (given : Ptr) (interval : ℕ) (now : Timespec) : Prop :=
  ∀ start ∈ [platStatePoll, platHealthPoll, platTelemetryPoll],
    OnTime (getNumberValue given) (start interval) now

theorem allOnTime_iff (given : Ptr) {now : Timespec} (hnow : now.Normal) :
    AllOnTime given ((getNumberValue given).toUInt 64) now ↔ InTime (getNumberValue given) now := by
  rw [← onTime_iff _ hnow]
  constructor
  · exact fun h => h platStatePoll List.mem_cons_self
  · intro h start hmem
    have hpoll : start = poll := by
      simpa [platStatePoll, platHealthPoll, platTelemetryPoll] using hmem
    rw [hpoll]
    exact h

/-- For every configuration whose report is switched on, and for every time. -/
theorem metrics_onTime_iff (metrics : Ptr) (m : MetricsCfg) {now : Timespec} (hnow : now.Normal) :
    ((cfgMetricsParse metrics m).2.stateEnabled = true →
      (AllOnTime (intervalOf metrics) (cfgMetricsParse metrics m).2.stateInterval now ↔
        InTime (getNumberValue (intervalOf metrics)) now)) ∧
    ((cfgMetricsParse metrics m).2.healthEnabled = true →
      (AllOnTime (healthOf metrics) (cfgMetricsParse metrics m).2.healthInterval now ↔
        InTime (getNumberValue (healthOf metrics)) now)) := by
  obtain ⟨hstate, hhealth⟩ := cfgMetricsParse_intervals metrics m
  constructor
  · intro hon
    rw [hstate hon]
    exact allOnTime_iff _ hnow
  · intro hon
    rw [hhealth hon]
    exact allOnTime_iff _ hnow

/-- Reports with LLDP, at an interval. -/
def lldpEvery (n : ℚ) : Ptr :=
  some (.obj [("statistics", .obj [("interval", .num (.fin n)), ("types", .arr [.str "lldp"])])])

theorem metrics_onTime_minute :
    AllOnTime (intervalOf (lldpEvery 60)) (cfgMetricsParse (lldpEvery 60) {}).2.stateInterval
      ⟨5, 999999999⟩ := by
  have hnow : (⟨5, 999999999⟩ : Timespec).Normal := ⟨by decide, by decide, by decide, by decide⟩
  refine ((metrics_onTime_iff (lldpEvery 60) {} hnow).1 (by decide +kernel)).mpr
    ⟨60, by decide +kernel, ?_, by decide⟩
  unfold Extended
  decide

/-- Every hour: the product is a negative `int`, and the next report is due in half a million years. -/
theorem hour_overflows :
    (cfgMetricsParse (lldpEvery 3600) {}).2.stateEnabled = true ∧
    (platStatePoll (cfgMetricsParse (lldpEvery 3600) {}).2.stateInterval).periodUsec =
      18446744073014584320 ∧
    ¬ AllOnTime (intervalOf (lldpEvery 3600)) (cfgMetricsParse (lldpEvery 3600) {}).2.stateInterval
      ⟨5, 0⟩ := by
  have hinterval : (cfgMetricsParse (lldpEvery 3600) {}).2.stateInterval = 3600 := by decide +kernel
  have hperiod : (platStatePoll 3600).periodUsec = 18446744073014584320 := by decide
  refine ⟨by decide +kernel, by rw [hinterval, hperiod], fun h => ?_⟩
  obtain ⟨q, hq, hexact⟩ := (h platStatePoll List.mem_cons_self).exact
  have hgiven : getNumberValue (intervalOf (lldpEvery 3600)) = .fin 3600 := by decide +kernel
  obtain rfl := Double.fin.inj (hgiven.symm.trans hq)
  rw [hinterval, hperiod] at hexact
  norm_num at hexact

end Ucentral.Plat.Periodic
