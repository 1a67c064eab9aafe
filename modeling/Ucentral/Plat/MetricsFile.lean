import Ucentral.Plat.Cfg
import Mathlib.Algebra.Group.Int.Defs

/-! The file in which the metrics survive a restart: `plat_metrics_save` and `plat_metrics_restore`.

    The numbers are read back by `fscanf`, which stops behind the last digit; the string after them by
    `fgets`, which goes on from there and gets what is left of the line of the last number. -/

namespace Ucentral.Plat.MetricsFile
open Decimal

/-! ### Reading from a stream -/

/-- An integer as `fscanf` matches it: blanks, a sign, digits. Gives the sign and the number, and what is
    left of the stream. -/
def matchInt (cs : List Char) : Option (Bool × ℕ × List Char) :=
  let digits (neg : Bool) (ds : List Char) : Option (Bool × ℕ × List Char) :=
    if startsDigit ds then some (neg, readNat ds 0) else none
  match cs.dropWhile isCSpace with
  | '-' :: ds => digits true ds
  | '+' :: ds => digits false ds
  | ds => digits false ds

/-- `%d` into an `int`. A number that does not fit leaves the result open, and is not accepted here. -/
def scanD (cs : List Char) : Option (ℤ × List Char) :=
  (matchInt cs).bind fun (neg, n, rest) =>
    let v : ℤ := if neg then -n else n
    if -2 ^ 31 ≤ v ∧ v < 2 ^ 31 then some (v, rest) else none

/-- `%zu` into a `size_t`; a sign negates. -/
def scanZu (cs : List Char) : Option (UInt64 × List Char) :=
  (matchInt cs).bind fun (neg, n, rest) =>
    if n < 2 ^ 64 then some (if neg then -UInt64.ofNat n else UInt64.ofNat n, rest) else none

/-- The loop of `fgets`: up to the end of the line, with room for `n` characters. -/
def takeLine : ℕ → List Char → List Char × List Char
  | 0, cs => ([], cs)
  | _ + 1, [] => ([], [])
  | n + 1, c :: cs => if c = '\n' then ([c], cs) else (c :: (takeLine n cs).1, (takeLine n cs).2)

/-- `fgets` into a field of `size` bytes; none at the end of the stream. -/
def fgets (size : ℕ) (cs : List Char) : Option (List Char × List Char) :=
  if cs = [] then none else some (takeLine (size - 1) cs)

/-! ### The two functions -/

/-- `struct plat_metrics_cfg` without `telemetry`, which is not saved. A string has one character for
    each of its bytes. -/
structure Metrics where
  healthEnabled : ℤ
  healthInterval : UInt64
  stateEnabled : ℤ
  lldpEnabled : ℤ
  clientsEnabled : ℤ
  stateInterval : UInt64
  maxMacCount : UInt32
  publicIpLookup : List Char
  deriving DecidableEq

def metricsWiredClientsMaxNum : UInt32 := 2000

def publicIpLookupSize : ℕ := 2048

/-- `fprintf(cfg_file, "%d\n", !!flag)`, and `"%zu\n"`. -/
def printFlag (flag : ℤ) : List Char := print (if flag = 0 then 0 else 1) ++ ['\n']

def printSize (n : UInt64) : List Char := print n.toNat ++ ['\n']

/-- What `plat_metrics_save` puts into the file. -/
def platMetricsSave (cfg : Metrics) : List Char :=
  printFlag cfg.healthEnabled ++ (printSize cfg.healthInterval ++ (printFlag cfg.stateEnabled ++
    (printFlag cfg.lldpEnabled ++ (printFlag cfg.clientsEnabled ++ (printSize cfg.stateInterval ++
      (cfg.publicIpLookup ++ ['\n']))))))

/-- The string in a field that `fgets` has filled, without the end of the line. -/
def chomp (line : List Char) : List Char :=
  let str := line.takeWhile (· ≠ '\x00')
  if str.getLast? = some '\n' then str.dropLast else str

/-- `plat_metrics_restore`: none unless it returns 0. -/
def platMetricsRestore (file : Option (List Char)) : Option Metrics := do
  let cs ← file
  let (healthEnabled, cs) ← scanD cs
  let (healthInterval, cs) ← scanZu cs
  let (stateEnabled, cs) ← scanD cs
  let (lldpEnabled, cs) ← scanD cs
  let (clientsEnabled, cs) ← scanD cs
  let (stateInterval, cs) ← scanZu cs
  let (line, _) ← fgets publicIpLookupSize cs
  return { healthEnabled, healthInterval, stateEnabled, lldpEnabled, clientsEnabled, stateInterval
           maxMacCount := metricsWiredClientsMaxNum
           publicIpLookup := chomp line }

/-! ### Where the conversions leave the stream -/

/-- A number that is printed at the front, behind blanks. -/
theorem matchInt_print (pre : List Char) (hpre : ∀ c ∈ pre, isCSpace c = true) (n : ℕ)
    {rest : List Char} (hrest : startsDigit rest = false) :
    matchInt (pre ++ (print n ++ rest)) = some (false, n, rest) := by
  have hread := readNat_print n hrest
  have hstart := startsDigit_print n rest
  obtain ⟨c, cs, hcs, hspace, hminus, hplus⟩ := print_start n
  rw [hcs, List.cons_append] at hread hstart
  unfold matchInt
  rw [List.dropWhile_append_of_pos hpre, hcs, List.cons_append,
    List.dropWhile_cons_of_neg (by simp [hspace])]
  split
  · next heq => exact absurd (List.cons.inj heq).1 hminus
  · next heq => exact absurd (List.cons.inj heq).1 hplus
  · dsimp only
    rw [if_pos hstart, hread]

/-- A flag is read back as 0 or 1, up to the end of its line. -/
theorem scanD_printFlag {pre : List Char} (hpre : ∀ c ∈ pre, isCSpace c = true) (flag : ℤ)
    (rest : List Char) :
    scanD (pre ++ (printFlag flag ++ rest)) = some (if flag = 0 then 0 else 1, '\n' :: rest) := by
  rw [printFlag, List.append_assoc, List.singleton_append, scanD, matchInt_print pre hpre _ rfl]
  by_cases hflag : flag = 0
  · rw [if_pos hflag, if_pos hflag]
    rfl
  · rw [if_neg hflag, if_neg hflag]
    rfl

theorem scanZu_printSize {pre : List Char} (hpre : ∀ c ∈ pre, isCSpace c = true) (n : UInt64)
    (rest : List Char) :
    scanZu (pre ++ (printSize n ++ rest)) = some (n, '\n' :: rest) := by
  rw [printSize, List.append_assoc, List.singleton_append, scanZu, matchInt_print pre hpre _ rfl]
  dsimp only [Option.bind_some]
  rw [if_pos n.toNat_lt, if_neg (by decide), UInt64.ofNat_toNat]

/-- After a number, `fgets` finds the end of its line, whatever the next line is. -/
theorem fgets_newline {size : ℕ} (hsize : 2 ≤ size) (rest : List Char) :
    fgets size ('\n' :: rest) = some (['\n'], rest) := by
  obtain ⟨n, rfl⟩ := Nat.exists_eq_add_of_le' hsize
  rfl

/-! ### What is restored -/

/-- What `plat_metrics_restore` makes of a saved file. -/
def restored (cfg : Metrics) : Metrics where
  healthEnabled := if cfg.healthEnabled = 0 then 0 else 1
  healthInterval := cfg.healthInterval
  stateEnabled := if cfg.stateEnabled = 0 then 0 else 1
  lldpEnabled := if cfg.lldpEnabled = 0 then 0 else 1
  clientsEnabled := if cfg.clientsEnabled = 0 then 0 else 1
  stateInterval := cfg.stateInterval
  maxMacCount := metricsWiredClientsMaxNum
  publicIpLookup := []

theorem platMetricsRestore_platMetricsSave (cfg : Metrics) :
    platMetricsRestore (some (platMetricsSave cfg)) = some (restored cfg) := by
  have hnl : ∀ c ∈ ['\n'], isCSpace c = true := by simp [isCSpace]
  have hnil : ∀ c ∈ ([] : List Char), isCSpace c = true := List.forall_mem_nil _
  unfold platMetricsRestore platMetricsSave
  -- each conversion but the first begins at the end of the line before
  have hfirst := scanD_printFlag hnil cfg.healthEnabled
  have hflag := scanD_printFlag hnl
  have hsize := scanZu_printSize hnl
  simp only [List.nil_append, List.singleton_append] at hfirst hflag hsize
  simp only [Option.bind_eq_bind, Option.bind_some, hfirst, hflag, hsize,
    fgets_newline (show 2 ≤ publicIpLookupSize by decide)]
  rfl

/-! ### A reconnect -/

/-- A report that `connect_send` starts again, with its interval. -/
inductive Poll
  | state (interval : UInt64)
  | health (interval : UInt64)
  deriving DecidableEq

/-- The polls of `connect_send`, once the metrics are read back. -/
def connectPolls (cfg : Metrics) : List Poll :=
  (if cfg.stateEnabled ≠ 0 then [.state cfg.stateInterval] else []) ++
    if cfg.healthEnabled ≠ 0 then [.health cfg.healthInterval] else []

/-- The reports go on as configured: the same polls, and the same fields behind them. -/
structure Resumes (cfg m : Metrics) : Prop where
  healthEnabled : m.healthEnabled ≠ 0 ↔ cfg.healthEnabled ≠ 0
  healthInterval : m.healthInterval = cfg.healthInterval
  stateEnabled : m.stateEnabled ≠ 0 ↔ cfg.stateEnabled ≠ 0
  lldpEnabled : m.lldpEnabled ≠ 0 ↔ cfg.lldpEnabled ≠ 0
  clientsEnabled : m.clientsEnabled ≠ 0 ↔ cfg.clientsEnabled ≠ 0
  stateInterval : m.stateInterval = cfg.stateInterval
  maxMacCount : m.maxMacCount = cfg.maxMacCount
  publicIpLookup : m.publicIpLookup = cfg.publicIpLookup
  polls : connectPolls m = connectPolls cfg

theorem flag_ne_zero_iff (flag : ℤ) : (if flag = 0 then 0 else 1 : ℤ) ≠ 0 ↔ flag ≠ 0 := by
  split_ifs <;> simp [*]

theorem connectPolls_restored (cfg : Metrics) : connectPolls (restored cfg) = connectPolls cfg := by
  unfold connectPolls restored
  simp only [flag_ne_zero_iff]

/-- The restore succeeds on every saved file; what it yields is as configured exactly if the number of
    clients is the default and no lookup of the public address is configured. -/
theorem metrics_resume_iff (cfg : Metrics) :
    ∃ m, platMetricsRestore (some (platMetricsSave cfg)) = some m ∧
      (Resumes cfg m ↔ cfg.maxMacCount = metricsWiredClientsMaxNum ∧ cfg.publicIpLookup = []) := by
  refine ⟨_, platMetricsRestore_platMetricsSave cfg, ?_, ?_⟩
  · intro h
    exact ⟨h.maxMacCount.symm, h.publicIpLookup.symm⟩
  · rintro ⟨hcount, hlookup⟩
    exact {
      healthEnabled := flag_ne_zero_iff _
      healthInterval := rfl
      stateEnabled := flag_ne_zero_iff _
      lldpEnabled := flag_ne_zero_iff _
      clientsEnabled := flag_ne_zero_iff _
      stateInterval := rfl
      maxMacCount := hcount.symm
      publicIpLookup := hlookup.symm
      polls := connectPolls_restored cfg }

/-- The state event every minute, with a lookup of the public address. -/
def minuteState : Metrics where
  healthEnabled := 0
  healthInterval := 0
  stateEnabled := 1
  lldpEnabled := 1
  clientsEnabled := 0
  stateInterval := 60
  maxMacCount := 2000
  publicIpLookup := "ip.example".toList

/-- The string is on the line after the one that `fgets` reads. -/
theorem lookup_not_restored :
    '\n' ∉ minuteState.publicIpLookup ∧ minuteState.publicIpLookup.length < publicIpLookupSize ∧
      platMetricsSave minuteState = "0\n0\n1\n1\n0\n60\nip.example\n".toList ∧
      platMetricsRestore (some (platMetricsSave minuteState)) =
        some { minuteState with publicIpLookup := [] } ∧
      ¬ Resumes minuteState { minuteState with publicIpLookup := [] } :=
  ⟨by decide, by decide, by decide, by decide, fun h => absurd h.publicIpLookup (by decide)⟩

/-! ### The metrics of a configuration -/

/-- What `cfg_parse` has filled in, as it is saved. -/
def Metrics.ofCfg (m : MetricsCfg) : Metrics where
  healthEnabled := if m.healthEnabled then 1 else 0
  healthInterval := UInt64.ofNat m.healthInterval
  stateEnabled := if m.stateEnabled then 1 else 0
  lldpEnabled := if m.lldpEnabled then 1 else 0
  clientsEnabled := if m.clientsEnabled then 1 else 0
  stateInterval := UInt64.ofNat m.stateInterval
  maxMacCount := UInt32.ofNat m.maxMacCount
  publicIpLookup := m.publicIpLookup.toUTF8.data.toList.map fun b => Char.ofNat b.toNat

theorem flag_ofBool (b : Bool) :
    (if (if b then 1 else 0 : ℤ) = 0 then 0 else 1 : ℤ) = if b then 1 else 0 := by
  cases b <;> rfl

/-- The metrics that a reconnect finds. -/
theorem platMetricsRestore_ofCfg (m : MetricsCfg) :
    platMetricsRestore (some (platMetricsSave (.ofCfg m))) =
      some (.ofCfg { m with maxMacCount := 2000, publicIpLookup := "" }) := by
  rw [platMetricsRestore_platMetricsSave]
  unfold restored Metrics.ofCfg
  simp only [flag_ofBool]
  rfl

end Ucentral.Plat.MetricsFile
