import Ucentral.Plat.ScriptLock
import Mathlib.Algebra.Order.Group.Unbundled.Int

/-! How long `script_runner` lets `poll` wait.

    What is left of the timeout are the whole seconds left without the milliseconds that have passed of
    the next one. The code adds them:

        t = 10 s, after 3.4 s      left 6600 ms      poll(…, 7 * 1000 + 400)

    and 7 * 1000 is an `int`, which overflows for what is more than 24 days. -/

namespace Ucentral.Plat.Script

/-- `struct timespec`. -/
structure Timespec where
  tvSec : ℤ
  tvNsec : ℤ

/-- Conversion to an `int`; its arithmetic wraps in the same way. -/
def toInt (x : ℤ) : ℤ :=
  if x % 2 ^ 32 < 2 ^ 31 then x % 2 ^ 32 else x % 2 ^ 32 - 2 ^ 32

/-- `sub_timespec`. -/
def subTimespec (a b : Timespec) : Timespec :=
  let d : Timespec := ⟨a.tvSec - b.tvSec, a.tvNsec - b.tvNsec⟩
  if d.tvNsec < 0 then ⟨d.tvSec - 1, d.tvNsec + 1000000000⟩ else d

/-- What `script_runner` gives to `poll`, where the clock has not gone back behind `start`. -/
def pollTimeout (t : ℤ) (start now : Timespec) : Option ℤ :=
  let run := subTimespec now start
  if run.tvSec < 0 then none
  else
    let timeout := toInt (t - run.tvSec)
    some (if timeout < 0 then 0 else toInt (toInt (timeout * 1000) + run.tvNsec.tdiv 1000000))

/-! ### The time that is left -/

def Timespec.Valid (a : Timespec) : Prop := 0 ≤ a.tvNsec ∧ a.tvNsec < 1000000000

def Timespec.ns (a : Timespec) : ℤ := a.tvSec * 1000000000 + a.tvNsec

def elapsedMs (start now : Timespec) : ℤ := (now.ns - start.ns) / 1000000

/-- `poll` waits for no longer than what is left, and not forever. -/
def WaitsInTime (t : ℤ) (start now : Timespec) : Prop :=
  ∃ timeout, pollTimeout t start now = some timeout ∧ 0 ≤ timeout ∧ timeout ≤ intMax ∧
    timeout ≤ max 0 (t * 1000 - elapsedMs start now)

/-- The whole seconds left are negative, also as an `int`. Or they are not, and no millisecond of the
    next one has passed, or the sum that is made of both wraps to what is not negative. Or they are so
    negative that they are not as an `int`, and the sum wraps to 0. -/
def SumFits (left ms : ℤ) : Prop :=
  toInt left < 0 ∨
    0 ≤ left ∧ (ms = 0 ∧ left * 1000 < 2 ^ 31 ∨
      2 ^ 31 ≤ left * 1000 + ms ∧ (left * 1000 + ms) % 2 ^ 32 < 2 ^ 31) ∨
    left < 0 ∧ (left * 1000 + ms) % 2 ^ 32 = 0

theorem subTimespec_eq {start now : Timespec} (hstart : start.Valid) (hnow : now.Valid) :
    (subTimespec now start).tvSec = elapsedMs start now / 1000 ∧
      (subTimespec now start).tvNsec / 1000000 = elapsedMs start now % 1000 ∧
      0 ≤ (subTimespec now start).tvNsec := by
  obtain ⟨hs0, hs1⟩ := hstart
  obtain ⟨hn0, hn1⟩ := hnow
  unfold subTimespec elapsedMs Timespec.ns
  dsimp only
  split
  · dsimp only
    omega
  · dsimp only
    omega

/-- An `int` wraps once for a product and a sum. -/
theorem toInt_sum (left ms : ℤ) : toInt (toInt (toInt left * 1000) + ms) = toInt (left * 1000 + ms) := by
  unfold toInt
  split <;> split <;> split <;> split <;> omega

theorem sum_le_iff {left ms : ℤ} (hleft : left < 2 ^ 31) (hms : 0 ≤ ms) (hms' : ms < 1000)
    (hint : ¬ toInt left < 0) :
    (0 ≤ toInt (left * 1000 + ms) ∧ toInt (left * 1000 + ms) ≤ intMax ∧
      toInt (left * 1000 + ms) ≤ max 0 (left * 1000 - ms)) ↔ SumFits left ms := by
  have hmod : left % 2 ^ 32 < 2 ^ 31 := by
    by_contra hmod
    refine hint ?_
    rw [toInt, if_neg hmod]
    omega
  have hsmall : 0 ≤ left → left * 1000 + ms < 2 ^ 31 →
      (left * 1000 + ms) % 2 ^ 32 = left * 1000 + ms :=
    fun h0 hlt => Int.emod_eq_of_lt (by omega) (by omega)
  unfold SumFits
  rw [or_iff_right hint, toInt, intMax]
  split
  · omega
  · omega

/-- For a timeout that is accepted `poll` waits in time exactly if the sum of the seconds left and of the
    milliseconds passed fits. -/
theorem waitsInTime_iff {t : ℤ} (ht : 0 ≤ t) (hmax : t ≤ intMax) {start now : Timespec}
    (hstart : start.Valid) (hnow : now.Valid) (hle : start.ns ≤ now.ns) :
    WaitsInTime t start now ↔
      SumFits (t - elapsedMs start now / 1000) (elapsedMs start now % 1000) := by
  obtain ⟨hsec, hnsec, hpos⟩ := subTimespec_eq hstart hnow
  have helapsed : 0 ≤ elapsedMs start now := Int.ediv_nonneg (by omega) (by decide)
  have hback : ¬ elapsedMs start now / 1000 < 0 := by omega
  unfold WaitsInTime pollTimeout
  dsimp only
  rw [hsec, Int.tdiv_eq_ediv_of_nonneg hpos, hnsec, if_neg hback]
  have hremaining : t * 1000 - elapsedMs start now =
      (t - elapsedMs start now / 1000) * 1000 - elapsedMs start now % 1000 := by omega
  have hleft : t - elapsedMs start now / 1000 < 2 ^ 31 := by
    unfold intMax at hmax
    omega
  rw [hremaining]
  by_cases hint : toInt (t - elapsedMs start now / 1000) < 0
  · rw [if_pos hint]
    exact iff_of_true ⟨0, rfl, Int.le_refl 0, by decide, Int.le_max_left ..⟩ (Or.inl hint)
  · rw [if_neg hint, toInt_sum, ← sum_le_iff hleft (by omega) (by omega) hint]
    constructor
    · rintro ⟨timeout, heq, h⟩
      cases heq
      exact h
    · exact fun h => ⟨_, rfl, h⟩

/-- Three and a half seconds of ten. -/
theorem waitsInTime_iff_3500 : WaitsInTime 10 ⟨0, 0⟩ ⟨3, 500000000⟩ ↔
    SumFits (10 - elapsedMs ⟨0, 0⟩ ⟨3, 500000000⟩ / 1000) (elapsedMs ⟨0, 0⟩ ⟨3, 500000000⟩ % 1000) :=
  waitsInTime_iff (by decide) (by decide) ⟨by decide, by decide⟩ ⟨by decide, by decide⟩ (by decide)

/-- The milliseconds that have passed are added. -/
theorem waits_too_long : ¬ ∀ (t : ℤ) (start now : Timespec), 0 ≤ t → t ≤ intMax → start.Valid →
    now.Valid → start.ns ≤ now.ns → WaitsInTime t start now := by
  intro h
  obtain ⟨timeout, heq, -, -, hle⟩ := h 10 ⟨0, 0⟩ ⟨3, 400000000⟩ (by decide) (by decide)
    ⟨by decide, by decide⟩ ⟨by decide, by decide⟩ (by decide)
  have hpoll : pollTimeout 10 ⟨0, 0⟩ ⟨3, 400000000⟩ = some 7400 := by decide
  rw [hpoll] at heq
  cases heq
  exact absurd hle (by decide)

end Ucentral.Plat.Script
