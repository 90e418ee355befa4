import Mathlib.Algebra.Order.Floor.Semiring
import Mathlib.Data.Nat.Notation
import Mathlib.Data.Rat.Floor

/-! # Delays

The macro `Delay` of `include/hal.h` in an RTOS build, the `bosch_delay` callbacks over it and the
waits of the flash driver. A callback rounds its microseconds up to milliseconds, but
`pdMS_TO_TICKS` rounds these down to ticks.
-/

namespace CommonDrivers.Delay

variable (tickRateHz : ℕ)

/-- `pdMS_TO_TICKS`, at a tick rate of `configTICK_RATE_HZ`. -/
def pdMsToTicks (ms : ℕ) : ℕ := ms * tickRateHz / 1000

/-- The ticks that `Delay` hands to `vTaskDelay`. -/
def delay (ms : ℕ) : ℕ := pdMsToTicks tickRateHz ms

/-- The milliseconds of a period in microseconds, rounded up. -/
def boschMs (period : UInt32) : ℕ := ⌈(period.toNat : ℚ) / 1000⌉₊

/-- The ticks of `bosch_delay`, the same in `src/sensors/bmp581.cpp` and in `bmi088.cpp`. -/
def boschDelay (period : UInt32) : ℕ := delay tickRateHz (boschMs period)

/-- The waits of the flash driver: for a page to reach the cache, for a program to execute, for an
erase, and for the chip behind its unlocking. -/
def flashDelays : List ℕ := [2, 1, 12, 5000]

/-! ## The two roundings -/

/-- Rounding up leaves no microsecond out. -/
theorem le_boschMs (period : UInt32) : period.toNat ≤ 1000 * boschMs period := by
  have h : (period.toNat : ℚ) / 1000 ≤ boschMs period := Nat.le_ceil _
  rw [div_le_iff₀ (by norm_num), mul_comm] at h
  exact_mod_cast h

/-- The ticks, and what rounding down to them cuts off. -/
theorem delay_add_mod (ms : ℕ) : delay tickRateHz ms * 1000 + ms * tickRateHz % 1000 =
    ms * tickRateHz := Nat.div_add_mod' _ _

/-- Milliseconds survive exactly if they are a whole number of ticks. -/
theorem delay_spans_iff (ms : ℕ) :
    ms * tickRateHz ≤ delay tickRateHz ms * 1000 ↔ 1000 ∣ ms * tickRateHz := by
  have h := delay_add_mod tickRateHz ms
  rw [Nat.dvd_iff_mod_eq_zero]
  omega

/-- Microseconds survive exactly if rounding up adds what rounding down cuts off. -/
theorem boschDelay_spans_iff (period : UInt32) :
    period.toNat * tickRateHz ≤ boschDelay tickRateHz period * 1000000 ↔
      1000 * (boschMs period * tickRateHz % 1000) ≤
        (1000 * boschMs period - period.toNat) * tickRateHz := by
  have h := delay_add_mod tickRateHz (boschMs period)
  have hle := Nat.mul_le_mul_right tickRateHz (le_boschMs period)
  rw [mul_assoc] at hle
  rw [boschDelay, Nat.sub_mul, mul_assoc]
  omega

/-- Every delay of the two Bosch drivers and of the flash driver spans what it was asked for. -/
def AllSpan : Prop :=
  (∀ period : UInt32, period.toNat * tickRateHz ≤ boschDelay tickRateHz period * 1000000) ∧
    ∀ ms ∈ flashDelays, ms * tickRateHz ≤ delay tickRateHz ms * 1000

/-- **No delay is too short if and only if the tick rate is a multiple of 1000 Hz.** At any other
rate a single delay of the flash driver is long enough exactly if it is a whole number of ticks, and
one of the Bosch drivers exactly if rounding up adds at least what rounding down cuts off. -/
theorem allSpan_iff (tickRateHz : ℕ) :
    (AllSpan tickRateHz ↔ 1000 ∣ tickRateHz) ∧
      (∀ ms ∈ flashDelays,
        ms * tickRateHz ≤ delay tickRateHz ms * 1000 ↔ 1000 ∣ ms * tickRateHz) ∧
      ∀ period : UInt32, period.toNat * tickRateHz ≤ boschDelay tickRateHz period * 1000000 ↔
        1000 * (boschMs period * tickRateHz % 1000) ≤
          (1000 * boschMs period - period.toNat) * tickRateHz := by
  refine ⟨⟨fun h => ?_, fun h => ⟨fun period => ?_, fun ms _ => ?_⟩⟩,
    fun ms _ => delay_spans_iff tickRateHz ms, boschDelay_spans_iff tickRateHz⟩
  · -- the shortest wait, of one millisecond, needs a whole number of ticks
    have hone : 1 ∈ flashDelays := by decide
    have hdvd := (delay_spans_iff tickRateHz 1).mp (h.2 1 hone)
    rwa [one_mul] at hdvd
  · rw [boschDelay_spans_iff, Nat.mod_eq_zero_of_dvd (Dvd.dvd.mul_left h _)]
    exact Nat.zero_le _
  · exact (delay_spans_iff tickRateHz ms).mpr (Dvd.dvd.mul_left h ms)

/-- At 100 Hz a Bosch delay of a millisecond and the wait for a program to execute are no ticks. -/
theorem not_allSpan_hundred :
    boschDelay 100 1000 = 0 ∧ delay 100 1 = 0 ∧ ¬ AllSpan 100 := by
  have hms : boschMs 1000 = 1 := by simp [boschMs]
  have hbosch : boschDelay 100 1000 = 0 := by rw [boschDelay, hms]; rfl
  refine ⟨hbosch, rfl, fun h => ?_⟩
  have hspans := h.1 1000
  rw [hbosch] at hspans
  exact absurd hspans (by decide)

end CommonDrivers.Delay
