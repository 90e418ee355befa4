import Mathlib.Analysis.Convex.SpecificFunctions.Basic
import Mathlib.Analysis.SpecialFunctions.Log.Deriv

/-! # Bounds of logarithms and powers

Decimal bounds of logarithms and exponentials at rational numbers, from finite sums of their series,
and bounds of logarithms and powers near 1 by rational functions.
-/

namespace RealBounds

open Finset Real

/-! ## Decimals -/

section Decimals

variable {x q : ℝ} (n : ℕ)

/-- The ratio in whose powers the series of `log x` runs. -/
theorem ratio_spec (hx : 1 ≤ x) : 0 ≤ (x - 1) / (x + 1) ∧ (x - 1) / (x + 1) < 1 ∧
    (1 + (x - 1) / (x + 1)) / (1 - (x - 1) / (x + 1)) = x := by
  refine ⟨div_nonneg (sub_nonneg.mpr hx) (by positivity), ?_, ?_⟩
  · rw [div_lt_one (by positivity)]
    linarith
  · have hne : x + 1 ≠ 0 := by positivity
    field_simp
    ring

/-- Any part of the series is a lower bound. -/
theorem lt_log (hx : 1 ≤ x)
    (h : q < 2 * ∑ i ∈ range n, ((x - 1) / (x + 1)) ^ (2 * i + 1) / (2 * i + 1)) : q < log x := by
  obtain ⟨hnonneg, hlt, hratio⟩ := ratio_spec hx
  have hsum := sum_range_le_log_div hnonneg hlt n
  rw [hratio] at hsum
  linarith only [h, hsum]

/-- An upper bound adds a geometric series for the rest. -/
theorem log_lt (hx : 1 ≤ x)
    (h : 2 * ((∑ i ∈ range n, ((x - 1) / (x + 1)) ^ (2 * i + 1) / (2 * i + 1)) +
      ((x - 1) / (x + 1)) ^ (2 * n + 1) / (1 - ((x - 1) / (x + 1)) ^ 2)) < q) : log x < q := by
  obtain ⟨hnonneg, hlt, hratio⟩ := ratio_spec hx
  have hsum := log_div_le_sum_range_add hnonneg hlt n
  rw [hratio] at hsum
  linarith only [h, hsum]

/-- Any part of the series is a lower bound. -/
theorem lt_exp (hx : 0 ≤ x) (h : q < ∑ i ∈ range n, x ^ i / i.factorial) : q < exp x :=
  h.trans_le (sum_le_exp_of_nonneg hx n)

/-- An upper bound adds the remainder. -/
theorem exp_lt (hx : 0 ≤ x) (hone : x ≤ 1) (hn : 0 < n)
    (h : (∑ i ∈ range n, x ^ i / i.factorial) + x ^ n * (n + 1) / (n.factorial * n) < q) :
    exp x < q :=
  (exp_bound' hx hone hn).trans_lt h

end Decimals

/-! ## Near one

The tangents of `log` and of a power at 1, and the bounds on the other side.
-/

section Near

variable {a p e : ℝ} (ha : 0 < a) (hp : 0 < p)
include ha hp

/-- The logarithm lies below its tangent. -/
theorem log_div_le : log (a / p) ≤ (a - p) / p := by
  have h := log_le_sub_one_of_pos (div_pos ha hp)
  rwa [div_sub_one hp.ne'] at h

theorem le_log_div : (a - p) / a ≤ log (a / p) := by
  have h := one_sub_inv_le_log_of_pos (div_pos ha hp)
  rwa [inv_div, one_sub_div ha.ne'] at h

/-- A power with an exponent up to 1 lies below its tangent. -/
theorem rpow_div_le (he : 0 ≤ e) (hone : e ≤ 1) : (p / a) ^ e - 1 ≤ e * ((p - a) / a) := by
  have hratio : 1 + (p - a) / a = p / a := by
    field_simp
    ring
  have h := rpow_one_add_le_one_add_mul_self (s := (p - a) / a)
    (by rw [← sub_nonneg, sub_neg_eq_add, add_comm, hratio]; positivity) he hone
  rw [hratio] at h
  linarith only [h]

theorem le_rpow_div (he : 0 ≤ e) : e * ((p - a) / p) ≤ (p / a) ^ e - 1 := by
  have hlog := mul_le_mul_of_nonneg_left (le_log_div hp ha) he
  have hexp := add_one_le_exp (log (p / a) * e)
  rw [rpow_def_of_pos (div_pos hp ha)]
  linarith only [hlog, hexp]

end Near

end RealBounds
