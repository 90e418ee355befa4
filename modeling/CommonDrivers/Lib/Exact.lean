import Mathlib.Analysis.SpecialFunctions.Pow.Real
import Mathlib.Analysis.SpecialFunctions.Trigonometric.Basic
import CommonDrivers.Lib.CFloat

/-! # Exact arithmetic

The readings of float arithmetic without rounding: as rationals, and as reals where the mathematical
library is needed.
-/

instance : CFloat ℚ where
  lit q := q
  atof := CString.decimal

noncomputable instance : CMath ℝ where
  lit q := q
  atof s := CString.decimal s
  gt x y := decide (x > y)
  pow := (· ^ ·)
  log := Real.log
  pi := Real.pi
