import CommonDrivers.Lib.Bounds
import CommonDrivers.Lib.Exact
import CommonDrivers.Sensors.Bosch

/-! # The altitude of the barometer

`bmp581_estimate_altitude_msl` over the reals. In each layer the altitude falls with the pressure,
and so it does from one layer of the stratosphere to the other. At the tropopause the formula of the
troposphere is 0.738 m too high for that of the stratosphere: there the altitude rises with the
pressure.
-/

namespace CommonDrivers.Sensors.Bmp581

/-! ## The formulas -/

/-- The exponent of the troposphere. -/
noncomputable def troposphereExponent : ℝ := 8.31446 * 0.0065 / (9.80665 * 0.0289644)

/-- The scale factor of the lower stratosphere. -/
noncomputable def scaleFactor : ℝ := 8.31446 * 216.65 / (9.80665 * 0.0289644)

/-- The exponent of the upper stratosphere, without its sign. -/
noncomputable def stratosphereExponent : ℝ := 8.31446 * 0.001 / (9.80665 * 0.0289644)

/-- A float constant is its decimal value. -/
theorem lit_real (q : ℚ) : (CFloat.lit q : ℝ) = q := rfl

theorem calcAltitudeTroposphereMsl_eq (p : ℝ) :
    calcAltitudeTroposphereMsl p =
      288.15 / 0.0065 * (1 - (p / 101325) ^ troposphereExponent) := by
  have hexp : (-gasConstant * troposphereLapseRate) / (gravityAccel * airMolarMass) =
      troposphereExponent := by
    norm_num [gasConstant, troposphereLapseRate, gravityAccel, airMolarMass, lit_real,
      troposphereExponent]
  have hdef : calcAltitudeTroposphereMsl p =
      standardSeaLevelTemp / troposphereLapseRate *
        ((p / standardSeaLevelPressure) ^ ((-gasConstant * troposphereLapseRate : ℝ) /
          (gravityAccel * airMolarMass)) - CFloat.lit 1) := rfl
  rw [hdef, hexp]
  norm_num [standardSeaLevelTemp, troposphereLapseRate, standardSeaLevelPressure, lit_real]
  ring

theorem calcAltitudeLowerStratosphereMsl_eq (p : ℝ) :
    calcAltitudeLowerStratosphereMsl p = 11000 - scaleFactor * Real.log (p / 22630) := by
  have hdef : calcAltitudeLowerStratosphereMsl p =
      tropopauseBaseAltitude - (gasConstant * stratosphereBaseTemp) /
        (gravityAccel * airMolarMass) * Real.log (p / tropopausePressure) := rfl
  rw [hdef]
  norm_num [tropopauseBaseAltitude, gasConstant, stratosphereBaseTemp, gravityAccel, airMolarMass,
    tropopausePressure, lit_real, scaleFactor]

/-- The height above the tropopause. -/
theorem calcAltitudeLowerStratosphereMsl_sub (p : ℝ) :
    calcAltitudeLowerStratosphereMsl p - 11000 = scaleFactor * Real.log (22630 / p) := by
  have hinv : Real.log (p / 22630) = -Real.log (22630 / p) := by rw [← Real.log_inv, inv_div]
  rw [calcAltitudeLowerStratosphereMsl_eq, hinv]
  ring

theorem calcAltitudeUpperStratosphereMsl_eq (p : ℝ) :
    calcAltitudeUpperStratosphereMsl p =
      20000 + 216650 * ((p / 5475) ^ (-stratosphereExponent) - 1) := by
  have hexp : (-gasConstant * upperStratosphereLapseRate) / (gravityAccel * airMolarMass) =
      -stratosphereExponent := by
    norm_num [gasConstant, upperStratosphereLapseRate, gravityAccel, airMolarMass, lit_real,
      stratosphereExponent]
  have hdef : calcAltitudeUpperStratosphereMsl p =
      stratosphereMiddleBaseAltitude + stratosphereBaseTemp / upperStratosphereLapseRate *
        ((p / stratosphereMiddlePressure) ^ ((-gasConstant * upperStratosphereLapseRate : ℝ) /
          (gravityAccel * airMolarMass)) - CFloat.lit 1) := rfl
  rw [hdef, hexp]
  norm_num [stratosphereMiddleBaseAltitude, stratosphereBaseTemp, upperStratosphereLapseRate,
    stratosphereMiddlePressure, lit_real]

theorem troposphereExponent_pos : 0 < troposphereExponent := by
  norm_num [troposphereExponent]

theorem scaleFactor_pos : 0 < scaleFactor := by
  norm_num [scaleFactor]

theorem stratosphereExponent_pos : 0 < stratosphereExponent := by
  norm_num [stratosphereExponent]

/-! ## Each layer -/

theorem calcAltitudeTroposphereMsl_strictAntiOn :
    StrictAntiOn (calcAltitudeTroposphereMsl : ℝ → ℝ) (Set.Ioi 0) := by
  intro p hp q _ h
  have hp : 0 < p := hp
  have hratio : p / 101325 < q / 101325 := div_lt_div_of_pos_right h (by norm_num)
  have hpow : (p / 101325) ^ troposphereExponent < (q / 101325) ^ troposphereExponent :=
    Real.rpow_lt_rpow (by positivity) hratio troposphereExponent_pos
  rw [calcAltitudeTroposphereMsl_eq, calcAltitudeTroposphereMsl_eq]
  exact mul_lt_mul_of_pos_left (sub_lt_sub_left hpow 1) (by norm_num)

theorem calcAltitudeLowerStratosphereMsl_strictAntiOn :
    StrictAntiOn (calcAltitudeLowerStratosphereMsl : ℝ → ℝ) (Set.Ioi 0) := by
  intro p hp q _ h
  have hp : 0 < p := hp
  have hratio : p / 22630 < q / 22630 := div_lt_div_of_pos_right h (by norm_num)
  have hlog : Real.log (p / 22630) < Real.log (q / 22630) :=
    Real.log_lt_log (by positivity) hratio
  rw [calcAltitudeLowerStratosphereMsl_eq, calcAltitudeLowerStratosphereMsl_eq]
  exact sub_lt_sub_left (mul_lt_mul_of_pos_left hlog scaleFactor_pos) 11000

theorem calcAltitudeUpperStratosphereMsl_strictAntiOn :
    StrictAntiOn (calcAltitudeUpperStratosphereMsl : ℝ → ℝ) (Set.Ioi 0) := by
  intro p hp q _ h
  have hp : 0 < p := hp
  have hratio : p / 5475 < q / 5475 := div_lt_div_of_pos_right h (by norm_num)
  have hpow : (q / 5475) ^ (-stratosphereExponent) < (p / 5475) ^ (-stratosphereExponent) :=
    Real.rpow_lt_rpow_of_neg (by positivity) hratio (neg_neg_of_pos stratosphereExponent_pos)
  rw [calcAltitudeUpperStratosphereMsl_eq, calcAltitudeUpperStratosphereMsl_eq]
  linarith only [hpow]

/-! ## The junctions -/

/-- The formula of the upper stratosphere starts at the middle altitude. -/
theorem calcAltitudeUpperStratosphereMsl_middle :
    calcAltitudeUpperStratosphereMsl (5475 : ℝ) = 20000 := by
  rw [calcAltitudeUpperStratosphereMsl_eq, div_self (by norm_num), Real.one_rpow]
  norm_num

/-- The formula of the lower stratosphere ends below the middle altitude. -/
theorem calcAltitudeLowerStratosphereMsl_middle :
    calcAltitudeLowerStratosphereMsl (5475 : ℝ) < 20000 := by
  have hlog : Real.log (22630 / 5475) < 1.41915 :=
    RealBounds.log_lt 12 (by norm_num) (by norm_num [Finset.sum_range_succ])
  have hscale : scaleFactor * 1.41915 < 9000 := by norm_num [scaleFactor]
  linarith only [hscale, mul_lt_mul_of_pos_left hlog scaleFactor_pos,
    calcAltitudeLowerStratosphereMsl_sub 5475]

/-- The ratio of the pressures at sea level and at the tropopause, raised to the exponent. -/
theorem exp_tropopause :
    1.33005484 < (101325 / 22630 : ℝ) ^ troposphereExponent ∧
      (101325 / 22630 : ℝ) ^ troposphereExponent < 1.33005487 := by
  have hlow : 1.49905671 < Real.log (101325 / 22630) :=
    RealBounds.lt_log 22 (by norm_num) (by norm_num [Finset.sum_range_succ])
  have hhigh : Real.log (101325 / 22630) < 1.49905672 :=
    RealBounds.log_lt 24 (by norm_num) (by norm_num [Finset.sum_range_succ])
  have hexpLow : 0.28522018 < 1.49905671 * troposphereExponent := by norm_num [troposphereExponent]
  have hexpHigh : 1.49905672 * troposphereExponent < 0.28522019 := by norm_num [troposphereExponent]
  rw [Real.rpow_def_of_pos (by norm_num)]
  constructor
  · calc (1.33005484 : ℝ) < Real.exp 0.28522018 :=
          RealBounds.lt_exp 10 (by norm_num) (by norm_num [Finset.sum_range_succ, Nat.factorial])
      _ ≤ _ := Real.exp_le_exp.mpr
          (hexpLow.le.trans (mul_le_mul_of_nonneg_right hlow.le troposphereExponent_pos.le))
  · calc _ ≤ Real.exp 0.28522019 := Real.exp_le_exp.mpr
          ((mul_le_mul_of_nonneg_right hhigh.le troposphereExponent_pos.le).trans hexpHigh.le)
      _ < 1.33005487 := RealBounds.exp_lt 10 (by norm_num) (by norm_num) (by norm_num)
          (by norm_num [Finset.sum_range_succ, Nat.factorial])

/-- The formula of the troposphere ends 0.738 m above the 11000 m of the tropopause. -/
theorem calcAltitudeTroposphereMsl_tropopause :
    11000.738 < calcAltitudeTroposphereMsl (22630 : ℝ) ∧
      calcAltitudeTroposphereMsl (22630 : ℝ) < 11000.739 := by
  obtain ⟨hlow, hhigh⟩ := exp_tropopause
  have hinv : (22630 / 101325 : ℝ) ^ troposphereExponent =
      ((101325 / 22630 : ℝ) ^ troposphereExponent)⁻¹ := by
    rw [← Real.inv_rpow (by norm_num), inv_div]
  have hinvLow := inv_strictAnti₀ (by positivity) hhigh
  have hinvHigh := inv_strictAnti₀ (by norm_num) hlow
  rw [calcAltitudeTroposphereMsl_eq, hinv]
  norm_num at hinvLow hinvHigh ⊢
  constructor
  · linarith only [hinvHigh]
  · linarith only [hinvLow]

/-! ## Near the tropopause

Within 3 Pa of the tropopause both formulas fall by between 0.28 m and 0.2805 m for each pascal.
-/

section Near

variable {p : ℝ}

/-- The slope of the logarithm is between those of its two tangents. -/
theorem calcAltitudeLowerStratosphereMsl_near (hlow : 22627 ≤ p) (hp : p ≤ 22630) :
    0.28 * (22630 - p) ≤ calcAltitudeLowerStratosphereMsl p - 11000 ∧
      calcAltitudeLowerStratosphereMsl p - 11000 ≤ 0.2805 * (22630 - p) := by
  have hpos : 0 < p := by linarith only [hlow]
  have hdrop : 0 ≤ 22630 - p := sub_nonneg.mpr hp
  have hscale : 0.28 ≤ scaleFactor / 22630 ∧ scaleFactor / 22627 ≤ 0.2805 := by
    norm_num [scaleFactor]
  rw [calcAltitudeLowerStratosphereMsl_sub]
  constructor
  · calc 0.28 * (22630 - p) ≤ scaleFactor / 22630 * (22630 - p) :=
          mul_le_mul_of_nonneg_right hscale.1 hdrop
      _ = scaleFactor * ((22630 - p) / 22630) := by ring
      _ ≤ scaleFactor * Real.log (22630 / p) :=
          mul_le_mul_of_nonneg_left (RealBounds.le_log_div (by norm_num) hpos) scaleFactor_pos.le
  · calc scaleFactor * Real.log (22630 / p) ≤ scaleFactor * ((22630 - p) / p) :=
          mul_le_mul_of_nonneg_left (RealBounds.log_div_le (by norm_num) hpos) scaleFactor_pos.le
      _ ≤ scaleFactor * ((22630 - p) / 22627) :=
          mul_le_mul_of_nonneg_left (div_le_div_of_nonneg_left hdrop (by norm_num) hlow)
            scaleFactor_pos.le
      _ = scaleFactor / 22627 * (22630 - p) := by ring
      _ ≤ 0.2805 * (22630 - p) := mul_le_mul_of_nonneg_right hscale.2 hdrop

/-- The fall from the tropopause, as a power of the ratio of the pressures. -/
theorem calcAltitudeTroposphereMsl_sub (hp : 0 < p) :
    calcAltitudeTroposphereMsl 22630 - calcAltitudeTroposphereMsl p =
      (288.15 / 0.0065 - calcAltitudeTroposphereMsl 22630) *
        ((p / 22630) ^ troposphereExponent - 1) := by
  have hpow : (p / 101325) ^ troposphereExponent =
      (p / 22630) ^ troposphereExponent * (22630 / 101325) ^ troposphereExponent := by
    rw [← Real.mul_rpow (by positivity) (by norm_num), div_mul_div_cancel₀ (by norm_num)]
  rw [calcAltitudeTroposphereMsl_eq, calcAltitudeTroposphereMsl_eq, hpow]
  ring

/-- The slope of the power, likewise. -/
theorem calcAltitudeTroposphereMsl_near (hp : 22630 ≤ p) (hhigh : p ≤ 22633) :
    0.28 * (p - 22630) ≤ calcAltitudeTroposphereMsl 22630 - calcAltitudeTroposphereMsl p ∧
      calcAltitudeTroposphereMsl 22630 - calcAltitudeTroposphereMsl p ≤ 0.2805 * (p - 22630) := by
  have hpos : 0 < p := by linarith only [hp]
  have hrise : 0 ≤ p - 22630 := sub_nonneg.mpr hp
  have hfactor : 33330 ≤ 288.15 / 0.0065 - calcAltitudeTroposphereMsl (22630 : ℝ) ∧
      288.15 / 0.0065 - calcAltitudeTroposphereMsl (22630 : ℝ) ≤ 33331 := by
    obtain ⟨hlow, hhigh⟩ := calcAltitudeTroposphereMsl_tropopause
    constructor
    · linarith only [hhigh]
    · linarith only [hlow]
  have hslope : 0.28 ≤ 33330 * troposphereExponent / 22633 ∧
      33331 * troposphereExponent / 22630 ≤ 0.2805 := by
    norm_num [troposphereExponent]
  have hexp := troposphereExponent_pos.le
  have hone : troposphereExponent ≤ 1 := by norm_num [troposphereExponent]
  rw [calcAltitudeTroposphereMsl_sub hpos]
  constructor
  · calc 0.28 * (p - 22630) ≤ 33330 * troposphereExponent / 22633 * (p - 22630) :=
          mul_le_mul_of_nonneg_right hslope.1 hrise
      _ = 33330 * (troposphereExponent * ((p - 22630) / 22633)) := by ring
      _ ≤ 33330 * (troposphereExponent * ((p - 22630) / p)) := by gcongr
      _ ≤ 33330 * ((p / 22630) ^ troposphereExponent - 1) :=
          mul_le_mul_of_nonneg_left (RealBounds.le_rpow_div (by norm_num) hpos hexp) (by norm_num)
      _ ≤ _ := by
          refine mul_le_mul_of_nonneg_right hfactor.1 ?_
          exact (mul_nonneg hexp (div_nonneg hrise hpos.le)).trans
            (RealBounds.le_rpow_div (by norm_num) hpos hexp)
  · calc _ ≤ (288.15 / 0.0065 - calcAltitudeTroposphereMsl 22630) *
          (troposphereExponent * ((p - 22630) / 22630)) :=
          mul_le_mul_of_nonneg_left (RealBounds.rpow_div_le (by norm_num) hpos hexp hone)
            (by linarith only [hfactor.1])
      _ ≤ 33331 * (troposphereExponent * ((p - 22630) / 22630)) :=
          mul_le_mul_of_nonneg_right hfactor.2
            (mul_nonneg hexp (div_nonneg hrise (by norm_num)))
      _ = 33331 * troposphereExponent / 22630 * (p - 22630) := by ring
      _ ≤ 0.2805 * (p - 22630) := mul_le_mul_of_nonneg_right hslope.2 hrise

end Near

/-! ## The altitude -/

/-- The three layers. -/
theorem estimateAltitudeMsl_eq (p : ℝ) :
    estimateAltitudeMsl p =
      if 22630 < p then calcAltitudeTroposphereMsl p
      else if 5475 < p then calcAltitudeLowerStratosphereMsl p
      else calcAltitudeUpperStratosphereMsl p := by
  have hgt : ∀ x y : ℝ, CMath.gt x y = true ↔ y < x := fun x y => decide_eq_true_iff
  have htropopause : (tropopausePressure : ℝ) = 22630 := by norm_num [tropopausePressure, lit_real]
  have hmiddle : (stratosphereMiddlePressure : ℝ) = 5475 := by
    norm_num [stratosphereMiddlePressure, lit_real]
  simp only [estimateAltitudeMsl, hgt, htropopause, hmiddle]

theorem estimateAltitudeMsl_strictAntiOn_troposphere :
    StrictAntiOn (estimateAltitudeMsl : ℝ → ℝ) (Set.Ioi 22630) := by
  intro p hp q hq h
  have hp : 22630 < p := hp
  have hq : 22630 < q := hq
  have hpos : (0 : ℝ) < 22630 := by norm_num
  rw [estimateAltitudeMsl_eq p, if_pos hp, estimateAltitudeMsl_eq q, if_pos hq]
  exact calcAltitudeTroposphereMsl_strictAntiOn (hpos.trans hp) (hpos.trans hq) h

/-- In the stratosphere the altitude falls with the pressure, across the two layers too. -/
theorem estimateAltitudeMsl_strictAntiOn_stratosphere :
    StrictAntiOn (estimateAltitudeMsl : ℝ → ℝ) (Set.Ioc 0 22630) := by
  rintro p ⟨hpos, hp⟩ q ⟨hqpos, hq⟩ h
  rw [estimateAltitudeMsl_eq p, if_neg hp.not_gt, estimateAltitudeMsl_eq q, if_neg hq.not_gt]
  by_cases hpmiddle : 5475 < p
  · rw [if_pos hpmiddle, if_pos (hpmiddle.trans h)]
    exact calcAltitudeLowerStratosphereMsl_strictAntiOn hpos hqpos h
  · by_cases hqmiddle : 5475 < q
    · rw [if_neg hpmiddle, if_pos hqmiddle]
      have hmiddle : (0 : ℝ) < 5475 := by norm_num
      calc calcAltitudeLowerStratosphereMsl q < calcAltitudeLowerStratosphereMsl 5475 :=
            calcAltitudeLowerStratosphereMsl_strictAntiOn hmiddle hqpos hqmiddle
        _ < 20000 := calcAltitudeLowerStratosphereMsl_middle
        _ = calcAltitudeUpperStratosphereMsl 5475 := calcAltitudeUpperStratosphereMsl_middle.symm
        _ ≤ calcAltitudeUpperStratosphereMsl p :=
            calcAltitudeUpperStratosphereMsl_strictAntiOn.antitoneOn hpos hmiddle
              (le_of_not_gt hpmiddle)
    · rw [if_neg hpmiddle, if_neg hqmiddle]
      exact calcAltitudeUpperStratosphereMsl_strictAntiOn hpos hqpos h

section Altitude

variable {p p₁ p₂ : ℝ}

/-- At pressures below the tropopause the altitude is at least 11000 m, and 0.28 m more for each of
the first 3 Pa. -/
theorem estimateAltitudeMsl_stratosphere (hpos : 0 < p) (hp : p ≤ 22630) :
    11000 + 0.28 * min 3 (22630 - p) ≤ estimateAltitudeMsl p := by
  have hnear : ∀ q : ℝ, 22627 ≤ q → q ≤ 22630 →
      11000 + 0.28 * (22630 - q) ≤ estimateAltitudeMsl q := by
    intro q hlow hq
    have hmiddle : 5475 < q := by linarith only [hlow]
    rw [estimateAltitudeMsl_eq, if_neg hq.not_gt, if_pos hmiddle]
    linarith only [(calcAltitudeLowerStratosphereMsl_near hlow hq).1]
  rcases le_total 22627 p with hlow | hlow
  · rw [min_eq_right (by linarith only [hlow])]
    exact hnear p hlow hp
  · rw [min_eq_left (by linarith only [hlow])]
    calc (11000 + 0.28 * 3 : ℝ) = 11000 + 0.28 * (22630 - 22627) := by norm_num
      _ ≤ estimateAltitudeMsl 22627 := hnear 22627 le_rfl (by norm_num)
      _ ≤ estimateAltitudeMsl p :=
          estimateAltitudeMsl_strictAntiOn_stratosphere.antitoneOn ⟨hpos, hp⟩
            ⟨by norm_num, by norm_num⟩ hlow

/-- At pressures above the tropopause the altitude is at most 11000.739 m, and 0.28 m less for each
of the first 3 Pa. -/
theorem estimateAltitudeMsl_troposphere (hp : 22630 < p) :
    estimateAltitudeMsl p < 11000.739 - 0.28 * min 3 (p - 22630) := by
  have hnear : ∀ q : ℝ, 22630 < q → q ≤ 22633 →
      estimateAltitudeMsl q < 11000.739 - 0.28 * (q - 22630) := by
    intro q hq hhigh
    rw [estimateAltitudeMsl_eq, if_pos hq]
    linarith only [(calcAltitudeTroposphereMsl_near hq.le hhigh).1,
      calcAltitudeTroposphereMsl_tropopause.2]
  rcases le_total p 22633 with hhigh | hhigh
  · rw [min_eq_right (by linarith only [hhigh])]
    exact hnear p hp hhigh
  · rw [min_eq_left (by linarith only [hhigh])]
    calc estimateAltitudeMsl p ≤ estimateAltitudeMsl 22633 :=
          estimateAltitudeMsl_strictAntiOn_troposphere.antitoneOn
            (by norm_num : (22630 : ℝ) < 22633) hp hhigh
      _ < 11000.739 - 0.28 * (22633 - 22630) := hnear 22633 (by norm_num) le_rfl
      _ = 11000.739 - 0.28 * 3 := by norm_num

/-- Pressures close to the tropopause on both sides: the altitude rises. -/
theorem estimateAltitudeMsl_lt_of_close (h₁ : p₁ ≤ 22630) (h₂ : 22630 < p₂)
    (h : p₂ - p₁ ≤ 2.63) : estimateAltitudeMsl p₁ < estimateAltitudeMsl p₂ := by
  have hmiddle : 5475 < p₁ := by linarith only [h₂, h]
  have hbelow := (calcAltitudeLowerStratosphereMsl_near (by linarith only [h₂, h]) h₁).2
  have habove := (calcAltitudeTroposphereMsl_near h₂.le (by linarith only [h₁, h])).2
  have hstep := calcAltitudeTroposphereMsl_tropopause.1
  rw [estimateAltitudeMsl_eq p₁, if_neg h₁.not_gt, if_pos hmiddle, estimateAltitudeMsl_eq p₂,
    if_pos h₂]
  linarith only [hbelow, habove, hstep, h]

/-- Pressures further apart across the tropopause: the altitude falls. -/
theorem estimateAltitudeMsl_lt_of_far (hpos : 0 < p₁) (h₁ : p₁ ≤ 22630) (h₂ : 22630 < p₂)
    (h : 2.64 ≤ p₂ - p₁) : estimateAltitudeMsl p₂ < estimateAltitudeMsl p₁ := by
  have hbelow := estimateAltitudeMsl_stratosphere hpos h₁
  have habove := estimateAltitudeMsl_troposphere h₂
  have hmin : 2.64 ≤ min 3 (22630 - p₁) + min 3 (p₂ - 22630) := by
    rcases le_total 3 (22630 - p₁) with hfar | hclose
    · have hnonneg : 0 ≤ min 3 (p₂ - 22630) := le_min (by norm_num) (sub_nonneg.mpr h₂.le)
      rw [min_eq_left hfar]
      linarith only [hnonneg]
    · rw [min_eq_right hclose]
      rcases le_total 3 (p₂ - 22630) with hfar | hclose
      · rw [min_eq_left hfar]
        linarith only [h₁]
      · rw [min_eq_right hclose]
        linarith only [h]
  linarith only [hbelow, habove, hmin]

/-- **The altitude falls with the pressure**, except that across the tropopause it rises between
pressures up to 2.63 Pa apart, by less than 0.75 m. -/
theorem estimateAltitudeMsl_order (hpos : 0 < p₁) (h : p₁ < p₂) :
    (p₂ ≤ 22630 ∨ 22630 < p₁ ∨ 2.64 ≤ p₂ - p₁ →
      estimateAltitudeMsl p₂ < estimateAltitudeMsl p₁) ∧
    (p₁ ≤ 22630 ∧ 22630 < p₂ ∧ p₂ - p₁ ≤ 2.63 →
      estimateAltitudeMsl p₁ < estimateAltitudeMsl p₂) ∧
    estimateAltitudeMsl p₂ < estimateAltitudeMsl p₁ + 0.75 := by
  rcases le_or_gt p₂ 22630 with h₂ | h₂
  · have hfall := estimateAltitudeMsl_strictAntiOn_stratosphere ⟨hpos, h.le.trans h₂⟩
      ⟨hpos.trans h, h₂⟩ h
    exact ⟨fun _ => hfall, fun hacross => absurd hacross.2.1 h₂.not_gt, by linarith only [hfall]⟩
  · rcases le_or_gt p₁ 22630 with h₁ | h₁
    · refine ⟨?_, fun hacross => estimateAltitudeMsl_lt_of_close h₁ h₂ hacross.2.2, ?_⟩
      · rintro (hbelow | habove | hfar)
        · exact absurd hbelow h₂.not_ge
        · exact absurd habove h₁.not_gt
        · exact estimateAltitudeMsl_lt_of_far hpos h₁ h₂ hfar
      · have hbelow : 0 ≤ min 3 (22630 - p₁) := le_min (by norm_num) (sub_nonneg.mpr h₁)
        have habove : 0 ≤ min 3 (p₂ - 22630) := le_min (by norm_num) (sub_nonneg.mpr h₂.le)
        linarith only [estimateAltitudeMsl_stratosphere hpos h₁,
          estimateAltitudeMsl_troposphere h₂, hbelow, habove]
    · have hfall := estimateAltitudeMsl_strictAntiOn_troposphere h₁ h₂ h
      exact ⟨fun _ => hfall, fun hacross => absurd hacross.1 h₁.not_ge, by linarith only [hfall]⟩

end Altitude

/-- At the tropopause and 1 Pa above it. -/
theorem estimateAltitudeMsl_order_tropopause :
    estimateAltitudeMsl (22630 : ℝ) < estimateAltitudeMsl 22631 ∧
      estimateAltitudeMsl (22631 : ℝ) < estimateAltitudeMsl 22630 + 0.75 := by
  obtain ⟨-, hclose, hbound⟩ := @estimateAltitudeMsl_order 22630 22631 (by norm_num) (by norm_num)
  exact ⟨hclose (by norm_num), hbound⟩

/-- The altitude does not fall with the pressure everywhere. -/
theorem not_estimateAltitudeMsl_strictAnti :
    ¬ ∀ p₁ p₂ : ℝ, 0 < p₁ → p₁ < p₂ → estimateAltitudeMsl p₂ < estimateAltitudeMsl p₁ := by
  intro h
  have hrise : estimateAltitudeMsl (22630 : ℝ) < estimateAltitudeMsl 22631 :=
    estimateAltitudeMsl_lt_of_close le_rfl (by norm_num) (by norm_num)
  exact hrise.not_gt (h 22630 22631 (by norm_num) (by norm_num))

end CommonDrivers.Sensors.Bmp581
