import CommonDrivers.Lib.Exact
import CommonDrivers.Sensors.BoschInit

/-! # The full scale of the inertial unit

`BMI088::init` asks for 24 g and 2000 degrees a second, and whatever becomes of it the conversions
of `BMI088::read` then use these two. Over the reals they are the raw values in SI units.
-/

namespace CommonDrivers.Sensors

open Exec

namespace Bmi088

/-! ## The ranges that an init leaves -/

/-- What the conversions see of the device struct. -/
def Struct.ranges {D : Type} (self : Struct D) : Dev := ⟨self.accelCfg.range, self.gyroCfg.range⟩

/-- The routine leaves the requested configurations in the struct as they are. -/
def KeepsConfig {D : Type} (routine : Routine (Struct D)) : Prop :=
  ∀ dev trace res, (routine dev).Yields trace res →
    res.2.accelCfg = dev.accelCfg ∧ res.2.gyroCfg = dev.gyroCfg

section Init

variable {σ D : Type} {serve : ∀ c : BoschCall, Exec σ c.Reply}

theorem inOrder_ranges {routines : List (Routine (Struct D))} (h : ∀ r ∈ routines, KeepsConfig r)
    {dev dev' : Struct D} {s s' : σ} {ok : Bool}
    (hrun : inOrder serve routines dev s = some ((ok, dev'), s')) : dev'.ranges = dev.ranges := by
  induction routines generalizing dev s with
  | nil =>
    obtain ⟨hdev, -⟩ := Prod.mk.inj (Option.some.inj hrun)
    rw [(Prod.mk.inj hdev).2]
  | cons routine routines ih =>
    obtain ⟨hroutine, hroutines⟩ := List.forall_mem_cons.mp h
    rw [inOrder, bind_apply] at hrun
    obtain ⟨⟨res, s₁⟩, hfirst, hrest⟩ := Option.bind_eq_some_iff.mp hrun
    obtain ⟨trace, hyields⟩ := Program.yields_of_run hfirst
    obtain ⟨haccel, hgyro⟩ := hroutine dev trace res hyields
    have hkept : res.2.ranges = dev.ranges := by rw [Struct.ranges, Struct.ranges, haccel, hgyro]
    -- the ranges are kept whether the init goes on or returns here
    by_cases hret : res.1 = 0
    · simp only [hret, ne_eq, not_true_eq_false, if_false] at hrest
      rw [ih hroutines hrest, hkept]
    · simp only [ne_eq, if_pos hret, pure_apply] at hrest
      obtain ⟨hdev, -⟩ := Prod.mk.inj (Option.some.inj hrest)
      rw [← (Prod.mk.inj hdev).2, hkept]

/-- Whether or not it succeeds, `init` leaves the ranges that it has asked for. -/
theorem init_ranges {lib : Library D} (h : ∀ r ∈ initRoutines lib, KeepsConfig r)
    {self self' : Struct D} {s s' : σ} {ok : Bool}
    (hrun : init lib serve self s = some ((ok, self'), s')) : self'.ranges = ⟨3, 0⟩ :=
  (inOrder_ranges h hrun).trans rfl

end Init

/-! ## The conversions over the reals -/

/-- The full scale of the accelerometer is `1.5 * 2 ^ (range + 1)` g. -/
theorem convertAccelAxisData_real (dev : Dev) (raw : Int16) :
    (convertAccelAxisData dev raw : ℝ) =
      raw.toInt * (1.5 * 2 ^ (dev.accelRange.toNat + 1) * 9.81) / 32768 := by
  have hsucc : ((dev.accelRange.toNat : ℚ) + 1) = ((dev.accelRange.toNat + 1 : ℕ) : ℚ) :=
    (Nat.cast_succ _).symm
  have hpow : ((2 : ℚ) : ℝ) ^ (((dev.accelRange.toNat : ℚ) + 1 : ℚ) : ℝ) =
      2 ^ (dev.accelRange.toNat + 1) := by
    rw [hsucc, Rat.cast_natCast, Real.rpow_natCast, Rat.cast_ofNat]
  have hdef : (convertAccelAxisData dev raw : ℝ) =
      ((raw.toInt : ℚ) : ℝ) / ((32768 : ℚ) : ℝ) * ((1000 : ℚ) : ℝ) *
        ((2 : ℚ) : ℝ) ^ (((dev.accelRange.toNat : ℚ) + 1 : ℚ) : ℝ) * ((1.5 : ℚ) : ℝ) *
        ((0.00981 : ℚ) : ℝ) := rfl
  rw [hdef, hpow]
  push_cast
  ring

theorem convertGyroRawRange_real (raw : Int16) (range : ℚ) :
    (convertGyroRawRange raw range : ℝ) = raw.toInt * range / 32768 * (Real.pi / 180) := by
  have hdef : (convertGyroRawRange raw range : ℝ) =
      ((raw.toInt : ℚ) : ℝ) * (range : ℝ) / ((32768 : ℚ) : ℝ) * (Real.pi / ((180 : ℚ) : ℝ)) := rfl
  rw [hdef]
  push_cast
  ring

/-- The full scale of the gyroscope is `2000 / 2 ^ range` degrees a second; for an unknown range the
reading is 0. -/
theorem convertGyroAxisData_real (dev : Dev) (raw : Int16) :
    (convertGyroAxisData dev raw : ℝ) =
      if dev.gyroRange ≤ 4 then
        raw.toInt * (2000 / 2 ^ dev.gyroRange.toNat) / 32768 * (Real.pi / 180)
      else 0 := by
  have hranges : ∀ r : UInt8, r ≤ 4 → r = 0 ∨ r = 1 ∨ r = 2 ∨ r = 3 ∨ r = 4 := by
    intro r h
    have hle := UInt8.le_iff_toNat_le.mp h
    simp only [← UInt8.toNat_inj]
    change r.toNat ≤ 4 at hle
    change r.toNat = 0 ∨ r.toNat = 1 ∨ r.toNat = 2 ∨ r.toNat = 3 ∨ r.toNat = 4
    omega
  have hknown : ∀ (range : ℚ) (k : ℕ), (range : ℝ) = 2000 / 2 ^ k →
      (convertGyroRawRange raw range : ℝ) =
        raw.toInt * (2000 / 2 ^ k) / 32768 * (Real.pi / 180) := by
    intro range k hrange
    rw [convertGyroRawRange_real, hrange]
  by_cases hle : dev.gyroRange ≤ 4
  · rw [if_pos hle, convertGyroAxisData]
    rcases hranges _ hle with h | h | h | h | h
    · rw [h]
      exact hknown 2000 0 (by norm_num)
    · rw [h]
      exact hknown 1000 1 (by norm_num)
    · rw [h]
      exact hknown 500 2 (by norm_num)
    · rw [h]
      exact hknown 250 3 (by norm_num)
    · rw [h]
      exact hknown 125 4 (by norm_num)
  · rw [if_neg hle, convertGyroAxisData]
    have hne : ∀ k : UInt8, k ≤ 4 → dev.gyroRange ≠ k := fun k hk h => hle (h ▸ hk)
    split
    · next h => exact absurd h (hne 0 (by decide))
    · next h => exact absurd h (hne 1 (by decide))
    · next h => exact absurd h (hne 2 (by decide))
    · next h => exact absurd h (hne 3 (by decide))
    · next h => exact absurd h (hne 4 (by decide))
    · rfl

end Bmi088

end CommonDrivers.Sensors
