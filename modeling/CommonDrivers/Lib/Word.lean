import Mathlib.Algebra.Group.Nat.Defs

/-! # Words from bytes

A 32-bit word that a loop assembles by shifting each byte into place. `word_testBit` describes it
bit by bit; from it, shifting right gives each byte back, and no higher bit is set. `word_byteOf` is
the way back: a word is made of its own bytes.
-/

namespace Word

/-- The word whose byte `i` is `f i`, for `i < k`. -/
def word (f : ℕ → UInt8) (k : ℕ) : UInt32 :=
  (List.range k).foldl (fun acc i => acc ||| (f i).toUInt32 <<< UInt32.ofNat (8 * i)) 0

theorem word_succ (f : ℕ → UInt8) (k : ℕ) :
    word f (k + 1) = word f k ||| (f k).toUInt32 <<< UInt32.ofNat (8 * k) := by
  rw [word, List.range_succ, List.foldl_append]
  rfl

theorem byte_testBit (b : UInt8) {j : ℕ} (hj : 8 ≤ j) : b.toNat.testBit j = false :=
  Nat.testBit_lt_two_pow
    (Nat.lt_of_lt_of_le b.toNat_lt (Nat.pow_le_pow_right (by decide) hj))

/-- A byte that is shifted to position `k` of the word. -/
theorem shift_testBit (b : UInt8) {k : ℕ} (hk : k < 4) (j : ℕ) :
    (b.toUInt32 <<< UInt32.ofNat (8 * k)).toNat.testBit j =
      (decide (j / 8 = k) && b.toNat.testBit (j % 8)) := by
  have hshift : (UInt32.ofNat (8 * k)).toNat % 32 = 8 * k := by
    rw [UInt32.toNat_ofNat_of_lt' (show 8 * k < 2 ^ 32 by omega)]
    omega
  rw [UInt32.toNat_shiftLeft, hshift, UInt8.toNat_toUInt32, Nat.testBit_mod_two_pow,
    Nat.testBit_shiftLeft]
  rcases Nat.lt_trichotomy (j / 8) k with h | h | h
  · rw [decide_eq_false (show ¬ j ≥ 8 * k by omega), decide_eq_false (show ¬ j / 8 = k by omega)]
    simp
  · rw [decide_eq_true (show j ≥ 8 * k by omega), decide_eq_true (show j < 32 by omega),
      decide_eq_true h, show j - 8 * k = j % 8 by omega]
    simp
  · rw [byte_testBit b (show 8 ≤ j - 8 * k by omega), decide_eq_false (show ¬ j / 8 = k by omega)]
    simp

theorem word_testBit (f : ℕ → UInt8) {k : ℕ} (hk : k ≤ 4) (j : ℕ) :
    (word f k).toNat.testBit j = (decide (j / 8 < k) && (f (j / 8)).toNat.testBit (j % 8)) := by
  induction k with
  | zero => simp [word]
  | succ k ih =>
    rw [word_succ, UInt32.toNat_or, Nat.testBit_or, ih (by omega), shift_testBit (f k) (by omega)]
    rcases Nat.lt_trichotomy (j / 8) k with h | h | h
    · rw [decide_eq_true h, decide_eq_true (show j / 8 < k + 1 by omega),
        decide_eq_false (show ¬ j / 8 = k by omega)]
      simp
    · rw [decide_eq_false (show ¬ j / 8 < k by omega), decide_eq_true (show j / 8 < k + 1 by omega),
        decide_eq_true h, h]
      simp
    · rw [decide_eq_false (show ¬ j / 8 < k by omega),
        decide_eq_false (show ¬ j / 8 < k + 1 by omega),
        decide_eq_false (show ¬ j / 8 = k by omega)]
      simp

/-- Shifting byte `m` down gives it back. -/
theorem word_byte (f : ℕ → UInt8) {k m : ℕ} (hk : k ≤ 4) (hm : m < k) :
    (word f k >>> UInt32.ofNat (8 * m)).toUInt8 = f m := by
  have hshift : (UInt32.ofNat (8 * m)).toNat % 32 = 8 * m := by
    rw [UInt32.toNat_ofNat_of_lt' (show 8 * m < 2 ^ 32 by omega)]
    omega
  refine UInt8.toNat_inj.mp (Nat.eq_of_testBit_eq fun j => ?_)
  rw [UInt32.toNat_toUInt8, UInt32.toNat_shiftRight, hshift, Nat.testBit_mod_two_pow,
    Nat.testBit_shiftRight, word_testBit f hk]
  rcases Nat.lt_or_ge j 8 with h | h
  · rw [show (8 * m + j) / 8 = m by omega, show (8 * m + j) % 8 = j by omega,
      decide_eq_true h, decide_eq_true hm]
    simp
  · rw [byte_testBit _ h, decide_eq_false (by omega)]
    simp

/-- No bit above the bytes is set. -/
theorem word_lt (f : ℕ → UInt8) {k : ℕ} (hk : k ≤ 4) : (word f k).toNat < 2 ^ (8 * k) := by
  refine Nat.lt_pow_two_of_testBit _ fun j hj => ?_
  rw [word_testBit f hk, decide_eq_false (show ¬ j / 8 < k by omega)]
  rfl

/-- Byte `i` of a word. -/
def byteOf (w : UInt32) (i : ℕ) : UInt8 := (w >>> UInt32.ofNat (8 * i)).toUInt8

/-- The first `k` bytes of a word. -/
def bytes (w : UInt32) (k : ℕ) : List UInt8 := (List.range k).map (byteOf w)

@[simp] theorem length_bytes (w : UInt32) (k : ℕ) : (bytes w k).length = k := by
  rw [bytes, List.length_map, List.length_range]

theorem byteOf_testBit (w : UInt32) {i j : ℕ} (hi : i < 4) (hj : j < 8) :
    (byteOf w i).toNat.testBit j = w.toNat.testBit (8 * i + j) := by
  have hshift : (UInt32.ofNat (8 * i)).toNat % 32 = 8 * i := by
    rw [UInt32.toNat_ofNat_of_lt' (show 8 * i < 2 ^ 32 by omega)]
    omega
  rw [byteOf, UInt32.toNat_toUInt8, UInt32.toNat_shiftRight, hshift, Nat.testBit_mod_two_pow,
    Nat.testBit_shiftRight, decide_eq_true hj, Bool.true_and]

/-- A word is made of its bytes. -/
theorem word_byteOf (w : UInt32) : word (byteOf w) 4 = w := by
  refine UInt32.toNat_inj.mp (Nat.eq_of_testBit_eq fun j => ?_)
  rw [word_testBit _ (Nat.le_refl 4)]
  by_cases hj : j / 8 < 4
  · rw [decide_eq_true hj, Bool.true_and, byteOf_testBit w hj (Nat.mod_lt j (by decide)),
      Nat.div_add_mod]
  · rw [decide_eq_false hj, Bool.false_and]
    exact (Nat.testBit_lt_two_pow (Nat.lt_of_lt_of_le w.toNat_lt
      (Nat.pow_le_pow_right (by decide) (by omega)))).symm

/-- A word depends on its bytes only. -/
theorem word_congr {f g : ℕ → UInt8} {k : ℕ} (h : ∀ i < k, f i = g i) : word f k = word g k := by
  induction k with
  | zero => rfl
  | succ k ih =>
    rw [word_succ, word_succ, ih fun i hi => h i (Nat.lt_succ_of_lt hi), h k (Nat.lt_succ_self k)]

end Word
