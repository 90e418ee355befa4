import Mathlib.NumberTheory.Padics.PadicVal.Basic

/-! # CTZ skip-lists

A CTZ skip-list keeps a byte sequence in blocks of `B` bytes. Block `0` holds data only; block
`n ≥ 1` starts with `ctz n + 1` back pointers of `w` bytes each, so it holds that much less data.
Finding the block of a byte needs the sum of all `ctz k` below it, which binary digit sums give in
closed form: `popcount (n + 1) + ctz (n + 1) = popcount n + 1`.

`blockStart_succ` is that closed form and `lookup_eq` shows that one division by `B - 2 * w`, with
the population count of a first guess as its correction, finds the block of every offset.
-/

namespace CtzList

/-- The number of one bits of `n`. -/
def popcount (n : ℕ) : ℕ := (Nat.digits 2 n).sum

/-- The number of trailing zero bits of `n`. -/
def ctz (n : ℕ) : ℕ := padicValNat 2 n

@[simp] theorem popcount_zero : popcount 0 = 0 := by simp [popcount]

theorem popcount_le_self (n : ℕ) : popcount n ≤ n := Nat.digit_sum_le 2 n

/-- A number of `k` bits has at most `k` one bits. -/
theorem popcount_le_of_lt {n k : ℕ} (h : n < 2 ^ k) : popcount n ≤ k := by
  have hlen : (Nat.digits 2 n).length ≤ k :=
    (Nat.digits_length_le_iff (by norm_num) n).mpr h
  have hsum : (Nat.digits 2 n).sum ≤ (Nat.digits 2 n).length • 1 :=
    List.sum_le_card_nsmul _ 1 fun d hd => Nat.lt_succ_iff.mp (Nat.digits_lt_base (by norm_num) hd)
  rw [smul_eq_mul, Nat.mul_one] at hsum
  exact hsum.trans hlen

/-- A positive number of `k` bits has fewer than `k` trailing zeros. -/
theorem ctz_lt_of_lt {n k : ℕ} (hn : 0 < n) (h : n < 2 ^ k) : ctz n < k := by
  have hdvd : 2 ^ ctz n ∣ n := pow_padicValNat_dvd
  exact (Nat.pow_lt_pow_iff_right (by norm_num)).mp (lt_of_le_of_lt (Nat.le_of_dvd hn hdvd) h)

/-- Legendre's formula at the prime two: the trailing zeros of `1, …, n` add up to
`n - popcount n`. -/
theorem padicValNat_factorial_add_popcount (n : ℕ) :
    padicValNat 2 n.factorial + popcount n = n := by
  have h := sub_one_mul_padicValNat_factorial (p := 2) n
  have hle := popcount_le_self n
  simp only [popcount] at *
  omega

/-- Counting up by one turns the trailing ones of `n` into the trailing zeros of `n + 1`. -/
theorem popcount_succ_add_ctz (n : ℕ) : popcount (n + 1) + ctz (n + 1) = popcount n + 1 := by
  have h0 := padicValNat_factorial_add_popcount n
  have h1 := padicValNat_factorial_add_popcount (n + 1)
  have hmul : padicValNat 2 (n + 1).factorial = ctz (n + 1) + padicValNat 2 n.factorial := by
    rw [Nat.factorial_succ, padicValNat.mul (Nat.succ_ne_zero n) (Nat.factorial_ne_zero n), ctz]
  omega

/-! ## Block layout -/

/-- The number of data bytes in block `n`. -/
def capacity (w B n : ℕ) : ℕ := if n = 0 then B else B - w * (ctz n + 1)

/-- The offset of the first data byte of block `n`: the capacities of all blocks before it. -/
def blockStart (w B : ℕ) : ℕ → ℕ
  | 0 => 0
  | n + 1 => blockStart w B n + capacity w B n

/-- The offset just past the last data byte of block `n`. -/
def blockEnd (w B n : ℕ) : ℕ := blockStart w B (n + 1)

theorem blockEnd_eq (w B n : ℕ) : blockEnd w B n = blockStart w B n + capacity w B n := rfl

theorem blockStart_mono (w B : ℕ) : Monotone (blockStart w B) :=
  monotone_nat_of_le_succ fun _ => Nat.le_add_right _ _

/-- An offset lies in at most one block. -/
theorem block_unique {w B size m n : ℕ} (hm : blockStart w B m ≤ size) (hm' : size < blockEnd w B m)
    (hn : blockStart w B n ≤ size) (hn' : size < blockEnd w B n) : m = n := by
  rcases Nat.lt_trichotomy m n with h | h | h
  · have := blockStart_mono w B (show m + 1 ≤ n from h)
    simp only [blockEnd] at hm'
    omega
  · exact h
  · have := blockStart_mono w B (show n + 1 ≤ m from h)
    simp only [blockEnd] at hn'
    omega

/-- Every offset below the start of block `N` lies in some block before `N`. -/
theorem exists_block {w B size N : ℕ} (h : size < blockStart w B N) :
    ∃ n < N, blockStart w B n ≤ size ∧ size < blockEnd w B n := by
  induction N with
  | zero => simp [blockStart] at h
  | succ N ih =>
    by_cases hN : size < blockStart w B N
    · obtain ⟨n, hn, hle, hlt⟩ := ih hN
      exact ⟨n, by omega, hle, hlt⟩
    · exact ⟨N, by omega, by omega, h⟩

/-- **The closed form of the layout.** It needs every block up to `n` to have room for its
pointers. -/
theorem blockStart_succ {w B n : ℕ} (hB : 2 * w ≤ B)
    (hroom : ∀ k, 0 < k → k ≤ n → w * (ctz k + 1) ≤ B) :
    blockStart w B (n + 1) = (n + 1) * (B - 2 * w) + 2 * w + w * popcount n := by
  obtain ⟨b, rfl⟩ : ∃ b, B = b + 2 * w := ⟨B - 2 * w, by omega⟩
  induction n with
  | zero => simp [blockStart, capacity]
  | succ n ih =>
    have hprev := ih fun k hk hkn => hroom k hk (by omega)
    have hfit := hroom (n + 1) (by omega) le_rfl
    have hdigit : w * popcount (n + 1) + w * ctz (n + 1) = w * popcount n + w := by
      rw [← Nat.mul_add, popcount_succ_add_ctz, Nat.mul_succ]
    have hcap : capacity w (b + 2 * w) (n + 1) = b + 2 * w - w * (ctz (n + 1) + 1) := by
      rw [capacity, if_neg (Nat.succ_ne_zero n)]
    rw [blockStart, hprev, hcap]
    simp only [Nat.add_sub_cancel, Nat.succ_mul, Nat.mul_add, Nat.mul_one] at *
    omega

/-! ## Finding the block of an offset -/

/-- The block of offset `size`, corrected from the guess `size / (B - 2 * w)`. -/
def lookup (w B size : ℕ) : ℕ :=
  (size - w * (popcount (size / (B - 2 * w) - 1) + 2)) / (B - 2 * w)

/-- The first guess is the block itself or the one after it. -/
theorem guess_bounds {w B size n : ℕ} (hB : 2 * w ≤ B)
    (hroom : ∀ k, 0 < k → k ≤ n → w * (ctz k + 1) ≤ B)
    (hcorr : w * (popcount n + 2) ≤ B - 2 * w) (hn : 0 < n) (hb : 0 < B - 2 * w)
    (hle : blockStart w B n ≤ size) (hlt : size < blockEnd w B n) :
    size / (B - 2 * w) = n ∨ size / (B - 2 * w) = n + 1 := by
  obtain ⟨m, rfl⟩ : ∃ m, n = m + 1 := ⟨n - 1, by omega⟩
  have hstart := blockStart_succ (n := m) hB fun k hk hkm => hroom k hk (by omega)
  have hend := blockStart_succ (n := m + 1) hB hroom
  simp only [blockEnd] at hlt
  -- the closed forms of both ends of the block pin the quotient down
  have hlo : m + 1 ≤ size / (B - 2 * w) := by
    rw [Nat.le_div_iff_mul_le hb]
    omega
  have hhi : size / (B - 2 * w) < m + 3 := by
    rw [Nat.div_lt_iff_lt_mul hb]
    have : (m + 3) * (B - 2 * w) = (m + 1 + 1) * (B - 2 * w) + (B - 2 * w) := by ring
    have : w * (popcount (m + 1) + 2) = w * popcount (m + 1) + 2 * w := by ring
    omega
  omega

/-- **One corrected division finds the block of every offset past block `0`.** The correction
never exceeds the offset, so the subtraction in `lookup` does not underflow. -/
theorem lookup_eq {w B size n : ℕ} (hB : 2 * w ≤ B)
    (hroom : ∀ k, 0 < k → k ≤ n → w * (ctz k + 1) ≤ B)
    (hcorr : w * (popcount n + 2) ≤ B - 2 * w) (hn : 0 < n) (hb : 0 < B - 2 * w)
    (hle : blockStart w B n ≤ size) (hlt : size < blockEnd w B n) :
    w * (popcount (size / (B - 2 * w) - 1) + 2) ≤ size ∧ lookup w B size = n := by
  have hguess := guess_bounds hB hroom hcorr hn hb hle hlt
  obtain ⟨m, rfl⟩ : ∃ m, n = m + 1 := ⟨n - 1, by omega⟩
  have hstart := blockStart_succ (n := m) hB fun k hk hkm => hroom k hk (by omega)
  have hend := blockStart_succ (n := m + 1) hB hroom
  simp only [blockEnd] at hlt
  have hsucc : (m + 1 + 1) * (B - 2 * w) = (m + 1) * (B - 2 * w) + (B - 2 * w) := by ring
  have hm : w * (popcount m + 2) = w * popcount m + 2 * w := by ring
  have hm1 : w * (popcount (m + 1) + 2) = w * popcount (m + 1) + 2 * w := by ring
  have hdiv := Nat.div_mul_le_self size (B - 2 * w)
  have hdiv' := Nat.lt_div_mul_add (a := size) hb
  rw [lookup]
  -- with either guess the corrected offset lies between the closed forms of the block's ends
  rcases hguess with h | h
  · rw [h] at hdiv hdiv' ⊢
    rw [Nat.add_sub_cancel]
    refine ⟨by omega, ?_⟩
    rw [Nat.div_eq_iff hb]
    omega
  · rw [h] at hdiv hdiv' ⊢
    rw [Nat.add_sub_cancel]
    refine ⟨by omega, ?_⟩
    rw [Nat.div_eq_iff hb]
    omega

/-- The position of an offset inside its block, pointers included, as the layout's closed form
gives it. -/
theorem blockEnd_sub {w B size n : ℕ} (hB : 2 * w ≤ B)
    (hroom : ∀ k, 0 < k → k ≤ n → w * (ctz k + 1) ≤ B) (hn : 0 < n)
    (hle : blockStart w B n ≤ size) (hlt : size < blockEnd w B n) :
    (B - 2 * w) * n + w * popcount n ≤ size ∧
      size - (B - 2 * w) * n - w * popcount n ≤ B ∧
      B - (size - (B - 2 * w) * n - w * popcount n) = blockEnd w B n - size := by
  obtain ⟨m, rfl⟩ : ∃ m, n = m + 1 := ⟨n - 1, by omega⟩
  have hstart := blockStart_succ (n := m) hB fun k hk hkm => hroom k hk (by omega)
  have hend := blockStart_succ (n := m + 1) hB hroom
  have hpop : w * popcount (m + 1) ≤ w * popcount m + w := by
    have := popcount_succ_add_ctz m
    calc w * popcount (m + 1) ≤ w * (popcount m + 1) := Nat.mul_le_mul_left w (by omega)
      _ = w * popcount m + w := by ring
  have hsucc : (m + 1 + 1) * (B - 2 * w) = (m + 1) * (B - 2 * w) + (B - 2 * w) := by ring
  have hcomm : (B - 2 * w) * (m + 1) = (m + 1) * (B - 2 * w) := by ring
  simp only [blockEnd] at *
  omega

end CtzList
