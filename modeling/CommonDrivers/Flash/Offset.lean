import CommonDrivers.Lib.Checked
import CommonDrivers.Lib.CtzList

/-! # The room left in the current block

`offset` of `src/flash/flash.cpp`, in its own `uint32_t` arithmetic. `offset_toNat` evaluates it
against the CTZ skip-list in which littlefs keeps a file, with pointers of four bytes: the result is
the distance from the file size to the end of the block in which the file ends.
-/

namespace CommonDrivers.Flash

open CtzList

/-- `__builtin_popcount`. -/
def builtinPopcount (x : UInt32) : UInt32 := UInt32.ofNat (popcount x.toNat)

def offset (filesize blocksize : UInt32) : UInt32 :=
  -- Edge case for the first block
  if filesize < blocksize then blocksize - filesize
  else
    let w : UInt32 := 4
    let pop := builtinPopcount (filesize / (blocksize - 2 * w) - 1)
    let n := (filesize - w * (pop + 2)) / (blocksize - 2 * w)
    let offset := filesize - (blocksize - 2 * w) * n - w * builtinPopcount n
    blocksize - offset

/-- `offset` with a trap in each operation, where it would wrap around or divide by zero. -/
def offsetChecked (filesize blocksize : UInt32) : Option UInt32 :=
  if filesize < blocksize then Checked.sub blocksize filesize
  else do
    let w : UInt32 := 4
    let base ← Checked.sub blocksize (2 * w)
    let guess ← Checked.sub (← Checked.div filesize base) 1
    let correction ← Checked.mul w (← Checked.add (builtinPopcount guess) 2)
    let n ← Checked.div (← Checked.sub filesize correction) base
    let rest ← Checked.sub filesize (← Checked.mul base n)
    let offset ← Checked.sub rest (← Checked.mul w (builtinPopcount n))
    Checked.sub blocksize offset

theorem builtinPopcount_toNat (x : UInt32) : (builtinPopcount x).toNat = popcount x.toNat := by
  rw [builtinPopcount, UInt32.toNat_ofNat_of_lt']
  exact lt_of_le_of_lt (popcount_le_self _) x.toNat_lt

/-! ## Sizes that a 32-bit file can have -/

section Layout

variable {B size n : ℕ} (hB : 128 ≤ B)
include hB

/-- With blocks of at least 128 bytes, every block of a 32-bit file has room for its pointers. -/
theorem room_of_le (hn : n ≤ 2 ^ 26) : ∀ k, 0 < k → k ≤ n → 4 * (ctz k + 1) ≤ B := by
  intro k hk hkn
  have := ctz_lt_of_lt (k := 27) hk (by omega)
  omega

/-- A 32-bit file has fewer than `2 ^ 26` blocks. -/
theorem block_lt (hsize : size < 2 ^ 32) (hle : blockStart 4 B n ≤ size) : n < 2 ^ 26 := by
  by_contra hn
  have hmono := blockStart_mono 4 B (Nat.le_of_not_lt hn)
  have hstart := blockStart_succ (w := 4) (B := B) (n := 2 ^ 26 - 1) (by omega)
    (room_of_le hB (by omega))
  rw [Nat.sub_add_cancel (by omega)] at hstart
  have : 2 ^ 26 * 120 ≤ 2 ^ 26 * (B - 2 * 4) := Nat.mul_le_mul_left _ (by omega)
  omega

theorem correction_le (hn : n < 2 ^ 26) : 4 * (popcount n + 2) ≤ B - 2 * 4 := by
  have := popcount_le_of_lt hn
  omega

/-- Every 32-bit file size lies in exactly one block. -/
theorem exists_block_of_lt (hsize : size < 2 ^ 32) :
    ∃ n, blockStart 4 B n ≤ size ∧ size < blockEnd 4 B n := by
  have hlt : size < blockStart 4 B (2 ^ 26) := by
    by_contra hle
    exact absurd (block_lt hB hsize (Nat.le_of_not_lt hle)) (lt_irrefl _)
  obtain ⟨n, -, hle, hlt⟩ := exists_block hlt
  exact ⟨n, hle, hlt⟩

end Layout

/-! ## `offset` is the room left in the block -/

/-- No operation of `offset` traps, and the result is the distance to the end of the block in which
the file ends. -/
theorem offset_spec {filesize blocksize : UInt32} {n : ℕ} (hB : 128 ≤ blocksize.toNat)
    (hle : blockStart 4 blocksize.toNat n ≤ filesize.toNat)
    (hlt : filesize.toNat < blockEnd 4 blocksize.toNat n) :
    offsetChecked filesize blocksize = some (offset filesize blocksize) ∧
      (offset filesize blocksize).toNat = blockEnd 4 blocksize.toNat n - filesize.toNat := by
  have hf := filesize.toNat_lt
  have hn26 := block_lt hB hf hle
  rw [offset, offsetChecked]
  by_cases hfirst : filesize < blocksize
  · have hfirst' := UInt32.lt_iff_toNat_lt.mp hfirst
    have hn0 : n = 0 :=
      block_unique hle hlt (Nat.zero_le _) (by simpa [blockEnd_eq, capacity, blockStart])
    rw [if_pos hfirst, if_pos hfirst, hn0]
    simpa [blockEnd_eq, capacity, blockStart] using Checked.sub_eq rfl rfl hfirst'.le
  · have hge : blocksize.toNat ≤ filesize.toNat := by
      rw [UInt32.lt_iff_toNat_lt] at hfirst
      omega
    have hn : 0 < n := by
      rcases Nat.eq_zero_or_pos n with rfl | h
      · simp only [blockEnd_eq, blockStart, capacity, if_true] at hlt
        omega
      · exact h
    have hroom := room_of_le hB hn26.le
    obtain ⟨hcorr, hlook⟩ :=
      lookup_eq (by omega) hroom (correction_le hB hn26) hn (by omega) hle hlt
    obtain ⟨hpos, hin, hleft⟩ := blockEnd_sub (by omega) hroom hn hle hlt
    rw [if_neg hfirst, if_neg hfirst]
    -- the operations in the order of the code, each with its value
    have h1 : (1 : UInt32).toNat = 1 := rfl
    have h2 : (2 : UInt32).toNat = 2 := rfl
    have h4 : (4 : UInt32).toNat = 4 := rfl
    have h8 : (2 * 4 : UInt32).toNat = 2 * 4 := rfl
    obtain ⟨ebase, hbase⟩ := Checked.sub_eq (a := blocksize) rfl h8 (by omega)
    obtain ⟨equot, hquot⟩ := Checked.div_eq (a := filesize) rfl hbase (by omega)
    obtain ⟨eguess, hguess⟩ := Checked.sub_eq hquot h1 (Nat.div_pos (by omega) (by omega))
    have hpop := builtinPopcount_toNat (filesize / (blocksize - 2 * 4) - 1)
    rw [hguess] at hpop
    obtain ⟨eadd, hadd⟩ := Checked.add_eq hpop h2 (by omega)
    obtain ⟨ecorr, hcorr'⟩ := Checked.mul_eq h4 hadd (by omega)
    obtain ⟨esub, hsub⟩ := Checked.sub_eq (a := filesize) rfl hcorr' hcorr
    obtain ⟨elook, hlook'⟩ := Checked.div_eq hsub hbase (by omega)
    rw [← lookup, hlook] at hlook'
    obtain ⟨efull, hfull⟩ := Checked.mul_eq hbase hlook' (by omega)
    obtain ⟨erest, hrest⟩ := Checked.sub_eq (a := filesize) rfl hfull (by omega)
    have hpop' := (builtinPopcount_toNat _).trans (congrArg popcount hlook')
    obtain ⟨eones, hones⟩ := Checked.mul_eq h4 hpop' (by omega)
    obtain ⟨eoff, hoff⟩ := Checked.sub_eq hrest hones (by omega)
    obtain ⟨eleft, hleft'⟩ := Checked.sub_eq (a := blocksize) rfl hoff hin
    refine ⟨?_, hleft'.trans hleft⟩
    simp only [ebase, equot, eguess, eadd, ecorr, esub, elook, efull, erest, eones, eoff, eleft,
      Option.bind_eq_bind, Option.bind_some]

/-- `offset` computes the distance to the end of the block in which the file ends. -/
theorem offset_toNat {filesize blocksize : UInt32} {n : ℕ} (hB : 128 ≤ blocksize.toNat)
    (hle : blockStart 4 blocksize.toNat n ≤ filesize.toNat)
    (hlt : filesize.toNat < blockEnd 4 blocksize.toNat n) :
    (offset filesize blocksize).toNat = blockEnd 4 blocksize.toNat n - filesize.toNat :=
  (offset_spec hB hle hlt).2

/-- **For every file size no operation of `offset` wraps around or divides by zero, and the result
is the room left in the one block in which the file ends: at least one byte, and at most the
capacity of the block.** -/
theorem offset_room (filesize blocksize : UInt32) (hB : 128 ≤ blocksize.toNat) :
    offsetChecked filesize blocksize = some (offset filesize blocksize) ∧
      ∃ n, (∀ m, (blockStart 4 blocksize.toNat m ≤ filesize.toNat ∧
          filesize.toNat < blockEnd 4 blocksize.toNat m) ↔ m = n) ∧
        (offset filesize blocksize).toNat = blockEnd 4 blocksize.toNat n - filesize.toNat ∧
        1 ≤ (offset filesize blocksize).toNat ∧
        (offset filesize blocksize).toNat ≤ capacity 4 blocksize.toNat n := by
  obtain ⟨n, hle, hlt⟩ := exists_block_of_lt hB filesize.toNat_lt
  obtain ⟨hchecked, hroom⟩ := offset_spec hB hle hlt
  have hend := blockEnd_eq 4 blocksize.toNat n
  refine ⟨hchecked, n, fun m => ⟨?_, ?_⟩, hroom, by omega, by omega⟩
  · rintro ⟨hle', hlt'⟩
    exact block_unique hle' hlt' hle hlt
  · rintro rfl
    exact ⟨hle, hlt⟩

/-- A file of 1000 bytes in blocks of 128. -/
theorem offset_room_thousand :
    offsetChecked 1000 128 = some (offset 1000 128) ∧
      ∃ n, (∀ m, (blockStart 4 128 m ≤ 1000 ∧ 1000 < blockEnd 4 128 m) ↔ m = n) ∧
        (offset 1000 128).toNat = blockEnd 4 128 n - 1000 ∧ 1 ≤ (offset 1000 128).toNat ∧
        (offset 1000 128).toNat ≤ capacity 4 128 n :=
  offset_room 1000 128 (by decide)

end CommonDrivers.Flash
