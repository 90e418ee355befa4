import Mathlib.Data.List.Perm.Basic

/-! # Flag words

A 32-bit word as a set of flags. C tests two words for a common flag by the truth value of `a & b`.
-/

namespace Flags

/-- The words have a flag in common. -/
def Meets (a b : UInt32) : Prop := a &&& b ≠ 0

instance (a b : UInt32) : Decidable (Meets a b) := inferInstanceAs (Decidable (a &&& b ≠ 0))

variable {a b c : UInt32}

theorem meets_comm : Meets a b ↔ Meets b a := by
  rw [Meets, Meets, UInt32.and_comm]

@[simp] theorem not_zero_meets : ¬ Meets 0 c := by simp [Meets]

/-- A union meets what one of its parts meets. -/
theorem or_meets : Meets (a ||| b) c ↔ Meets a c ∨ Meets b c := by
  have h : (a ||| b) &&& c = (a &&& c) ||| (b &&& c) :=
    UInt32.toBitVec_inj.mp BitVec.and_or_distrib_right
  rw [Meets, Meets, Meets, h, ne_eq, UInt32.or_eq_zero_iff]
  exact Decidable.not_and_iff_not_or_not

/-- The union of the words of a list. -/
def union (words : List UInt32) : UInt32 := words.foldr (· ||| ·) 0

theorem union_meets {words : List UInt32} : Meets (union words) c ↔ ∃ w ∈ words, Meets w c := by
  induction words with
  | nil => simp [union]
  | cons w words ih =>
    have h : union (w :: words) = w ||| union words := rfl
    rw [h, or_meets, ih]
    simp only [List.mem_cons, or_and_right, exists_or, exists_eq_left]

theorem union_append (ws ws' : List UInt32) : union (ws ++ ws') = union ws ||| union ws' := by
  induction ws with
  | nil => exact (UInt32.zero_or).symm
  | cons w ws ih => exact (congrArg (w ||| ·) ih).trans (UInt32.or_assoc ..).symm

/-- The order of the words does not matter. -/
theorem union_perm {ws ws' : List UInt32} (h : ws.Perm ws') : union ws = union ws' := by
  induction h with
  | nil => rfl
  | cons w _ ih => exact congrArg (w ||| ·) ih
  | swap w w' ws =>
    have hcomm : w' ||| (w ||| union ws) = w ||| (w' ||| union ws) := by
      rw [← UInt32.or_assoc, ← UInt32.or_assoc, UInt32.or_comm w' w]
    exact hcomm
  | trans _ _ ih ih' => exact ih.trans ih'

end Flags
