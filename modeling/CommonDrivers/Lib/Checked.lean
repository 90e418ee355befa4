import Mathlib.Algebra.Group.Nat.Defs

/-! # Arithmetic on machine words that traps

Unsigned 32-bit operations that yield `none` where the machine would wrap around or divide by zero.
Each rule says when an operation does not trap, and what its result is as a natural number.
-/

namespace Checked

/-- Addition that traps when the sum wraps. -/
def add (a b : UInt32) : Option UInt32 := if a.toNat + b.toNat < 2 ^ 32 then some (a + b) else none

/-- Subtraction that traps when the difference wraps. -/
def sub (a b : UInt32) : Option UInt32 := if b.toNat ≤ a.toNat then some (a - b) else none

/-- Multiplication that traps when the product wraps. -/
def mul (a b : UInt32) : Option UInt32 := if a.toNat * b.toNat < 2 ^ 32 then some (a * b) else none

/-- Division that traps on zero. -/
def div (a b : UInt32) : Option UInt32 := if 0 < b.toNat then some (a / b) else none

variable {a b : UInt32} {x y : ℕ}

theorem add_eq (ha : a.toNat = x) (hb : b.toNat = y) (h : x + y < 2 ^ 32) :
    add a b = some (a + b) ∧ (a + b).toNat = x + y := by
  subst ha hb
  exact ⟨if_pos h, by rw [UInt32.toNat_add, Nat.mod_eq_of_lt h]⟩

theorem sub_eq (ha : a.toNat = x) (hb : b.toNat = y) (h : y ≤ x) :
    sub a b = some (a - b) ∧ (a - b).toNat = x - y := by
  subst ha hb
  exact ⟨if_pos h, UInt32.toNat_sub_of_le _ _ (UInt32.le_iff_toNat_le.mpr h)⟩

theorem mul_eq (ha : a.toNat = x) (hb : b.toNat = y) (h : x * y < 2 ^ 32) :
    mul a b = some (a * b) ∧ (a * b).toNat = x * y := by
  subst ha hb
  exact ⟨if_pos h, by rw [UInt32.toNat_mul, Nat.mod_eq_of_lt h]⟩

theorem div_eq (ha : a.toNat = x) (hb : b.toNat = y) (h : 0 < y) :
    div a b = some (a / b) ∧ (a / b).toNat = x / y := by
  subst ha hb
  exact ⟨if_pos h, UInt32.toNat_div ..⟩

end Checked
