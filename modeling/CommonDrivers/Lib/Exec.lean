import Mathlib.Control.Monad.Basic

/-! # Executions that may abort

`Exec σ α` is a computation on a state `σ` that returns an `α` or aborts on a failed assertion.
The application lemmas rewrite a run of a `do` block, one call at a time, into a chain of
`Option.bind`s. Code that is written for any monad with assertions runs as an `Exec`, and as any
other such computation.
-/

/-- A monad in which code can fail an assertion. -/
class MonadAssert (m : Type → Type) where
  /-- The C `assert` macro. -/
  assert (p : Prop) [Decidable p] : m Unit

/-- A computation over `σ` that aborts (`none`) when an assertion fails. -/
abbrev Exec (σ α : Type) := StateT σ Option α

namespace Exec

variable {σ α β : Type}

@[simp] theorem bind_apply (m : Exec σ α) (f : α → Exec σ β) (s : σ) :
    (m >>= f) s = (m s).bind fun p => f p.1 p.2 := rfl

@[simp] theorem pure_apply (a : α) (s : σ) : (pure a : Exec σ α) s = some (a, s) := rfl

@[simp] theorem map_apply (f : α → β) (m : Exec σ α) (s : σ) :
    (f <$> m) s = (m s).bind fun p => some (f p.1, p.2) := by
  rw [map_eq_pure_bind, bind_apply]
  rfl

export MonadAssert (assert)

instance : MonadAssert (StateT σ Option) where
  assert p _ := fun s => if p then some ((), s) else none

theorem assert_apply {p : Prop} [Decidable p] (h : p) (s : σ) :
    (assert p : Exec σ Unit) s = some ((), s) := if_pos h

theorem assert_fail {p : Prop} [Decidable p] (h : ¬ p) (s : σ) :
    (assert p : Exec σ Unit) s = none := if_neg h

/-- A step that cannot abort. -/
def total (f : σ → α × σ) : Exec σ α := fun s => some (f s)

@[simp] theorem total_apply (f : σ → α × σ) (s : σ) : total f s = some (f s) := rfl

/-- A run whose outcome is known has it as its only outcome. -/
theorem returns_iff {o : Option (α × β)} {a : α} {b : β} {Q : α → β → Prop} (h : o = some (a, b)) :
    (∃ x y, o = some (x, y) ∧ Q x y) ↔ Q a b := by
  constructor
  · rintro ⟨x, y, h', hQ⟩
    obtain ⟨rfl, rfl⟩ := Prod.mk.inj (Option.some.inj (h.symm.trans h'))
    exact hQ
  · exact fun hQ => ⟨a, b, h, hQ⟩

end Exec
