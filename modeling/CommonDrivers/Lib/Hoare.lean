import CommonDrivers.Lib.Exec

/-! # Executions that keep their state when they abort

An `Exec` that aborts leaves no state behind. `Kept σ α` is the same kind of computation with the
state in which it stopped. `Triple pre m post stop` says where it ends: with a result in `post`, or
on a failed assertion in `stop`. There is one rule for each construct of a `do` block; the rules for
branches and loops are those of the host language.
-/

/-- A computation over `σ` that stops where it is when an assertion fails. -/
abbrev Kept (σ α : Type) := OptionT (StateM σ) α

namespace Kept

variable {σ α β : Type}

/-- The result, `none` after an abort, and the state in which the computation ended. -/
def exec (m : Kept σ α) (s : σ) : Option α × σ := m s

instance : MonadAssert (OptionT (StateM σ)) where
  assert p _ := fun s => (if p then some () else none, s)

/-- One step that happens as a whole or, if it aborts, not at all. -/
def atomic (m : Exec σ α) : Kept σ α := fun s =>
  match m s with
  | some (a, s') => (some a, s')
  | none => (none, s)

theorem exec_pure (a : α) (s : σ) : exec (pure a) s = (some a, s) := rfl

theorem exec_bind_some {m : Kept σ α} (f : α → Kept σ β) {s s' : σ} {a : α}
    (h : m.exec s = (some a, s')) : exec (m >>= f) s = (f a).exec s' := by
  have hm : m s = (some a, s') := h
  simp only [exec, bind, OptionT.bind, OptionT.mk, StateT.bind, hm]

theorem exec_bind_none {m : Kept σ α} (f : α → Kept σ β) {s s' : σ}
    (h : m.exec s = (none, s')) : exec (m >>= f) s = (none, s') := by
  have hm : m s = (none, s') := h
  simp only [exec, bind, OptionT.bind, OptionT.mk, StateT.bind, hm]
  rfl

theorem exec_assert {p : Prop} [Decidable p] (h : p) (s : σ) :
    exec (MonadAssert.assert p) s = (some (), s) := congrArg (·, s) (if_pos h)

theorem exec_assert_fail {p : Prop} [Decidable p] (h : ¬ p) (s : σ) :
    exec (MonadAssert.assert p) s = (none, s) := congrArg (·, s) (if_neg h)

theorem exec_atomic_some {m : Exec σ α} {s s' : σ} {a : α} (h : m s = some (a, s')) :
    exec (atomic m) s = (some a, s') := by
  simp only [exec, atomic, h]

theorem exec_atomic_none {m : Exec σ α} {s : σ} (h : m s = none) :
    exec (atomic m) s = (none, s) := by
  simp only [exec, atomic, h]

/-! ## Triples -/

/-- From every state in `pre`, `m` returns with its result and its final state in `post`, or aborts
in a state in `stop`. -/
def Triple (pre : σ → Prop) (m : Kept σ α) (post : α → σ → Prop) (stop : σ → Prop) : Prop :=
  ∀ s, pre s → match m.exec s with
    | (some a, s') => post a s'
    | (none, s') => stop s'

namespace Triple

variable {pre stop : σ → Prop} {post : α → σ → Prop} {m : Kept σ α}

/-- A run that returns. -/
theorem returns (h : Triple pre m post stop) {s s' : σ} {a : α} (hpre : pre s)
    (hrun : m.exec s = (some a, s')) : post a s' := by
  have hend := h s hpre
  rwa [hrun] at hend

/-- What every end of a run has in common. -/
theorem ends (h : Triple pre m post stop) (hpost : ∀ a s, post a s → stop s) {s : σ}
    (hpre : pre s) : stop (m.exec s).2 := by
  have hend := h s hpre
  rcases hrun : m.exec s with ⟨_ | a, s'⟩
  · rwa [hrun] at hend
  · rw [hrun] at hend
    exact hpost a s' hend

theorem pure {a : α} (h : ∀ s, pre s → post a s) : Triple pre (Pure.pure a) post stop := by
  intro s hpre
  rw [exec_pure]
  exact h s hpre

theorem bind {f : α → Kept σ β} {post : β → σ → Prop} (mid : α → σ → Prop)
    (hm : Triple pre m mid stop) (hf : ∀ a, Triple (mid a) (f a) post stop) :
    Triple pre (m >>= f) post stop := by
  intro s hpre
  have hmid := hm s hpre
  rcases hrun : m.exec s with ⟨_ | a, s'⟩
  · rw [hrun] at hmid
    rw [exec_bind_none f hrun]
    exact hmid
  · rw [hrun] at hmid
    rw [exec_bind_some f hrun]
    exact hf a s' hmid

/-- A step that aborts leaves the state as it was. -/
theorem atomic {m : Exec σ α} (hstop : ∀ s, pre s → stop s)
    (h : ∀ s a s', pre s → m s = some (a, s') → post a s') :
    Triple pre (Kept.atomic m) post stop := by
  intro s hpre
  rcases hrun : m s with _ | ⟨a, s'⟩
  · rw [exec_atomic_none hrun]
    exact hstop s hpre
  · rw [exec_atomic_some hrun]
    exact h s a s' hpre hrun

/-- Behind an assertion its condition may be assumed; where it fails, nothing has changed. -/
theorem assert_bind {p : Prop} [Decidable p] {f : Unit → Kept σ α} (hstop : ∀ s, pre s → stop s)
    (hf : p → Triple pre (f ()) post stop) :
    Triple pre (MonadAssert.assert p >>= f) post stop := by
  intro s hpre
  by_cases hp : p
  · rw [exec_bind_some f (exec_assert hp s)]
    exact hf hp s hpre
  · rw [exec_bind_none f (exec_assert_fail hp s)]
    exact hstop s hpre

theorem ite {p : Prop} [Decidable p] {m' : Kept σ α} (hthen : p → Triple pre m post stop)
    (helse : ¬ p → Triple pre m' post stop) : Triple pre (if p then m else m') post stop := by
  by_cases h : p
  · rw [if_pos h]
    exact hthen h
  · rw [if_neg h]
    exact helse h

end Triple

end Kept
