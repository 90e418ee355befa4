import Mathlib.Data.Nat.Notation

/-! # Runs of a deterministic system

A system takes one action after the other. `run_invariant` is the induction that every safety
theorem about a run needs, `run_simulates` carries a run over to an abstraction of the state,
`run_stutters` does so where the abstraction does not see every step, `run_reaches` is the rule for
what one party brings about in a bounded number of its own steps, and `run_iff_along` characterises
a property of a whole run by what each of its steps does. For systems whose actions return
something, `outputs_eq` is the simulation rule.
-/

namespace Run

variable {σ ρ α : Type} (step : σ → α → σ)

/-- The state after a list of actions. -/
def run (s : σ) (acts : List α) : σ := acts.foldl step s

@[simp] theorem run_nil (s : σ) : run step s [] = s := rfl

@[simp] theorem run_cons (s : σ) (a : α) (acts : List α) :
    run step s (a :: acts) = run step (step s a) acts := rfl

theorem run_append (s : σ) (acts acts' : List α) :
    run step s (acts ++ acts') = run step (run step s acts) acts' := List.foldl_append

/-- `P` holds of each action of the run and the state in which it is taken. -/
def Along (P : σ → α → Prop) : σ → List α → Prop
  | _, [] => True
  | s, a :: acts => P s a ∧ Along P (step s a) acts

/-- Equivalent conditions on each step are equivalent along a run. -/
theorem along_congr {P Q : σ → α → Prop} (h : ∀ s a, P s a ↔ Q s a) (s : σ) (acts : List α) :
    Along step P s acts ↔ Along step Q s acts := by
  induction acts generalizing s with
  | nil => exact Iff.rfl
  | cons a acts ih => exact and_congr (h s a) (ih (step s a))

theorem along_append {P : σ → α → Prop} (s : σ) (acts acts' : List α) :
    Along step P s (acts ++ acts') ↔
      Along step P s acts ∧ Along step P (run step s acts) acts' := by
  induction acts generalizing s with
  | nil => exact (and_iff_right trivial).symm
  | cons a acts ih =>
    rw [List.cons_append, Along, Along, ih, run_cons, and_assoc]

section Invariant

variable {step}

/-- What every step preserves holds at the end of a run. -/
theorem run_invariant {I : σ → Prop} (hstep : ∀ s a, I s → I (step s a)) {s : σ} (h : I s)
    (acts : List α) : I (run step s acts) := by
  induction acts generalizing s with
  | nil => exact h
  | cons a acts ih => exact ih (hstep s a h)

/-- A function that commutes with every step commutes with runs. -/
theorem run_simulates {f : σ → ρ} {step' : ρ → α → ρ}
    (hstep : ∀ s a, f (step s a) = step' (f s) a) (s : σ) (acts : List α) :
    f (run step s acts) = run step' (f s) acts := by
  induction acts generalizing s with
  | nil => rfl
  | cons a acts ih => rw [run_cons, run_cons, ih, hstep]

end Invariant

/-- A property that each step keeps exactly if the step meets `P` survives exactly the runs whose
steps all meet `P`. -/
theorem run_iff_along {I Q : σ → Prop} {P : σ → α → Prop} (hI : ∀ s a, I s → I (step s a))
    (hQ : ∀ s a, I s → (Q (step s a) ↔ Q s ∧ P s a)) {s : σ} (h : I s) (acts : List α) :
    Q (run step s acts) ↔ Q s ∧ Along step P s acts := by
  induction acts generalizing s with
  | nil => exact (and_iff_left trivial).symm
  | cons a acts ih =>
    rw [run_cons, ih (hI s a h), hQ s a h, and_assoc]
    rfl

section Stuttering

variable {step} {I : σ → Prop} {P : σ → α → Prop} {abs : σ → ρ} {step' : ρ → α → ρ}
  {visible : α → Bool}

/-- A run whose allowed steps each are one of the abstract system or, if they are not visible, none
of it, is a run of the abstract system. -/
theorem run_stutters (hI : ∀ s a, I s → P s a → I (step s a))
    (hstep : ∀ s a, I s → P s a →
      abs (step s a) = step' (abs s) a ∨ visible a = false ∧ abs (step s a) = abs s)
    {s : σ} (h : I s) {acts : List α} (hacts : Along step P s acts) :
    I (run step s acts) ∧ ∃ acts', List.Sublist acts' acts ∧
      acts'.filter visible = acts.filter visible ∧
      abs (run step s acts) = run step' (abs s) acts' := by
  induction acts generalizing s with
  | nil => exact ⟨h, [], .slnil, rfl, rfl⟩
  | cons a acts ih =>
    obtain ⟨hallowed, hrest⟩ := hacts
    obtain ⟨hend, acts', hsub, hvisible, hrun⟩ := ih (hI s a h hallowed) hrest
    refine ⟨hend, ?_⟩
    rcases hstep s a h hallowed with hmove | ⟨hhidden, hstay⟩
    · refine ⟨a :: acts', hsub.cons_cons a, ?_, ?_⟩
      · rw [List.filter_cons, List.filter_cons, hvisible]
      · rw [run_cons, run_cons, hrun, hmove]
    · refine ⟨acts', hsub.cons a, ?_, ?_⟩
      · rw [List.filter_cons_of_neg (by rw [hhidden]; exact Bool.false_ne_true), hvisible]
      · rw [run_cons, hrun, hstay]

end Stuttering

section Progress

variable {step} {I : ℕ → σ → Prop} {Q : σ → Prop} {mine : α → Bool}

/-- If each step of one party lowers a rank or reaches `Q`, and no other step raises the rank, then
`Q` is reached once this party has taken more steps than the rank, whatever comes in between. -/
theorem run_reaches (hQ : ∀ s a, Q s → Q (step s a))
    (hother : ∀ n s a, I n s → mine a = false → I n (step s a))
    (hmine : ∀ n s a, I n s → mine a = true → Q (step s a) ∨ ∃ m, m < n ∧ I m (step s a))
    {n : ℕ} {s : σ} (h : I n s) {acts : List α} (hcount : n < acts.countP mine) :
    Q (run step s acts) := by
  induction acts generalizing n s with
  | nil => exact absurd hcount (Nat.not_lt_zero n)
  | cons a acts ih =>
    rw [run_cons]
    cases ha : mine a with
    | false =>
      refine ih (hother n s a h ha) ?_
      rwa [List.countP_cons_of_neg (by simp [ha])] at hcount
    | true =>
      rw [List.countP_cons_of_pos ha] at hcount
      rcases hmine n s a h ha with hdone | ⟨m, hm, hnext⟩
      · exact run_invariant hQ hdone acts
      · exact ih hnext (by omega)

end Progress

section Outputs

variable {β : Type} (out : σ → α → β)

/-- What the actions of a run return. -/
def outputs : σ → List α → List β
  | _, [] => []
  | s, a :: acts => out s a :: outputs (step s a) acts

variable {step out}

/-- Systems whose related states answer alike and step to related states return the same on every
run that the second of them allows. -/
theorem outputs_eq {R : σ → ρ → Prop} {step' : ρ → α → ρ} {out' : ρ → α → β} {P : ρ → α → Prop}
    (hout : ∀ s t a, R s t → P t a → out s a = out' t a)
    (hstep : ∀ s t a, R s t → P t a → R (step s a) (step' t a)) {s : σ} {t : ρ} (h : R s t)
    {acts : List α} (hacts : Along step' P t acts) :
    outputs step out s acts = outputs step' out' t acts := by
  induction acts generalizing s t with
  | nil => rfl
  | cons a acts ih =>
    obtain ⟨hallowed, hrest⟩ := hacts
    rw [outputs, outputs, hout s t a h hallowed, ih (hstep s t a h hallowed) hrest]

end Outputs

end Run
