import CommonDrivers.Lib.Exec

/-! # Total correctness and simulation

`Returns pre m post` strengthens a triple: the execution also terminates without a failed assertion.
`Simulates R m n` relates two executions over different states: they abort together, or return the
same result in states that are related again. Both have one rule for each construct of a `do` block,
so a program that is written once, over any implementation of the calls it makes, is related to
itself over two implementations call by call. `each_refines` extends a refinement of single calls to
sequences of calls.
-/

namespace Exec

variable {σ τ α β : Type}

/-! ## Total correctness -/

/-- From every state in `pre`, `m` returns, with its result and its final state in `post`. -/
def Returns (pre : σ → Prop) (m : Exec σ α) (post : α → σ → Prop) : Prop :=
  ∀ s, pre s → ∃ a s', m s = some (a, s') ∧ post a s'

namespace Returns

variable {pre : σ → Prop} {post : α → σ → Prop} {m : Exec σ α}

theorem pure {a : α} (h : ∀ s, pre s → post a s) : Returns pre (Pure.pure a) post :=
  fun s hs => ⟨a, s, rfl, h s hs⟩

theorem bind {f : α → Exec σ β} {post : β → σ → Prop} (mid : α → σ → Prop)
    (hm : Returns pre m mid) (hf : ∀ a, Returns (mid a) (f a) post) :
    Returns pre (m >>= f) post := by
  intro s hs
  obtain ⟨a, s₁, hfirst, hmid⟩ := hm s hs
  obtain ⟨b, s₂, hrest, hpost⟩ := hf a s₁ hmid
  exact ⟨b, s₂, by rw [bind_apply, hfirst, Option.bind_some, hrest], hpost⟩

/-- An assertion whose condition is known. -/
theorem assert_bind {p : Prop} [Decidable p] {f : Unit → Exec σ α} (hp : p)
    (hf : Returns pre (f ()) post) : Returns pre (assert p >>= f) post := by
  intro s hs
  obtain ⟨a, s', hrun, hpost⟩ := hf s hs
  exact ⟨a, s', by rw [bind_apply, assert_apply hp, Option.bind_some, hrun], hpost⟩

theorem ite {p : Prop} [Decidable p] {m' : Exec σ α} (hthen : p → Returns pre m post)
    (helse : ¬ p → Returns pre m' post) : Returns pre (if p then m else m') post := by
  by_cases h : p
  · rw [if_pos h]
    exact hthen h
  · rw [if_neg h]
    exact helse h

theorem weaken {post' : α → σ → Prop} (hm : Returns pre m post) (h : ∀ a s, post a s → post' a s) :
    Returns pre m post' := by
  intro s hs
  obtain ⟨a, s', hrun, hpost⟩ := hm s hs
  exact ⟨a, s', hrun, h a s' hpost⟩

end Returns

/-! ## Simulation -/

/-- From states related by `R`, both executions abort, or both return the same result and end in
related states. -/
def Simulates (R : σ → τ → Prop) (m : Exec σ α) (n : Exec τ α) : Prop :=
  ∀ s t, R s t → Option.Rel (fun p q => p.1 = q.1 ∧ R p.2 q.2) (m s) (n t)

namespace Simulates

variable {R : σ → τ → Prop} {m : Exec σ α} {n : Exec τ α}

theorem pure (a : α) : Simulates R (Pure.pure a) (Pure.pure a) :=
  fun _ _ h => .some ⟨rfl, h⟩

theorem bind {f : α → Exec σ β} {g : α → Exec τ β} (hm : Simulates R m n)
    (hf : ∀ a, Simulates R (f a) (g a)) : Simulates R (m >>= f) (n >>= g) := by
  intro s t h
  have hrel := hm s t h
  rw [bind_apply, bind_apply]
  generalize m s = x, n t = y at hrel
  cases hrel with
  | none => exact .none
  | @some p q hpq =>
    rw [Option.bind_some, Option.bind_some, ← hpq.1]
    exact hf p.1 p.2 q.2 hpq.2

/-- Both executions make the same assertion, behind which its condition may be assumed. -/
theorem assert_bind {p : Prop} [Decidable p] {f : Unit → Exec σ α} {g : Unit → Exec τ α}
    (hf : p → Simulates R (f ()) (g ())) : Simulates R (assert p >>= f) (assert p >>= g) := by
  intro s t h
  by_cases hp : p
  · rw [bind_apply, bind_apply, assert_apply hp, assert_apply hp]
    exact hf hp s t h
  · rw [bind_apply, bind_apply, assert_fail hp, assert_fail hp]
    exact .none

theorem ite {p : Prop} [Decidable p] {m' : Exec σ α} {n' : Exec τ α}
    (hthen : p → Simulates R m n) (helse : ¬ p → Simulates R m' n') :
    Simulates R (if p then m else m') (if p then n else n') := by
  by_cases h : p
  · rw [if_pos h, if_pos h]
    exact hthen h
  · rw [if_neg h, if_neg h]
    exact helse h

/-- What the simulated execution returns, the simulating one returns. -/
theorem returns (hm : Simulates R m n) {s : σ} {t t' : τ} {a : α} (h : R s t)
    (hrun : n t = some (a, t')) : ∃ s', m s = some (a, s') ∧ R s' t' := by
  have hrel := hm s t h
  rw [hrun] at hrel
  generalize m s = x at hrel
  cases hrel with
  | @some p q hpq => exact ⟨p.2, congrArg (fun b => some (b, p.2)) hpq.1, hpq.2⟩

end Simulates

/-! ## Sequences of calls -/

variable {ι ρ : Type}

/-- The calls `f a` for the elements of a list, one after the other. -/
def each (f : ι → Exec σ β) : List ι → Exec σ (List β)
  | [] => return []
  | a :: as => do
    let b ← f a
    let bs ← each f as
    return b :: bs

/-- A sequence of calls of a deterministic system that never aborts. -/
def steps (step : ι → ρ → β × ρ) : List ι → ρ → List β × ρ
  | [], t => ([], t)
  | a :: as, t => ((step a t).1 :: (steps step as (step a t).2).1, (steps step as (step a t).2).2)

/-- If each call does what the system does, so does a sequence of calls. -/
theorem each_refines {R : σ → ρ → Prop} {f : ι → Exec σ β} (step : ι → ρ → β × ρ)
    (h : ∀ a s t, R s t → ∃ s', f a s = some ((step a t).1, s') ∧ R s' (step a t).2) (as : List ι)
    {s : σ} {t : ρ} (hst : R s t) :
    ∃ s', each f as s = some ((steps step as t).1, s') ∧ R s' (steps step as t).2 := by
  induction as generalizing s t with
  | nil => exact ⟨s, rfl, hst⟩
  | cons a as ih =>
    obtain ⟨s₁, hfirst, h₁⟩ := h a s t hst
    obtain ⟨s₂, hrest, h₂⟩ := ih h₁
    exact ⟨s₂, by rw [each, bind_apply, hfirst, Option.bind_some, bind_apply, hrest]; rfl, h₂⟩

/-- A system that keeps its state. -/
theorem steps_stateless (f : ι → β) (as : List ι) (t : ρ) :
    steps (fun a t => (f a, t)) as t = (as.map f, t) := by
  induction as with
  | nil => rfl
  | cons a as ih => rw [steps, ih, List.map_cons]

theorem steps_append (step : ι → ρ → β × ρ) (as bs : List ι) (t : ρ) :
    steps step (as ++ bs) t =
      ((steps step as t).1 ++ (steps step bs (steps step as t).2).1,
        (steps step bs (steps step as t).2).2) := by
  induction as generalizing t with
  | nil => rfl
  | cons a as ih => rw [List.cons_append, steps, ih]; rfl

end Exec
