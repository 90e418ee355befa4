import Mathlib.Data.List.Count
import CommonDrivers.Lib.Simulation

/-! # Programs that make calls

`Program Call Reply α` is code of which nothing is known but the calls it makes, each of which may
depend on the replies so far. `run` runs it over an implementation of the calls, `advance` runs it
for a number of calls, and `interleave` runs several programs, call by call, in the order that a
schedule gives. If each call touches only the part of the state that belongs to the program which
makes it, then every program is where it had been alone (`interleave_isolated`).
-/

/-- A program that ends with a result, or makes a call and goes on with the reply. -/
inductive Program (Call : Type) (Reply : Call → Type) (α : Type)
  | done (a : α)
  | call (c : Call) (rest : Reply c → Program Call Reply α)

namespace Program

open Exec

variable {Call : Type} {Reply : Call → Type} {α σ : Type}

/-- The program over an implementation of the calls. -/
def run (serve : ∀ c, Exec σ (Reply c)) : Program Call Reply α → Exec σ α
  | done a => return a
  | call c rest => do
    let r ← serve c
    run serve (rest r)

/-- The program for `n` calls, or until it is done, and what is left of it. -/
def advance (serve : ∀ c, Exec σ (Reply c)) :
    ℕ → Program Call Reply α → Exec σ (Program Call Reply α)
  | 0, p => return p
  | _ + 1, done a => return done a
  | n + 1, call c rest => do
    let r ← serve c
    advance serve n (rest r)

section Advance

variable (serve : ∀ c, Exec σ (Reply c))

theorem advance_done (n : ℕ) (a : α) (s : σ) :
    advance serve n (done a : Program Call Reply α) s = some (done a, s) := by
  cases n with
  | zero => rfl
  | succ n => rfl

variable {serve}

theorem advance_call {c : Call} {rest : Reply c → Program Call Reply α} {s s' : σ} {r : Reply c}
    (h : serve c s = some (r, s')) (n : ℕ) :
    advance serve (n + 1) (call c rest) s = advance serve n (rest r) s' := by
  rw [advance, bind_apply, h, Option.bind_some]

theorem run_call {c : Call} {rest : Reply c → Program Call Reply α} {s s' : σ} {r : Reply c}
    (h : serve c s = some (r, s')) : run serve (call c rest) s = run serve (rest r) s' := by
  rw [run, bind_apply, h, Option.bind_some]

/-- The program goes on where it was left. -/
theorem run_of_advance {n : ℕ} {p p' : Program Call Reply α} {s s' : σ}
    (h : advance serve n p s = some (p', s')) : run serve p s = run serve p' s' := by
  induction n generalizing p s with
  | zero =>
    obtain ⟨rfl, rfl⟩ := Prod.mk.inj (Option.some.inj h)
    rfl
  | succ n ih =>
    cases p with
    | done a =>
      obtain ⟨rfl, rfl⟩ := Prod.mk.inj (Option.some.inj h)
      rfl
    | call c rest =>
      rw [advance, bind_apply] at h
      obtain ⟨⟨r, s₁⟩, hserve, hrest⟩ := Option.bind_eq_some_iff.mp h
      rw [run_call hserve, ih hrest]

end Advance

/-! ## Traces -/

/-- A call with its reply. -/
structure Event (Reply : Call → Type) where
  call : Call
  reply : Reply call

/-- With the replies of the trace the program makes its calls and ends with this result. -/
inductive Yields : Program Call Reply α → List (Event Reply) → α → Prop
  | done (a : α) : Yields (done a) [] a
  | call {c : Call} {rest : Reply c → Program Call Reply α} {r : Reply c}
      {trace : List (Event Reply)} {a : α} (h : Yields (rest r) trace a) :
      Yields (call c rest) (⟨c, r⟩ :: trace) a

/-- The implementation gives the replies of the trace to its calls, from one state to another. -/
def Served (serve : ∀ c, Exec σ (Reply c)) : σ → List (Event Reply) → σ → Prop
  | s, [], s' => s = s'
  | s, e :: trace, s' => ∃ s₁, serve e.call s = some (e.reply, s₁) ∧ Served serve s₁ trace s'

/-- What a run returns, the program yields. -/
theorem yields_of_run {serve : ∀ c, Exec σ (Reply c)} {p : Program Call Reply α} {s s' : σ} {a : α}
    (h : run serve p s = some (a, s')) : ∃ trace, Yields p trace a := by
  induction p generalizing s with
  | done b =>
    obtain ⟨rfl, -⟩ := Prod.mk.inj (Option.some.inj h)
    exact ⟨[], .done b⟩
  | call c rest ih =>
    rw [run, bind_apply] at h
    obtain ⟨⟨r, s₁⟩, -, hrest⟩ := Option.bind_eq_some_iff.mp h
    obtain ⟨trace, hyields⟩ := ih r hrest
    exact ⟨⟨c, r⟩ :: trace, .call hyields⟩

/-- Over calls that all return, a program ends, and its run is a trace of it that is served. -/
theorem run_served {serve : ∀ c, Exec σ (Reply c)} (h : ∀ c s, ∃ r s', serve c s = some (r, s'))
    (p : Program Call Reply α) (s : σ) :
    ∃ a s' trace, run serve p s = some (a, s') ∧ Yields p trace a ∧ Served serve s trace s' := by
  induction p generalizing s with
  | done a => exact ⟨a, s, [], rfl, .done a, rfl⟩
  | call c rest ih =>
    obtain ⟨r, s₁, hserve⟩ := h c s
    obtain ⟨a, s', trace, hrun, hyields, hserved⟩ := ih r s₁
    exact ⟨a, s', ⟨c, r⟩ :: trace, (run_call hserve).trans hrun, .call hyields, s₁, hserve, hserved⟩

/-! ## Several programs -/

section Interleave

variable {ι ρ : Type} [DecidableEq ι] {Call : ι → Type} {Reply : ∀ i, Call i → Type}

/-- The programs in the order of the schedule, one call at a time, and what is left of them. -/
def interleave (serve : ∀ i c, Exec ρ (Reply i c)) :
    List ι → (∀ i, Program (Call i) (Reply i) α) → Exec ρ (∀ i, Program (Call i) (Reply i) α)
  | [], ps => return ps
  | i :: schedule, ps =>
    match ps i with
    | done _ => interleave serve schedule ps
    | call c rest => do
      let r ← serve i c
      interleave serve schedule (Function.update ps i (rest r))

variable {serve : ∀ i c, Exec ρ (Reply i c)} {ps : ∀ i, Program (Call i) (Reply i) α} {i : ι}

theorem interleave_done (schedule : List ι) {a : α} (h : ps i = done a) :
    interleave serve (i :: schedule) ps = interleave serve schedule ps := by
  rw [interleave, h]

theorem interleave_call (schedule : List ι) {c : Call i}
    {rest : Reply i c → Program (Call i) (Reply i) α} (h : ps i = call c rest) {s s' : ρ}
    {r : Reply i c} (hserve : serve i c s = some (r, s')) :
    interleave serve (i :: schedule) ps s =
      interleave serve schedule (Function.update ps i (rest r)) s' := by
  rw [interleave, h]
  exact congrArg (Option.bind · _) hserve

/-- **If each call returns what it returns on the program's own part of the state, and changes only
this part, then after any schedule every program and its part of the state are where the program
had come to alone.** -/
theorem interleave_isolated {τ : ι → Type} {own : ∀ i c, Exec (τ i) (Reply i c)}
    {embed : (∀ i, τ i) → ρ}
    (h : ∀ i c t, ∃ r t', own i c (t i) = some (r, t') ∧
      serve i c (embed t) = some (r, embed (Function.update t i t')))
    (schedule : List ι) (ps : ∀ i, Program (Call i) (Reply i) α) (t : ∀ i, τ i) :
    ∃ ps' t', interleave serve schedule ps (embed t) = some (ps', embed t') ∧
      ∀ i, advance (own i) (schedule.count i) (ps i) (t i) = some (ps' i, t' i) := by
  induction schedule generalizing ps t with
  | nil => exact ⟨ps, t, rfl, fun _ => rfl⟩
  | cons i schedule ih =>
    cases hp : ps i with
    | done a =>
      -- a turn of a program that is done goes by without a call
      obtain ⟨ps', t', hrun, hown⟩ := ih ps t
      refine ⟨ps', t', (congrFun (interleave_done schedule hp) _).trans hrun, fun j => ?_⟩
      by_cases hj : i = j
      · subst hj
        have halone := hown i
        rw [hp, advance_done] at halone
        rw [hp, advance_done, halone]
      · rw [List.count_cons_of_ne hj]
        exact hown j
    | call c rest =>
      -- the call belongs to the turn of `i`; for the others nothing has changed
      obtain ⟨r, ti, hcall, hserve⟩ := h i c t
      obtain ⟨ps', t', hrun, hown⟩ :=
        ih (Function.update ps i (rest r)) (Function.update t i ti)
      refine ⟨ps', t', (interleave_call schedule hp hserve).trans hrun, fun j => ?_⟩
      have halone := hown j
      by_cases hj : i = j
      · subst hj
        rw [Function.update_self, Function.update_self] at halone
        rw [List.count_cons_self, hp, advance_call hcall]
        exact halone
      · rw [Function.update_of_ne (Ne.symm hj), Function.update_of_ne (Ne.symm hj)] at halone
        rw [List.count_cons_of_ne hj]
        exact halone

end Interleave

end Program
