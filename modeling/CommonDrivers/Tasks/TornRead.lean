import Mathlib.Data.Fintype.Basic
import Mathlib.Logic.Nontrivial.Basic
import Mathlib.Order.Basic
import Mathlib.Order.Nat
import Mathlib.Tactic.WLOG
import CommonDrivers.Lib.Run
import CommonDrivers.Tasks.DoubleBuffer

/-! # Reading while the writer runs

The reader of a `DoubleBuffer` loads `idx` and then copies the buffer element by element, and the
writer may pre-empt it between any two of these steps. The comment over `DoubleBuffer` argues that
two buffers rule out corruption, which holds for one pre-emption; two cycles of the writer recycle
the very buffer that is being copied.

A value has `n` elements. A cycle of the writer (`write`, any change through the reference,
`commit`) is one step, because the writer is never pre-empted by the reader.
-/

namespace CommonDrivers.Tasks.TornRead

open Run (run_invariant run_simulates)

/-! ## When the steps of a read happen -/

/-- A step of the schedule. -/
inductive Act
  | reader
  | cycle
deriving DecidableEq, Repr

/-- How many writer cycles came before the load of `idx` and before each element copy of a read. -/
structure Timing where
  start : ℕ
  copies : List ℕ
deriving DecidableEq, Repr

namespace Timing

/-- One more element is copied. -/
def copy (t : Timing) (now : ℕ) : Timing := { t with copies := t.copies ++ [now] }

@[simp] theorem copy_start (t : Timing) (now : ℕ) : (t.copy now).start = t.start := rfl

@[simp] theorem copy_copies (t : Timing) (now : ℕ) : (t.copy now).copies = t.copies ++ [now] := rfl

/-- The cycle that last wrote the loaded buffer, at a moment when `c` cycles are done: the writer
returns to that buffer with every second cycle. -/
def generation (start c : ℕ) : ℕ := start + 2 * ((c - start) / 2)

/-- All elements are copied from the same generation of the buffer. -/
def Settled (t : Timing) : Prop :=
  ∀ c ∈ t.copies, ∀ c' ∈ t.copies, generation t.start c = generation t.start c'

instance (t : Timing) : Decidable t.Settled := by unfold Settled; infer_instance

theorem le_generation (start c : ℕ) : start ≤ generation start c := Nat.le_add_right ..

theorem generation_le {start c : ℕ} (h : start ≤ c) : generation start c ≤ c := by
  rw [generation]
  omega

@[simp] theorem generation_self (start : ℕ) : generation start start = start := by
  simp [generation]

end Timing

/-- The timing of the reads of a schedule, whatever the values. -/
structure Clock where
  cycles : ℕ
  reading : Option Timing
  finished : List Timing

namespace Clock

def init : Clock := ⟨0, none, []⟩

/-- A step of the clock for values of `n` elements. -/
def step (n : ℕ) (s : Clock) : Act → Clock
  | .cycle => { s with cycles := s.cycles + 1 }
  | .reader =>
    match s.reading with
    | none => { s with reading := some ⟨s.cycles, []⟩ }
    | some t =>
      if t.copies.length + 1 < n then { s with reading := some (t.copy s.cycles) }
      else { s with reading := none, finished := s.finished ++ [t.copy s.cycles] }

def run (n : ℕ) (schedule : List Act) : Clock := Run.run (step n) init schedule

end Clock

/-! ## The reader and the writer -/

variable {n : ℕ} {α : Type}

/-- A read, in progress or finished. `window` collects the values that the front buffer has had
since the load. -/
structure Read (n : ℕ) (α : Type) where
  slot : Fin 2
  out : Fin n → α
  timing : Timing
  window : List (Fin n → α)

/-- The element of `buffer` that is next goes to `out`. -/
def Read.copy (r : Read n α) (now : ℕ) (buffer : Fin n → α) : Read n α where
  slot := r.slot
  out := fun j => if (j : ℕ) = r.timing.copies.length then buffer j else r.out j
  timing := r.timing.copy now
  window := r.window

@[simp] theorem Read.copy_slot (r : Read n α) (now : ℕ) (buffer : Fin n → α) :
    (r.copy now buffer).slot = r.slot := rfl

@[simp] theorem Read.copy_timing (r : Read n α) (now : ℕ) (buffer : Fin n → α) :
    (r.copy now buffer).timing = r.timing.copy now := rfl

/-- A new value becomes visible during the read. -/
def Read.observe (r : Read n α) (front : Fin n → α) : Read n α :=
  { r with window := r.window ++ [front] }

/-- The shared buffer, the cycles done so far and the reads. -/
structure State (n : ℕ) (α : Type) where
  mem : DoubleBuffer (Fin n → α)
  cycles : ℕ
  reading : Option (Read n α)
  finished : List (Read n α)

namespace State

def init (d : DoubleBuffer (Fin n → α)) : State n α := ⟨d, 0, none, []⟩

/-- One step. The `k`-th cycle of the writer changes the value by `mods k`; `blank` is the content
of `out` before a read. -/
def step (mods : ℕ → (Fin n → α) → Fin n → α) (blank : Fin n → α) (s : State n α) : Act → State n α
  | .cycle =>
    let mem := s.mem.publish (mods s.cycles)
    { s with
      mem := mem
      cycles := s.cycles + 1
      reading := s.reading.map fun r => r.observe mem.read }
  | .reader =>
    match s.reading with
    | none => { s with reading := some ⟨s.mem.idx, blank, ⟨s.cycles, []⟩, [s.mem.read]⟩ }
    | some r =>
      let r' := r.copy s.cycles (s.mem.buffer r.slot)
      if r.timing.copies.length + 1 < n then { s with reading := some r' }
      else { s with reading := none, finished := s.finished ++ [r'] }

def run (mods : ℕ → (Fin n → α) → Fin n → α) (blank : Fin n → α) (d : DoubleBuffer (Fin n → α))
    (schedule : List Act) : State n α :=
  Run.run (step mods blank) (init d) schedule

section Step

variable {mods : ℕ → (Fin n → α) → Fin n → α} {blank : Fin n → α} {s : State n α} {r : Read n α}

theorem step_cycle : step mods blank s .cycle =
    { s with
      mem := s.mem.publish (mods s.cycles)
      cycles := s.cycles + 1
      reading := s.reading.map fun r => r.observe (mods s.cycles s.mem.read) } := by
  simp only [step, DoubleBuffer.publish_read]

theorem step_load (h : s.reading = none) : step mods blank s .reader =
    { s with reading := some ⟨s.mem.idx, blank, ⟨s.cycles, []⟩, [s.mem.read]⟩ } := by
  simp only [step, h]

theorem step_copy (h : s.reading = some r) (hlt : r.timing.copies.length + 1 < n) :
    step mods blank s .reader =
      { s with reading := some (r.copy s.cycles (s.mem.buffer r.slot)) } := by
  simp only [step, h, if_pos hlt]

theorem step_last (h : s.reading = some r) (hge : ¬ r.timing.copies.length + 1 < n) :
    step mods blank s .reader =
      { s with
        reading := none
        finished := s.finished ++ [r.copy s.cycles (s.mem.buffer r.slot)] } := by
  simp only [step, h, if_neg hge]

end Step

/-- The timing of the reads of a state. -/
def clock (s : State n α) : Clock where
  cycles := s.cycles
  reading := s.reading.map Read.timing
  finished := s.finished.map Read.timing

variable (mods : ℕ → (Fin n → α) → Fin n → α) (blank : Fin n → α)

/-- The timing does not depend on the values. -/
theorem step_clock (s : State n α) (a : Act) : (step mods blank s a).clock = s.clock.step n a := by
  cases a with
  | cycle => cases h : s.reading <;> simp [step_cycle, clock, Clock.step, h, Read.observe]
  | reader =>
    cases h : s.reading with
    | none => simp [step_load h, clock, Clock.step, h]
    | some r =>
      by_cases hlt : r.timing.copies.length + 1 < n
      · simp [step_copy h hlt, clock, Clock.step, h, hlt]
      · simp [step_last h hlt, clock, Clock.step, h, hlt]

theorem run_clock (d : DoubleBuffer (Fin n → α)) (schedule : List Act) :
    (run mods blank d schedule).clock = Clock.run n schedule :=
  run_simulates (step_clock mods blank) (init d) schedule

end State

/-! ## What a read copies -/

/-- The value that the `k`-th cycle publishes. -/
def published (mods : ℕ → (Fin n → α) → Fin n → α) (v : Fin n → α) : ℕ → Fin n → α
  | 0 => v
  | k + 1 => mods k (published mods v k)

/-- A read up to `now`: each element comes from the generation of the buffer at its copy, and the
window holds exactly the values published since the load. -/
structure Read.Traces (value : ℕ → Fin n → α) (now : ℕ) (r : Read n α) : Prop where
  start_le : r.timing.start ≤ now
  bounds : ∀ c ∈ r.timing.copies, r.timing.start ≤ c ∧ c ≤ now
  out_eq : ∀ (j : Fin n) (c : ℕ), r.timing.copies[(j : ℕ)]? = some c →
    r.out j = value (Timing.generation r.timing.start c) j
  mem_window : ∀ v, v ∈ r.window ↔ ∃ k, r.timing.start ≤ k ∧ k ≤ now ∧ v = value k

namespace Read.Traces

variable {value : ℕ → Fin n → α} {now : ℕ} {r : Read n α}

/-- The load starts a trace. -/
theorem load (value : ℕ → Fin n → α) (now : ℕ) (slot : Fin 2) (out : Fin n → α) :
    Read.Traces value now ⟨slot, out, ⟨now, []⟩, [value now]⟩ where
  start_le := le_rfl
  bounds := by simp
  out_eq := by simp
  mem_window v := by
    rw [List.mem_singleton]
    constructor
    · exact fun h => ⟨now, le_rfl, le_rfl, h⟩
    · rintro ⟨k, hlo, hhi, rfl⟩
      rw [le_antisymm hhi hlo]

/-- A writer cycle adds the new value to the window. -/
theorem observe (h : r.Traces value now) :
    (r.observe (value (now + 1))).Traces value (now + 1) where
  start_le := Nat.le_succ_of_le h.start_le
  bounds c hc := ⟨(h.bounds c hc).1, Nat.le_succ_of_le (h.bounds c hc).2⟩
  out_eq := h.out_eq
  mem_window v := by
    have hstart := h.start_le
    rw [Read.observe, List.mem_append, List.mem_singleton, h.mem_window]
    constructor
    · rintro (⟨k, hlo, hhi, hv⟩ | hv)
      · exact ⟨k, hlo, Nat.le_succ_of_le hhi, hv⟩
      · exact ⟨now + 1, Nat.le_succ_of_le hstart, le_rfl, hv⟩
    · rintro ⟨k, hlo, hhi, hv⟩
      rcases Nat.le_succ_iff.mp hhi with hk | rfl
      · exact .inl ⟨k, hlo, hk, hv⟩
      · exact .inr hv

/-- A copy from the buffer's current generation. -/
theorem copy (h : r.Traces value now) {buffer : Fin n → α}
    (hbuffer : buffer = value (Timing.generation r.timing.start now)) :
    (r.copy now buffer).Traces value now where
  start_le := h.start_le
  bounds c hc := by
    rcases List.mem_append.mp hc with hc | hc
    · exact h.bounds c hc
    · rw [List.mem_singleton.mp hc]
      exact ⟨h.start_le, le_rfl⟩
  out_eq j c hc := by
    simp only [Read.copy_timing, Timing.copy_copies, Timing.copy_start] at hc ⊢
    rw [Read.copy]
    by_cases hj : (j : ℕ) = r.timing.copies.length
    · rw [hj, List.getElem?_concat_length, Option.some.injEq] at hc
      simp only [if_pos hj, hbuffer, hc]
    · have hlt : (j : ℕ) < r.timing.copies.length := by
        have := (List.getElem?_eq_some_iff.mp hc).1
        rw [List.length_append, List.length_singleton] at this
        omega
      rw [List.getElem?_append_left hlt] at hc
      simp only [if_neg hj, h.out_eq j c hc]
  mem_window := h.mem_window

/-- A settled read returns one of the values of its window. -/
theorem out_mem_window (h : r.Traces value now) (hlen : r.timing.copies.length = n) (hn : 0 < n)
    (hs : r.timing.Settled) : r.out ∈ r.window := by
  have hfirst : 0 < r.timing.copies.length := by omega
  have hmem := List.getElem_mem hfirst
  obtain ⟨hlo, hhi⟩ := h.bounds _ hmem
  refine (h.mem_window _).mpr ⟨Timing.generation r.timing.start r.timing.copies[0],
    Timing.le_generation .., (Timing.generation_le hlo).trans hhi, funext fun j => ?_⟩
  have hj : (j : ℕ) < r.timing.copies.length := by omega
  rw [h.out_eq j _ (List.getElem?_eq_getElem hj), hs _ (List.getElem_mem hj) _ hmem]

end Read.Traces

/-! ## The invariant -/

/-- The reads of a state are traced, and the read in progress knows the generation of its buffer. -/
structure State.Inv (value : ℕ → Fin n → α) (s : State n α) : Prop where
  read_eq : s.mem.read = value s.cycles
  traces : ∀ r, s.reading = some r → r.Traces value s.cycles
  length_lt : ∀ r, s.reading = some r → r.timing.copies.length < n
  buffer_eq : ∀ r, s.reading = some r →
    s.mem.buffer r.slot = value (Timing.generation r.timing.start s.cycles)
  idx_eq : ∀ r, s.reading = some r →
    (s.mem.idx = r.slot ↔ (s.cycles - r.timing.start) % 2 = 0)
  finished : ∀ r ∈ s.finished, r.timing.copies.length = n ∧ ∃ now, r.Traces value now

namespace State.Inv

variable {mods : ℕ → (Fin n → α) → Fin n → α} {blank v : Fin n → α} {s : State n α}

theorem init (d : DoubleBuffer (Fin n → α)) :
    (State.init d).Inv (published mods d.read) where
  read_eq := rfl
  traces _ h := nomatch h
  length_lt _ h := nomatch h
  buffer_eq _ h := nomatch h
  idx_eq _ h := nomatch h
  finished _ h := nomatch h

/-- After a whole cycle the loaded buffer holds the new value if it was the back buffer, and what it
held before if it was the front buffer. -/
theorem cycle (h : s.Inv (published mods v)) :
    (State.step mods blank s .cycle).Inv (published mods v) := by
  have hnew : mods s.cycles s.mem.read = published mods v (s.cycles + 1) := by
    rw [h.read_eq]
    rfl
  rw [State.step_cycle]
  refine ⟨by rw [DoubleBuffer.publish_read, hnew], ?_, ?_, ?_, ?_, h.finished⟩
  all_goals
    intro r' hr'
    obtain ⟨r, hr, rfl⟩ := Option.map_eq_some_iff.mp hr'
  · rw [hnew]
    exact (h.traces r hr).observe
  · exact h.length_lt r hr
  · have hstart := (h.traces r hr).start_le
    -- an even number of cycles since the load leaves the loaded buffer in front
    by_cases hidx : s.mem.idx = r.slot
    · have heven := (h.idx_eq r hr).mp hidx
      have hgen : Timing.generation r.timing.start (s.cycles + 1) = s.cycles := by
        rw [Timing.generation]
        omega
      simp only [Read.observe, hgen, ← hidx, DoubleBuffer.publish_buffer_back, h.read_eq]
    · have hodd : ¬ (s.cycles - r.timing.start) % 2 = 0 := fun h0 => hidx ((h.idx_eq r hr).mpr h0)
      have hgen : Timing.generation r.timing.start (s.cycles + 1) = s.cycles + 1 := by
        rw [Timing.generation]
        omega
      have hslot : r.slot = (s.mem.publish (mods s.cycles)).idx :=
        DoubleBuffer.eq_xor_one_of_ne (Ne.symm hidx)
      simp only [Read.observe, hgen, hslot, ← hnew]
      exact DoubleBuffer.publish_read ..
  · have hstart := (h.traces r hr).start_le
    have hflip : (s.mem.publish (mods s.cycles)).idx = r.slot ↔ s.mem.idx ≠ r.slot := by
      rw [DoubleBuffer.publish_idx]
      constructor
      · exact fun hxor heq => DoubleBuffer.xor_one_ne _ (hxor.trans heq.symm)
      · exact fun hne => (DoubleBuffer.eq_xor_one_of_ne hne.symm).symm
    simp only [Read.observe, hflip, ne_eq, h.idx_eq r hr]
    omega

theorem load (h : s.Inv (published mods v)) (hn : 0 < n) (hnone : s.reading = none) :
    (State.step mods blank s .reader).Inv (published mods v) := by
  rw [State.step_load hnone]
  refine ⟨h.read_eq, ?_, ?_, ?_, ?_, h.finished⟩
  all_goals
    intro r hr
    obtain rfl := Option.some.inj hr
  · rw [h.read_eq]
    exact Read.Traces.load ..
  · exact hn
  · simp only [Timing.generation_self]
    exact h.read_eq
  · simp

theorem copy (h : s.Inv (published mods v)) {r : Read n α} (hr : s.reading = some r) :
    (State.step mods blank s .reader).Inv (published mods v) := by
  have htraces := (h.traces r hr).copy (h.buffer_eq r hr)
  by_cases hlt : r.timing.copies.length + 1 < n
  · rw [State.step_copy hr hlt]
    refine ⟨h.read_eq, ?_, ?_, ?_, ?_, h.finished⟩
    all_goals
      intro r' hr'
      obtain rfl := Option.some.inj hr'
    · exact htraces
    · simpa using hlt
    · exact h.buffer_eq r hr
    · exact h.idx_eq r hr
  · have hlen := h.length_lt r hr
    rw [State.step_last hr hlt]
    refine ⟨h.read_eq, ?_, ?_, ?_, ?_, fun r' hr' => ?_⟩
    any_goals exact fun _ h => nomatch h
    rcases List.mem_append.mp hr' with hr' | hr'
    · exact h.finished r' hr'
    · rw [List.mem_singleton.mp hr']
      refine ⟨?_, _, htraces⟩
      simp only [Read.copy_timing, Timing.copy_copies, List.length_append, List.length_singleton]
      omega

theorem step (hn : 0 < n) (h : s.Inv (published mods v)) (a : Act) :
    (State.step mods blank s a).Inv (published mods v) := by
  cases a with
  | cycle => exact h.cycle
  | reader =>
    cases hr : s.reading with
    | none => exact h.load hn hr
    | some r => exact h.copy hr

/-- The invariant holds after every schedule. -/
theorem run (hn : 0 < n) (d : DoubleBuffer (Fin n → α)) (schedule : List Act) :
    (State.run mods blank d schedule).Inv (published mods d.read) :=
  run_invariant (fun _ a h => h.step hn a) (init d) schedule

end State.Inv

/-! ## Torn reads -/

/-- A writer that publishes a value of `a`s until cycle `g` and of `b`s from then on. -/
def switching (a b : α) (g k : ℕ) (_ : Fin n → α) : Fin n → α :=
  fun _ => if k + 1 < g then a else b

theorem published_switching (a b : α) {g : ℕ} (hg : 0 < g) (k : ℕ) :
    published (switching a b g) (fun _ : Fin n => a) k = fun _ => if k < g then a else b := by
  cases k with
  | zero => simp [published, hg]
  | succ k => rfl

/-- A read that crosses a generation is torn under a writer that switches there. -/
theorem Read.Traces.torn {a b : α} (hab : a ≠ b) {g now : ℕ} (hg : 0 < g) {r : Read n α}
    (h : r.Traces (published (switching a b g) fun _ => a) now)
    (hlen : r.timing.copies.length = n) {c c' : ℕ} (hc : c ∈ r.timing.copies)
    (hc' : c' ∈ r.timing.copies) (hlt : Timing.generation r.timing.start c < g)
    (hle : g ≤ Timing.generation r.timing.start c') : r.out ∉ r.window := by
  intro hmem
  -- every value published is constant, but the read mixes an `a` with a `b`
  obtain ⟨k, -, -, hk⟩ := (h.mem_window _).mp hmem
  obtain ⟨i, hi, rfl⟩ := List.getElem_of_mem hc
  obtain ⟨i', hi', rfl⟩ := List.getElem_of_mem hc'
  have hout := h.out_eq ⟨i, hlen ▸ hi⟩ _ (List.getElem?_eq_getElem hi)
  have hout' := h.out_eq ⟨i', hlen ▸ hi'⟩ _ (List.getElem?_eq_getElem hi')
  simp only [hk, published_switching a b hg, if_pos hlt, if_neg (not_lt.mpr hle)] at hout hout'
  exact hab (hout.symm.trans hout')

/-- **Every read of a schedule returns one of the values published during it, whatever the values,
if and only if each of its reads copies all elements from one generation of the buffer.** -/
theorem finished_out_mem_window_iff [Nontrivial α] (hn : 0 < n) (schedule : List Act) :
    (∀ (d : DoubleBuffer (Fin n → α)) (mods : ℕ → (Fin n → α) → Fin n → α) (blank : Fin n → α),
      ∀ r ∈ (State.run mods blank d schedule).finished, r.out ∈ r.window) ↔
    ∀ t ∈ (Clock.run n schedule).finished, t.Settled := by
  constructor
  · intro hwhole t ht c hc c' hc'
    -- by symmetry it is enough to refute that the generation of `c` is the older one
    by_contra hne
    obtain ⟨a, b, hab⟩ := exists_pair_ne α
    wlog hlt : Timing.generation t.start c < Timing.generation t.start c' generalizing c c'
    · exact this c' hc' c hc (Ne.symm hne) (by omega)
    let g := Timing.generation t.start c'
    let d : DoubleBuffer (Fin n → α) := .initial fun _ => a
    have hclock := State.run_clock (switching a b g) (fun _ => a) d schedule
    rw [← hclock] at ht
    obtain ⟨r, hr, rfl⟩ := List.mem_map.mp ht
    obtain ⟨hlen, now, htraces⟩ := (State.Inv.run hn d schedule).finished r hr
    exact htraces.torn hab (by omega) hlen hc hc' hlt le_rfl (hwhole d _ _ r hr)
  · intro hsettled d mods blank r hr
    have hinv : (State.run mods blank d schedule).Inv (published mods d.read) :=
      State.Inv.run hn d schedule
    obtain ⟨hlen, now, htraces⟩ := hinv.finished r hr
    refine htraces.out_mem_window hlen hn (hsettled _ ?_)
    rw [← State.run_clock mods blank d schedule]
    exact List.mem_map_of_mem hr

/-- One pre-emption is harmless: two elements, one cycle between their copies. -/
theorem finished_out_mem_window_one_cycle :
    (∀ (d : DoubleBuffer (Fin 2 → Bool)) (mods : ℕ → (Fin 2 → Bool) → Fin 2 → Bool)
        (blank : Fin 2 → Bool),
      ∀ r ∈ (State.run mods blank d [.reader, .reader, .cycle, .reader]).finished,
        r.out ∈ r.window) ↔
    ∀ t ∈ (Clock.run 2 [.reader, .reader, .cycle, .reader]).finished, t.Settled :=
  finished_out_mem_window_iff (by decide) _

/-- Two cycles between the copies of two elements tear the read. -/
theorem finished_out_torn :
    ¬ ∀ r ∈ (State.run (n := 2) (switching false true 2) (fun _ => false)
        (.initial fun _ => false) [.reader, .reader, .cycle, .cycle, .reader]).finished,
      r.out ∈ r.window := by
  decide

end CommonDrivers.Tasks.TornRead
