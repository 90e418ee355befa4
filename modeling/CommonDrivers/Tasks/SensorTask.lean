import CommonDrivers.Sensors.Packet
import CommonDrivers.Tasks.DoubleBuffer
import CommonDrivers.Tasks.Registry

/-! # The sensor task

`SensorTask::loop` of `include/tasks/sensor_task.h` as a machine: one step is one statement of the
loop, or one element of the span of sensors. The tasks share the packet buffer, the registry and the
kernel, and leave a log of the calls that other parts of the system can see.
-/

namespace CommonDrivers.Tasks

open Sensors

variable {F τ : Type}

/-! ## What the tasks share -/

/-- A visible call of a task. -/
inductive Event (F : Type)
  | commit (p : Packet F)
  | publish (event : UInt32)
  | delayUntil (previousWakeTime timeIncrement : UInt32)
  | take (event : UInt32)
  | append (p : Packet F)
  | close
  | unmount
  | delete

def Event.isCommit : Event F → Bool
  | .commit _ => true
  | _ => false

def Event.isPublish (event : UInt32) : Event F → Bool
  | .publish e => e = event
  | _ => false

/-- The packet buffer, the registry and the kernel, with the log of all calls so far. -/
structure Shared (F τ : Type) where
  mem : DoubleBuffer (Packet F)
  registry : Registry τ
  kernel : Kernel τ
  log : List (Event F)

namespace Shared

variable (s : Shared F τ)

/-- Adds a call to the log. -/
def emit (e : Event F) : Shared F τ := { s with log := s.log ++ [e] }

/-- The log gets the packet that is staged, as it is before the buffers are swapped. -/
def commit : Shared F τ :=
  let staged := s.mem.staged
  { s with mem := s.mem.commit }.emit (.commit staged)

section Emit

variable (e : Event F)

@[simp] theorem emit_mem : (s.emit e).mem = s.mem := rfl

@[simp] theorem emit_registry : (s.emit e).registry = s.registry := rfl

@[simp] theorem emit_kernel : (s.emit e).kernel = s.kernel := rfl

@[simp] theorem emit_log : (s.emit e).log = s.log ++ [e] := rfl

end Emit

@[simp] theorem commit_mem : s.commit.mem = s.mem.commit := rfl

@[simp] theorem commit_registry : s.commit.registry = s.registry := rfl

@[simp] theorem commit_kernel : s.commit.kernel = s.kernel := rfl

@[simp] theorem commit_log : s.commit.log = s.log ++ [.commit s.mem.staged] := rfl

variable [DecidableEq τ] (event : UInt32)

def publish : Shared F τ :=
  { s with kernel := s.registry.publish event s.kernel }.emit (.publish event)

def publishIsr : Shared F τ :=
  { s with kernel := s.registry.publishIsr event s.kernel }.emit (.publish event)

@[simp] theorem publish_mem : (s.publish event).mem = s.mem := rfl

@[simp] theorem publish_registry : (s.publish event).registry = s.registry := rfl

@[simp] theorem publish_kernel :
    (s.publish event).kernel = s.registry.publish event s.kernel := rfl

@[simp] theorem publish_log : (s.publish event).log = s.log ++ [.publish event] := rfl

end Shared

variable [DecidableEq τ]

/-! ## The task -/

/-- What surrounds the task: the span of sensors (`none` is a null pointer) with what each `read`
does in each cycle, the tick counter at the start and in each cycle, the constants of the port, and
the CRC unit, a function of the bytes it is given. -/
structure SensorEnv (F : Type) where
  sensors : List (Option (ℕ → SensorRead F))
  startTick : UInt32
  tickCount : ℕ → UInt32
  tickPeriodMs : UInt32
  tickRateHz : UInt32
  crcCalculate : List UInt8 → UInt32
  bits : F → UInt32

/-- The statement that is next. The delay stands after the endless loop. -/
inductive SensorPc
  | write
  | sensor (k : ℕ)
  | stamp
  | checksum
  | commit
  | count
  | telemetry
  | staging
  | delay
  | returned
deriving DecidableEq, Repr

/-- The locals of the task; `cycle` numbers the rounds of the loop. -/
structure SensorTask where
  pc : SensorPc
  counter : UInt32
  lastWakeUp : UInt32
  ptr : Fin 2
  cycle : ℕ

namespace SensorEnv

variable (env : SensorEnv F)

/-- The time stamp of a packet. -/
def stamp (cycle : ℕ) (p : Packet F) : Packet F :=
  p.setTimeUs (env.tickCount cycle * env.tickPeriodMs)

/-- The bytes that the checksum covers: `sizeof(Packet) - 6` bytes from `sizeof(short)` on. -/
def covered (p : Packet F) : List UInt8 := ((p.bytes env.bits).drop 2).take (108 - 6)

def setCrc (p : Packet F) : Packet F := p.setChecksum (env.crcCalculate (env.covered p))

end SensorEnv

namespace SensorTask

/-- The task at the top of the loop for the first time. -/
def start (env : SensorEnv F) : SensorTask := ⟨.write, 0, env.startTick, ⟨0, Nat.two_pos⟩, 0⟩

def step (env : SensorEnv F) (t : SensorTask) (s : Shared F τ) : SensorTask × Shared F τ :=
  match t.pc with
  | .write =>
    let ref := s.mem.write
    ({ t with pc := .sensor 0, ptr := ref.1 }, { s with mem := ref.2 })
  | .sensor k =>
    match env.sensors[k]? with
    | none => ({ t with pc := .stamp }, s)
    | some none => ({ t with pc := .sensor (k + 1) }, s)
    | some (some read) =>
      ({ t with pc := .sensor (k + 1) },
        { s with mem := s.mem.modify t.ptr fun p => (read t.cycle p).2 })
  | .stamp => ({ t with pc := .checksum }, { s with mem := s.mem.modify t.ptr (env.stamp t.cycle) })
  | .checksum => ({ t with pc := .commit }, { s with mem := s.mem.modify t.ptr env.setCrc })
  | .commit => ({ t with pc := .count }, s.commit)
  | .count =>
    -- Tell flash to save data every other packet
    if t.counter + 1 ≥ 2 then ({ t with pc := .telemetry, counter := 0 }, s)
    else ({ t with pc := .staging, counter := t.counter + 1 }, s)
  | .telemetry => ({ t with pc := .staging }, s.publish TaskEvent.Telemetry)
  | .staging => ({ t with pc := .write, cycle := t.cycle + 1 }, s.publish TaskEvent.Staging)
  | .delay => ({ t with pc := .returned }, s.emit (.delayUntil t.lastWakeUp (env.tickRateHz / 200)))
  | .returned => (t, s)

/-- The first `steps` steps of the task when it runs alone. -/
def run (env : SensorEnv F) (s : Shared F τ) : ℕ → SensorTask × Shared F τ
  | 0 => (start env, s)
  | steps + 1 => step env (run env s steps).1 (run env s steps).2

/-! ## What one step does -/

section Steps

variable {env : SensorEnv F} {t : SensorTask} {s : Shared F τ}

theorem step_write (h : t.pc = .write) : t.step env s =
    ({ t with pc := .sensor 0, ptr := s.mem.idx ^^^ 1 }, { s with mem := s.mem.write.2 }) := by
  simp only [step, h, DoubleBuffer.write_fst]

/-- The span has no further element. -/
theorem step_sensor_end {k : ℕ} (h : t.pc = .sensor k) (hk : env.sensors[k]? = none) :
    t.step env s = ({ t with pc := .stamp }, s) := by
  simp only [step, h, hk]

theorem step_sensor_null {k : ℕ} (h : t.pc = .sensor k) (hk : env.sensors[k]? = some none) :
    t.step env s = ({ t with pc := .sensor (k + 1) }, s) := by
  simp only [step, h, hk]

theorem step_sensor_read {k : ℕ} {read : ℕ → SensorRead F} (h : t.pc = .sensor k)
    (hk : env.sensors[k]? = some (some read)) : t.step env s =
      ({ t with pc := .sensor (k + 1) },
        { s with mem := s.mem.modify t.ptr fun p => (read t.cycle p).2 }) := by
  simp only [step, h, hk]

theorem step_stamp (h : t.pc = .stamp) : t.step env s =
    ({ t with pc := .checksum }, { s with mem := s.mem.modify t.ptr (env.stamp t.cycle) }) := by
  simp only [step, h]

theorem step_checksum (h : t.pc = .checksum) : t.step env s =
    ({ t with pc := .commit }, { s with mem := s.mem.modify t.ptr env.setCrc }) := by
  simp only [step, h]

theorem step_commit (h : t.pc = .commit) : t.step env s = ({ t with pc := .count }, s.commit) := by
  simp only [step, h]

theorem step_count_telemetry (h : t.pc = .count) (hc : t.counter + 1 ≥ 2) :
    t.step env s = ({ t with pc := .telemetry, counter := 0 }, s) := by
  simp only [step, h, if_pos hc]

theorem step_count_staging (h : t.pc = .count) (hc : ¬ t.counter + 1 ≥ 2) :
    t.step env s = ({ t with pc := .staging, counter := t.counter + 1 }, s) := by
  simp only [step, h, if_neg hc]

theorem step_telemetry (h : t.pc = .telemetry) :
    t.step env s = ({ t with pc := .staging }, s.publish TaskEvent.Telemetry) := by
  simp only [step, h]

theorem step_staging (h : t.pc = .staging) : t.step env s =
    ({ t with pc := .write, cycle := t.cycle + 1 }, s.publish TaskEvent.Staging) := by
  simp only [step, h]

end Steps

/-- The task is in its endless loop, and between `write` and `commit` its reference is the back
buffer. -/
structure Ready (t : SensorTask) (d : DoubleBuffer (Packet F)) : Prop where
  looping : t.pc ≠ .delay ∧ t.pc ≠ .returned
  ptr_eq : (∃ k, t.pc = .sensor k) ∨ t.pc = .stamp ∨ t.pc = .checksum ∨ t.pc = .commit →
    t.ptr = d.idx ^^^ 1

/-- The event word that the next step of the task publishes. -/
def publishes (t : SensorTask) : Option UInt32 :=
  match t.pc with
  | .telemetry => some TaskEvent.Telemetry
  | .staging => some TaskEvent.Staging
  | _ => none

/-- The effect of a step on what the tasks share: nothing that a reader sees, a commit, or the
publish of an event word. -/
inductive Effect (s : Shared F τ) : Option UInt32 → Shared F τ → Prop
  | silent (d : DoubleBuffer (Packet F)) (h : d.read = s.mem.read) :
    Effect s none { s with mem := d }
  | commit : Effect s none s.commit
  | publish (event : UInt32) : Effect s (some event) (s.publish event)

variable (env : SensorEnv F) {t : SensorTask} {s : Shared F τ}

theorem ready_start (d : DoubleBuffer (Packet F)) : (start env).Ready d where
  looping := by simp [start]
  ptr_eq := by simp [start]

/-- A ready task stays ready and has one of the effects. -/
theorem step_effect (h : t.Ready s.mem) :
    (t.step env s).1.Ready (t.step env s).2.mem ∧ Effect s t.publishes (t.step env s).2 := by
  have modify : ∀ f, t.ptr = s.mem.idx ^^^ 1 →
      Effect s none { s with mem := s.mem.modify t.ptr f } := fun f hptr =>
    .silent _ (DoubleBuffer.modify_read _ hptr f)
  cases hpc : t.pc with
  | write =>
    rw [step_write hpc, publishes, hpc]
    exact ⟨⟨by simp, fun _ => rfl⟩, .silent _ (DoubleBuffer.write_read _)⟩
  | sensor k =>
    have hptr := h.ptr_eq (.inl ⟨k, hpc⟩)
    rw [publishes, hpc]
    cases hk : env.sensors[k]? with
    | none =>
      rw [step_sensor_end hpc hk]
      exact ⟨⟨by simp, fun _ => hptr⟩, .silent s.mem rfl⟩
    | some sensor =>
      cases sensor with
      | none =>
        rw [step_sensor_null hpc hk]
        exact ⟨⟨by simp, fun _ => hptr⟩, .silent s.mem rfl⟩
      | some read =>
        rw [step_sensor_read hpc hk]
        exact ⟨⟨by simp, fun _ => hptr⟩, modify _ hptr⟩
  | stamp =>
    have hptr := h.ptr_eq (.inr (.inl hpc))
    rw [step_stamp hpc, publishes, hpc]
    exact ⟨⟨by simp, fun _ => hptr⟩, modify _ hptr⟩
  | checksum =>
    have hptr := h.ptr_eq (.inr (.inr (.inl hpc)))
    rw [step_checksum hpc, publishes, hpc]
    exact ⟨⟨by simp, fun _ => hptr⟩, modify _ hptr⟩
  | commit =>
    rw [step_commit hpc, publishes, hpc]
    exact ⟨⟨by simp, by simp⟩, .commit⟩
  | count =>
    rw [publishes, hpc]
    by_cases hc : t.counter + 1 ≥ 2
    · rw [step_count_telemetry hpc hc]
      exact ⟨⟨by simp, by simp⟩, .silent s.mem rfl⟩
    · rw [step_count_staging hpc hc]
      exact ⟨⟨by simp, by simp⟩, .silent s.mem rfl⟩
  | telemetry =>
    rw [step_telemetry hpc, publishes, hpc]
    exact ⟨⟨by simp, by simp⟩, .publish _⟩
  | staging =>
    rw [step_staging hpc, publishes, hpc]
    exact ⟨⟨by simp, by simp⟩, .publish _⟩
  | delay => exact absurd hpc h.looping.1
  | returned => exact absurd hpc h.looping.2

end SensorTask

end CommonDrivers.Tasks
