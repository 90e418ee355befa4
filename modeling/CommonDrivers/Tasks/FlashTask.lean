import CommonDrivers.Tasks.SensorTask

/-! # The flash task

`FlashTask::loop` of `include/tasks/flash_task.h` as a machine over the same shared state. One step
is one call of the buffer, the registry, the kernel or the flash. `append`, `close` and `unmount`
appear in the log only: the task ignores what they return.
-/

namespace CommonDrivers.Tasks

open Flags Sensors

variable {F τ : Type} [DecidableEq τ]

/-- The call that is next, with the locals `event` and `copy` where they are live. `aborted` is a
failed assertion in `subscribe`. -/
inductive FlashPc (F : Type)
  | subscribe
  | wait
  | telemetry (event : UInt32)
  | append (event : UInt32) (copy : Packet F)
  | disabled (event : UInt32)
  | unmount
  | delete
  | deleted
  | aborted

namespace FlashPc

/-- One step of the task that `handle` names. A task that waits with no bit pending is blocked. -/
def step (handle : τ) (pc : FlashPc F) (s : Shared F τ) : FlashPc F × Shared F τ :=
  match pc with
  | .subscribe =>
    match Registry.subscribe (some handle) (TaskEvent.FlashDisabled ||| TaskEvent.Telemetry)
      s.registry with
    | some ((), registry) => (.wait, { s with registry := registry })
    | none => (.aborted, s)
  | .wait =>
    match s.kernel.xTaskNotifyWait handle with
    | some (event, kernel) => (.telemetry event, { s with kernel := kernel }.emit (.take event))
    | none => (.wait, s)
  | .telemetry event =>
    if Meets event TaskEvent.Telemetry then (.append event s.mem.read, s) else (.disabled event, s)
  | .append event copy => (.disabled event, s.emit (.append copy))
  | .disabled event =>
    if Meets event TaskEvent.FlashDisabled then (.unmount, s.emit .close) else (.wait, s)
  | .unmount => (.delete, s.emit .unmount)
  | .delete => (.deleted, { s with kernel := s.kernel.vTaskDelete handle }.emit .delete)
  | .deleted => (.deleted, s)
  | .aborted => (.aborted, s)

section Steps

variable {handle : τ} {s : Shared F τ} {event : UInt32}

theorem step_subscribe {registry : Registry τ}
    (h : Registry.subscribe (some handle) (TaskEvent.FlashDisabled ||| TaskEvent.Telemetry)
      s.registry = some ((), registry)) :
    step handle .subscribe s = (.wait, { s with registry := registry }) := by
  simp only [step, h]

theorem step_subscribe_full
    (h : Registry.subscribe (some handle) (TaskEvent.FlashDisabled ||| TaskEvent.Telemetry)
      s.registry = none) :
    step handle .subscribe s = (.aborted, s) := by
  simp only [step, h]

theorem step_wait_blocked (h : s.kernel.pending handle = 0) :
    step handle .wait s = (.wait, s) := by
  simp only [step, Kernel.xTaskNotifyWait, if_pos h]

theorem step_wait (h : s.kernel.pending handle ≠ 0) :
    step handle .wait s =
      (.telemetry (s.kernel.pending handle),
        { s with
          kernel := { s.kernel with
            pending := Function.update s.kernel.pending handle 0 } }.emit
          (.take (s.kernel.pending handle))) := by
  simp only [step, Kernel.xTaskNotifyWait, if_neg h]

theorem step_telemetry (h : Meets event TaskEvent.Telemetry) :
    step handle (.telemetry event) s = (.append event s.mem.read, s) := if_pos h

theorem step_no_telemetry (h : ¬ Meets event TaskEvent.Telemetry) :
    step handle (.telemetry event) s = (.disabled event, s) := if_neg h

theorem step_disabled (h : Meets event TaskEvent.FlashDisabled) :
    step handle (.disabled event) s = (.unmount, s.emit .close) := if_pos h

theorem step_not_disabled (h : ¬ Meets event TaskEvent.FlashDisabled) :
    step handle (.disabled event) s = (.wait, s) := if_neg h

end Steps

end FlashPc

end CommonDrivers.Tasks
