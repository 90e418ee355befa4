import CommonDrivers.Lib.Run
import CommonDrivers.Tasks.FlashTask

/-! # The running system

The sensor task, the flash task and any number of other tasks and interrupt handlers that publish
events, in any order. Every step of the system leaves the flash task alone or is one of its own, so
an invariant of a run needs one proof for each effect on the shared state and one for each step of
the flash task (`System.run_invariant`).
-/

namespace CommonDrivers.Tasks

open Flags Sensors

variable {F τ : Type} [DecidableEq τ]

structure System (F τ : Type) where
  sensor : SensorTask
  flash : FlashPc F
  shared : Shared F τ

/-- Who takes the next step: one of the two tasks, or another publisher. -/
inductive SystemAct
  | sensor
  | flash
  | publish (event : UInt32)
  | publishIsr (event : UInt32)
deriving DecidableEq, Repr

namespace System

variable (env : SensorEnv F) (handle : τ)

def step (s : System F τ) : SystemAct → System F τ
  | .sensor =>
    let r := s.sensor.step env s.shared
    { s with sensor := r.1, shared := r.2 }
  | .flash =>
    let r := s.flash.step handle s.shared
    { s with flash := r.1, shared := r.2 }
  | .publish event => { s with shared := s.shared.publish event }
  | .publishIsr event => { s with shared := s.shared.publishIsr event }

def run (s : System F τ) (acts : List SystemAct) : System F τ := Run.run (step env handle) s acts

/-- The event word that a step publishes. -/
def publishes (s : System F τ) : SystemAct → Option UInt32
  | .sensor => s.sensor.publishes
  | .flash => none
  | .publish event | .publishIsr event => some event

/-- The sensor task is in its loop. -/
def Ready (s : System F τ) : Prop := s.sensor.Ready s.shared.mem

variable {s : System F τ}

/-- The flash task does not touch the packet buffer. -/
theorem flash_step_mem (pc : FlashPc F) (s : Shared F τ) : (pc.step handle s).2.mem = s.mem := by
  cases pc with
  | subscribe => rw [FlashPc.step]; split <;> rfl
  | wait => rw [FlashPc.step]; split <;> rfl
  | telemetry event => rw [FlashPc.step]; split <;> rfl
  | disabled event => rw [FlashPc.step]; split <;> rfl
  | _ => rfl

/-- What a step of the system can be. -/
theorem step_cases (h : s.Ready) (a : SystemAct) :
    (step env handle s a).Ready ∧
    ((step env handle s a).flash = s.flash ∧
        SensorTask.Effect s.shared (s.publishes a) (step env handle s a).shared ∨
      a = .flash ∧ (step env handle s a).flash = (s.flash.step handle s.shared).1 ∧
        (step env handle s a).shared = (s.flash.step handle s.shared).2) := by
  cases a with
  | sensor =>
    obtain ⟨hready, heffect⟩ := SensorTask.step_effect env h
    exact ⟨hready, .inl ⟨rfl, heffect⟩⟩
  | flash =>
    refine ⟨?_, .inr ⟨rfl, rfl, rfl⟩⟩
    have hmem := flash_step_mem handle s.flash s.shared
    rw [Ready, step, hmem]
    exact h
  | publish event => exact ⟨h, .inl ⟨rfl, .publish event⟩⟩
  | publishIsr event => exact ⟨h, .inl ⟨rfl, .publish event⟩⟩

/-- A step that publishes has the effect of its publish, and none on the flash task. -/
theorem step_publishes (h : s.Ready) {a : SystemAct} {event : UInt32}
    (ha : s.publishes a = some event) :
    (step env handle s a).Ready ∧ (step env handle s a).flash = s.flash ∧
      SensorTask.Effect s.shared (some event) (step env handle s a).shared := by
  obtain ⟨hready, hcases⟩ := step_cases env handle h a
  rcases hcases with ⟨hflash, heffect⟩ | ⟨rfl, -, -⟩
  · exact ⟨hready, hflash, ha ▸ heffect⟩
  · cases ha

/-- What the effects of the publishers and the steps of the flash task preserve holds at the end of
a run. -/
theorem run_invariant {I : FlashPc F → Shared F τ → Prop}
    (heffect : ∀ pc s e s', I pc s → SensorTask.Effect s e s' → I pc s')
    (hflash : ∀ pc s, I pc s → I (pc.step handle s).1 (pc.step handle s).2)
    (hready : s.Ready) (h : I s.flash s.shared) (acts : List SystemAct) :
    (run env handle s acts).Ready ∧
      I (run env handle s acts).flash (run env handle s acts).shared := by
  refine Run.run_invariant (I := fun s : System F τ => s.Ready ∧ I s.flash s.shared) ?_
    ⟨hready, h⟩ acts
  rintro s a ⟨hs, hI⟩
  obtain ⟨hs', hcases⟩ := step_cases env handle hs a
  refine ⟨hs', ?_⟩
  rcases hcases with ⟨hpc, he⟩ | ⟨-, hpc, hshared⟩
  · rw [hpc]
    exact heffect _ _ _ _ hI he
  · rw [hpc, hshared]
    exact hflash _ _ hI

end System

end CommonDrivers.Tasks
