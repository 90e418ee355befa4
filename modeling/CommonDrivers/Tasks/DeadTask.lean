import CommonDrivers.Tasks.System

/-! # Notifications to deleted tasks

The registry has no way to unsubscribe. The flash task deletes itself when it is told to shut down
and stays in the table, so from then on every publish that meets its mask notifies a dead task.
-/

namespace CommonDrivers.Tasks

open Flags

variable {F τ : Type} [DecidableEq τ]

namespace System

/-- The system before the flash task has run: only the flash task itself is not yet subscribed. -/
def boot (env : SensorEnv F) (d : DoubleBuffer (Sensors.Packet F)) (registry : Registry τ)
    (pending : τ → UInt32) (deleted : τ → Bool) : System F τ where
  sensor := SensorTask.start env
  flash := .subscribe
  shared := ⟨d, registry, ⟨pending, deleted, []⟩, []⟩

/-- The bits for which the flash task is subscribed once it runs. -/
def watched (registry : Registry τ) (handle : τ) : UInt32 :=
  registry.maskOf handle ||| (TaskEvent.FlashDisabled ||| TaskEvent.Telemetry)

/-- Once the flash task is deleted, the step publishes no word that it was subscribed for. -/
def QuietAfterDelete (registry : Registry τ) (handle : τ) (s : System F τ) (a : SystemAct) : Prop :=
  s.flash = .deleted → ∀ event, s.publishes a = some event → ¬ Meets (watched registry handle) event

/-- Every notification so far went to a task that was alive. -/
def AllAlive (kernel : Kernel τ) : Prop := ∀ n ∈ kernel.notifications, n.alive = true

/-- Only the flash task is ever deleted, and by then it has subscribed. -/
structure OnlyFlashDies (registry : Registry τ) (handle : τ) (pc : FlashPc F) (s : Shared F τ) :
    Prop where
  others : ∀ h event, h ≠ handle → h ∈ s.registry.targets event → s.kernel.deleted h = false
  deleted_iff : s.kernel.deleted handle = true ↔ pc = .deleted
  mask : ∀ event, Meets (s.registry.maskOf handle) event ↔
    Meets (registry.maskOf handle) event ∨
      (pc ≠ .subscribe ∧ pc ≠ .aborted ∧
        Meets (TaskEvent.FlashDisabled ||| TaskEvent.Telemetry) event)

theorem onlyFlashDies_effect {registry : Registry τ} {handle : τ} {pc : FlashPc F}
    {s s' : Shared F τ} {e : Option UInt32} (h : OnlyFlashDies registry handle pc s)
    (he : SensorTask.Effect s e s') : OnlyFlashDies registry handle pc s' := by
  cases he with
  | silent d hd => exact ⟨h.others, h.deleted_iff, h.mask⟩
  | commit => exact ⟨h.others, h.deleted_iff, h.mask⟩
  | publish event =>
    have hdeleted := Registry.publish_deleted s.registry event s.kernel
    refine ⟨fun h' event' hne hmem => ?_, ?_, h.mask⟩
    · exact (congrFun hdeleted h').trans (h.others h' event' hne hmem)
    · exact (iff_of_eq (congrArg (· = true) (congrFun hdeleted handle))).trans h.deleted_iff

/-- A step of the flash task that leaves the registry and the deleted tasks alone. -/
private theorem OnlyFlashDies.same {registry : Registry τ} {handle : τ} {pc pc' : FlashPc F}
    {s s' : Shared F τ} (h : OnlyFlashDies registry handle pc s)
    (hregistry : s'.registry = s.registry) (hdeleted : s'.kernel.deleted = s.kernel.deleted)
    (hpc : pc' = .deleted ↔ pc = .deleted)
    (hlive : pc ≠ .subscribe ∧ pc ≠ .aborted ↔ pc' ≠ .subscribe ∧ pc' ≠ .aborted) :
    OnlyFlashDies registry handle pc' s' where
  others h' event hne hmem := by
    rw [hregistry] at hmem
    rw [hdeleted]
    exact h.others h' event hne hmem
  deleted_iff := by rw [hdeleted, h.deleted_iff, hpc]
  mask event := by
    rw [hregistry, h.mask event, ← and_assoc, hlive, and_assoc]

theorem onlyFlashDies_flash {registry : Registry τ} {handle : τ} {pc : FlashPc F} {s : Shared F τ}
    (h : OnlyFlashDies registry handle pc s) :
    OnlyFlashDies registry handle (pc.step handle s).1 (pc.step handle s).2 := by
  cases pc with
  | subscribe =>
    cases hr : Registry.subscribe (some handle)
        (TaskEvent.FlashDisabled ||| TaskEvent.Telemetry) s.registry with
    | none =>
      rw [FlashPc.step_subscribe_full hr]
      exact h.same rfl rfl (by simp) (by simp)
    | some r =>
      obtain ⟨⟨⟩, r⟩ := r
      rw [FlashPc.step_subscribe hr]
      have hmask := fun event => Registry.subscribe_maskOf event hr
      refine ⟨fun h' event hne hmem => ?_, by simp [h.deleted_iff], fun event => ?_⟩
      · rw [Registry.mem_targets, hmask] at hmem
        rcases hmem with hmem | ⟨heq, -⟩
        · exact h.others h' event hne (Registry.mem_targets.mpr hmem)
        · exact absurd (Option.some.inj heq).symm hne
      · rw [hmask, h.mask event]
        simp
  | wait =>
    by_cases hp : s.kernel.pending handle = 0
    · rw [FlashPc.step_wait_blocked hp]
      exact h
    · rw [FlashPc.step_wait hp]
      exact h.same rfl rfl (by simp) (by simp)
  | telemetry event =>
    by_cases hm : Meets event TaskEvent.Telemetry
    · rw [FlashPc.step_telemetry hm]
      exact h.same rfl rfl (by simp) (by simp)
    · rw [FlashPc.step_no_telemetry hm]
      exact h.same rfl rfl (by simp) (by simp)
  | append event copy => exact h.same rfl rfl (by simp [FlashPc.step]) (by simp [FlashPc.step])
  | disabled event =>
    by_cases hm : Meets event TaskEvent.FlashDisabled
    · rw [FlashPc.step_disabled hm]
      exact h.same rfl rfl (by simp) (by simp)
    · rw [FlashPc.step_not_disabled hm]
      exact h.same rfl rfl (by simp) (by simp)
  | unmount => exact h.same rfl rfl (by simp [FlashPc.step]) (by simp [FlashPc.step])
  | delete =>
    refine ⟨fun h' event hne hmem => ?_, ?_, fun event => ?_⟩
    · exact (Function.update_of_ne hne ..).trans (h.others h' event hne hmem)
    · simp [FlashPc.step, Kernel.vTaskDelete, Shared.emit]
    · simpa [FlashPc.step, Shared.emit] using h.mask event
  | deleted => exact h
  | aborted => exact h

/-- A publish keeps all notifications alive exactly if it misses a deleted flash task. -/
theorem allAlive_publish {registry : Registry τ} {handle : τ} {pc : FlashPc F} {s : Shared F τ}
    (h : OnlyFlashDies registry handle pc s) (event : UInt32) :
    AllAlive (s.publish event).kernel ↔
      AllAlive s.kernel ∧ (pc = .deleted → ¬ Meets (watched registry handle) event) := by
  have hwatched : pc = .deleted →
      (handle ∈ s.registry.targets event ↔ Meets (watched registry handle) event) := by
    rintro rfl
    simp [Registry.mem_targets, h.mask, watched, or_meets]
  have hkernel : (s.publish event).kernel = s.registry.publish event s.kernel := rfl
  rw [AllAlive, AllAlive, hkernel, Registry.publish_notifications]
  simp only [List.forall_mem_append, List.forall_mem_map, Bool.not_eq_true']
  refine and_congr_right fun _ => ?_
  constructor
  · intro hall hpc hm
    have hdead := hall handle ((hwatched hpc).mpr hm)
    rw [h.deleted_iff.mpr hpc] at hdead
    cases hdead
  · intro hquiet h' hmem
    by_cases hne : h' = handle
    · subst hne
      by_contra hdead
      have hpc := h.deleted_iff.mp (by simpa using hdead)
      exact hquiet hpc ((hwatched hpc).mp hmem)
    · exact h.others h' event hne hmem

/-- A step of the flash task notifies nobody. -/
theorem flash_step_notifications (handle : τ) (pc : FlashPc F) (s : Shared F τ) :
    (pc.step handle s).2.kernel.notifications = s.kernel.notifications := by
  cases pc with
  | subscribe => rw [FlashPc.step]; split <;> rfl
  | wait =>
    by_cases hp : s.kernel.pending handle = 0
    · rw [FlashPc.step_wait_blocked hp]
    · rw [FlashPc.step_wait hp]
      rfl
  | telemetry event => rw [FlashPc.step]; split <;> rfl
  | disabled event => rw [FlashPc.step]; split <;> rfl
  | _ => rfl

/-- **In a run from a registry of live tasks every notification goes to a live task if and only if
nothing that the flash task watches is published after it has deleted itself.** -/
theorem run_allAlive_iff (env : SensorEnv F) (handle : τ) (d : DoubleBuffer (Sensors.Packet F))
    (registry : Registry τ) (pending : τ → UInt32) (deleted : τ → Bool)
    (hlive : ∀ s ∈ registry.subscribers.toList, ∀ h, s.handle = some h → deleted h = false)
    (hflash : deleted handle = false) (acts : List SystemAct) :
    AllAlive (run env handle (boot env d registry pending deleted) acts).shared.kernel ↔
      Run.Along (step env handle) (QuietAfterDelete registry handle)
        (boot env d registry pending deleted) acts := by
  have hstart : OnlyFlashDies registry handle (.subscribe : FlashPc F)
      (boot env d registry pending deleted).shared := by
    refine ⟨fun h event _ hmem => ?_, by simp [boot, hflash], by simp [boot]⟩
    obtain ⟨s, hs, hh, -⟩ := Registry.maskOf_meets.mp (Registry.mem_targets.mp hmem)
    exact hlive s hs h hh
  -- `OnlyFlashDies` says which publishes reach the deleted task, so each step is decided alone
  have hiff := Run.run_iff_along (step env handle)
    (I := fun s => s.Ready ∧ OnlyFlashDies registry handle s.flash s.shared)
    (Q := fun s => AllAlive s.shared.kernel) (P := QuietAfterDelete registry handle)
    (s := boot env d registry pending deleted) ?_ ?_
    ⟨SensorTask.ready_start env d, hstart⟩ acts
  · rw [run, hiff]
    exact and_iff_right (by simp [AllAlive, boot])
  · rintro s a ⟨hs, hI⟩
    exact run_invariant env handle (I := OnlyFlashDies registry handle)
      (fun _ _ _ _ => onlyFlashDies_effect) (fun _ _ => onlyFlashDies_flash) hs hI [a]
  · rintro s a ⟨hs, hI⟩
    obtain ⟨-, hcases⟩ := step_cases env handle hs a
    rcases hcases with ⟨-, he⟩ | ⟨ha, -, hshared⟩
    · generalize (step env handle s a).shared = s' at he
      rw [QuietAfterDelete]
      cases hp : s.publishes a with
      | none =>
        rw [hp] at he
        cases he <;> simp [Shared.commit, Shared.emit]
      | some event =>
        rw [hp] at he
        cases he
        rw [allAlive_publish hI]
        simp
    · rw [hshared, AllAlive, AllAlive, flash_step_notifications, QuietAfterDelete, ha]
      simp [publishes]

/-- Without a publish after the shutdown all is well. -/
theorem run_allAlive_shutdown :
    let env : SensorEnv UInt32 := ⟨[], 0, fun _ => 0, 1, 1000, fun _ => 0, id⟩
    let s := boot env (.initial (@Sensors.Packet.initial _ ⟨0⟩)) Registry.fresh (fun _ => 0)
      fun _ => false
    let acts := [.flash, .publish TaskEvent.FlashDisabled, .flash, .flash, .flash, .flash, .flash]
    AllAlive (run env () s acts).shared.kernel ↔
      Run.Along (step env ()) (QuietAfterDelete Registry.fresh ()) s acts :=
  run_allAlive_iff _ () _ _ _ _ (by simp [Registry.fresh]) rfl _

/-- A `Telemetry` event after the shutdown notifies the deleted flash task. -/
theorem run_notifies_deleted :
    let env : SensorEnv UInt32 := ⟨[], 0, fun _ => 0, 1, 1000, fun _ => 0, id⟩
    let s := boot env (.initial (@Sensors.Packet.initial _ ⟨0⟩)) Registry.fresh (fun _ => 0)
      fun _ => false
    ¬ AllAlive (run env () s [.flash, .publish TaskEvent.FlashDisabled, .flash, .flash, .flash,
      .flash, .flash, .publish TaskEvent.Telemetry]).shared.kernel := by
  intro env s h
  have hdead := h ⟨(), TaskEvent.Telemetry, false⟩ (by decide)
  cases hdead

end System

end CommonDrivers.Tasks
