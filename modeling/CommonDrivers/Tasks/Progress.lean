import CommonDrivers.Tasks.PacketFile

/-! # How long a request waits

The flash task never polls and never gives up: from any state in which it listens, a bounded number
of its own steps answers a request, however many steps the others take in between and whatever they
publish. A shutdown takes nine steps at most, a packet five.
-/

namespace CommonDrivers.Tasks

open Flags Sensors

variable {F τ : Type} [DecidableEq τ]

/-! ## Progress of the flash task -/

/-- What a publisher does only adds to the log. -/
theorem SensorTask.Effect.log_prefix {s s' : Shared F τ} {e : Option UInt32}
    (h : SensorTask.Effect s e s') : s.log <+: s'.log := by
  cases h with
  | silent d hd => exact List.prefix_rfl
  | commit => exact List.prefix_append ..
  | publish event => exact List.prefix_append ..

/-- So does a step of the flash task. -/
theorem FlashPc.step_log_prefix (handle : τ) (pc : FlashPc F) (s : Shared F τ) :
    s.log <+: (pc.step handle s).2.log := by
  cases pc with
  | subscribe => rw [step]; split <;> exact List.prefix_rfl
  | wait => rw [step]; split <;> first | exact List.prefix_rfl | exact List.prefix_append ..
  | telemetry event => rw [step]; split <;> exact List.prefix_rfl
  | disabled event =>
    rw [step]; split <;> first | exact List.prefix_rfl | exact List.prefix_append ..
  | deleted => exact List.prefix_rfl
  | aborted => exact List.prefix_rfl
  | _ => exact List.prefix_append ..

/-- A closed file stays closed. -/
theorem FlashPc.step_closed (handle : τ) {pc : FlashPc F} (h : pc.closed = true)
    (s : Shared F τ) : (pc.step handle s).1.closed = true := by
  cases pc with
  | unmount => rfl
  | delete => rfl
  | deleted => rfl
  | _ => cases h

/-- A word that is pending is pending until the flash task takes it. -/
theorem SensorTask.Effect.pending {s s' : Shared F τ} {e : Option UInt32}
    (h : SensorTask.Effect s e s') (handle : τ) {bits : UInt32}
    (hbits : Meets (s.kernel.pending handle) bits) : Meets (s'.kernel.pending handle) bits := by
  cases h with
  | silent d hd => exact hbits
  | commit => exact hbits
  | publish event =>
    rw [Shared.publish_kernel, Registry.publish_pending]
    split
    · exact or_meets.mpr (.inl hbits)
    · exact hbits

namespace System

variable {env : SensorEnv F} {handle : τ} {s : System F τ}

/-- What each step of the flash task brings nearer and no publisher undoes is reached within a
bounded number of steps of the flash task. -/
theorem run_flash_reaches {I : ℕ → FlashPc F → Shared F τ → Prop}
    {Q : FlashPc F → Shared F τ → Prop}
    (hdone : ∀ pc s e s', Q pc s → SensorTask.Effect s e s' → Q pc s')
    (hdone_flash : ∀ pc s, Q pc s → Q (pc.step handle s).1 (pc.step handle s).2)
    (hother : ∀ n pc s e s', I n pc s → SensorTask.Effect s e s' → I n pc s')
    (hflash : ∀ n pc s, I n pc s → Q (pc.step handle s).1 (pc.step handle s).2 ∨
      ∃ m, m < n ∧ I m (pc.step handle s).1 (pc.step handle s).2)
    (hready : s.Ready) {n : ℕ} (h : I n s.flash s.shared) {acts : List SystemAct}
    (hcount : n < acts.countP (· = .flash)) :
    Q (run env handle s acts).flash (run env handle s acts).shared := by
  suffices hreach : (Run.run (step env handle) s acts).Ready ∧
      Q (Run.run (step env handle) s acts).flash (Run.run (step env handle) s acts).shared from
    hreach.2
  refine Run.run_reaches (I := fun n (s : System F τ) => s.Ready ∧ I n s.flash s.shared)
    (Q := fun s : System F τ => s.Ready ∧ Q s.flash s.shared) ?_ ?_ ?_ ⟨hready, h⟩ hcount
  · rintro s a ⟨hs, hq⟩
    -- a step is that of a publisher or of the flash task
    obtain ⟨hs', hcases⟩ := step_cases env handle hs a
    refine ⟨hs', ?_⟩
    rcases hcases with ⟨hpc, he⟩ | ⟨-, hpc, hshared⟩
    · rw [hpc]
      exact hdone _ _ _ _ hq he
    · rw [hpc, hshared]
      exact hdone_flash _ _ hq
  · rintro n s a ⟨hs, hi⟩ ha
    obtain ⟨hs', hcases⟩ := step_cases env handle hs a
    refine ⟨hs', ?_⟩
    rcases hcases with ⟨hpc, he⟩ | ⟨hact, -, -⟩
    · rw [hpc]
      exact hother _ _ _ _ _ hi he
    · exact absurd hact (of_decide_eq_false ha)
  · rintro n s a ⟨hs, hi⟩ ha
    obtain rfl := of_decide_eq_true ha
    have hs' := (step_cases env handle hs .flash).1
    rcases hflash n s.flash s.shared hi with hq | ⟨m, hm, hnext⟩
    · exact .inl ⟨hs', hq⟩
    · exact .inr ⟨m, hm, hs', hnext⟩

end System

/-! ## The flash task keeps listening -/

/-- The flash task is subscribed and has not failed. -/
structure Subscribed (handle : τ) (pc : FlashPc F) (s : Shared F τ) : Prop where
  running : pc ≠ .subscribe ∧ pc ≠ .aborted
  watched : ∀ event,
    Meets (TaskEvent.FlashDisabled ||| TaskEvent.Telemetry) event →
      Meets (s.registry.maskOf handle) event

section Subscribed

variable {handle : τ} {pc : FlashPc F} {s s' : Shared F τ}

theorem Subscribed.effect {e : Option UInt32} (h : Subscribed handle pc s)
    (he : SensorTask.Effect s e s') : Subscribed handle pc s' := by
  cases he with
  | silent d hd => exact ⟨h.running, h.watched⟩
  | commit => exact ⟨h.running, h.watched⟩
  | publish event => exact ⟨h.running, h.watched⟩

theorem Subscribed.flash_step (h : Subscribed handle pc s) :
    Subscribed handle (pc.step handle s).1 (pc.step handle s).2 := by
  cases pc with
  | subscribe => exact absurd rfl h.running.1
  | wait =>
    by_cases hp : s.kernel.pending handle = 0
    · rw [FlashPc.step_wait_blocked hp]
      exact h
    · rw [FlashPc.step_wait hp]
      exact ⟨by simp, h.watched⟩
  | telemetry event =>
    by_cases hm : Meets event TaskEvent.Telemetry
    · rw [FlashPc.step_telemetry hm]
      exact ⟨by simp, h.watched⟩
    · rw [FlashPc.step_no_telemetry hm]
      exact ⟨by simp, h.watched⟩
  | disabled event =>
    by_cases hm : Meets event TaskEvent.FlashDisabled
    · rw [FlashPc.step_disabled hm]
      exact ⟨by simp, h.watched⟩
    · rw [FlashPc.step_not_disabled hm]
      exact ⟨by simp, h.watched⟩
  | append event copy => exact ⟨by simp [FlashPc.step], h.watched⟩
  | unmount => exact ⟨by simp [FlashPc.step], h.watched⟩
  | delete => exact ⟨by simp [FlashPc.step], h.watched⟩
  | deleted => exact h
  | aborted => exact absurd rfl h.running.2

/-- A publish that concerns the flash task, whoever makes it, is pending for it. -/
theorem Subscribed.publish (h : Subscribed handle pc s) {event bits : UInt32}
    (he : SensorTask.Effect s (some event) s')
    (hmask : Meets (TaskEvent.FlashDisabled ||| TaskEvent.Telemetry) event)
    (hbits : Meets event bits) : Meets (s'.kernel.pending handle) bits := by
  cases he with
  | publish =>
    rw [Shared.publish_kernel, Registry.publish_pending, if_pos (h.watched event hmask), or_meets]
    exact .inr hbits

end Subscribed

theorem System.Listening.subscribed_running {handle : τ} {s : System F τ} (h : s.Listening handle) :
    Subscribed handle s.flash s.shared where
  running := by simp [h.flash]
  watched _ hm := Registry.maskOf_meets.mpr ⟨_, h.subscribed, rfl, hm⟩

/-! ## Shutting down -/

/-- How many steps of the flash task a pending or taken `FlashDisabled` is at most from the end. -/
inductive Stopping (pending : UInt32) : ℕ → FlashPc F → Prop
  | delete : Stopping pending 0 .delete
  | unmount : Stopping pending 1 .unmount
  | disabled {event : UInt32} (h : Meets event TaskEvent.FlashDisabled) :
    Stopping pending 2 (.disabled event)
  | append {event : UInt32} {copy : Packet F} (h : Meets event TaskEvent.FlashDisabled) :
    Stopping pending 3 (.append event copy)
  | telemetry {event : UInt32} (h : Meets event TaskEvent.FlashDisabled) :
    Stopping pending 4 (.telemetry event)
  | wait (h : Meets pending TaskEvent.FlashDisabled) : Stopping pending 5 .wait
  | disabled_before {event : UInt32} (h : Meets pending TaskEvent.FlashDisabled) :
    Stopping pending 6 (.disabled event)
  | append_before {event : UInt32} {copy : Packet F} (h : Meets pending TaskEvent.FlashDisabled) :
    Stopping pending 7 (.append event copy)
  | telemetry_before {event : UInt32} (h : Meets pending TaskEvent.FlashDisabled) :
    Stopping pending 8 (.telemetry event)

section Stopping

variable {n : ℕ} {pc : FlashPc F}

/-- The word that is taken does not matter for the distance. -/
theorem Stopping.pending {pending pending' : UInt32} (h : Stopping pending n pc)
    (hbits : Meets pending TaskEvent.FlashDisabled → Meets pending' TaskEvent.FlashDisabled) :
    Stopping pending' n pc := by
  cases h with
  | delete => exact .delete
  | unmount => exact .unmount
  | disabled h => exact .disabled h
  | append h => exact .append h
  | telemetry h => exact .telemetry h
  | wait h => exact .wait (hbits h)
  | disabled_before h => exact .disabled_before (hbits h)
  | append_before h => exact .append_before (hbits h)
  | telemetry_before h => exact .telemetry_before (hbits h)

/-- Each step of the flash task comes nearer to the end. -/
theorem Stopping.flash_step {handle : τ} {s : Shared F τ}
    (h : Stopping (s.kernel.pending handle) n pc) :
    (pc.step handle s).1 = .deleted ∨
      ∃ m, m < n ∧
        Stopping ((pc.step handle s).2.kernel.pending handle) m (pc.step handle s).1 := by
  cases h with
  | delete => exact .inl rfl
  | unmount => exact .inr ⟨0, by decide, .delete⟩
  | disabled h =>
    rw [FlashPc.step_disabled h]
    exact .inr ⟨1, by decide, .unmount⟩
  | append h => exact .inr ⟨2, by decide, .disabled h⟩
  | @telemetry event h =>
    right
    by_cases hm : Meets event TaskEvent.Telemetry
    · rw [FlashPc.step_telemetry hm]
      exact ⟨3, by decide, .append h⟩
    · rw [FlashPc.step_no_telemetry hm]
      exact ⟨2, by decide, .disabled h⟩
  | wait h =>
    -- a pending word wakes the task, and it takes all its bits
    have hne : s.kernel.pending handle ≠ 0 := fun h0 => by simp [h0] at h
    rw [FlashPc.step_wait hne]
    exact .inr ⟨4, by decide, .telemetry h⟩
  | @disabled_before event h =>
    right
    by_cases hm : Meets event TaskEvent.FlashDisabled
    · rw [FlashPc.step_disabled hm]
      exact ⟨1, by decide, .unmount⟩
    · rw [FlashPc.step_not_disabled hm]
      exact ⟨5, by decide, .wait h⟩
  | append_before h => exact .inr ⟨6, by decide, .disabled_before h⟩
  | @telemetry_before event h =>
    right
    by_cases hm : Meets event TaskEvent.Telemetry
    · rw [FlashPc.step_telemetry hm]
      exact ⟨7, by decide, .append_before h⟩
    · rw [FlashPc.step_no_telemetry hm]
      exact ⟨6, by decide, .disabled_before h⟩

/-- A pending `FlashDisabled` is at most nine steps from the end, wherever the task is. -/
theorem Stopping.of_pending {pending : UInt32} (h : Meets pending TaskEvent.FlashDisabled)
    (pc : FlashPc F) (hsubscribed : pc ≠ .subscribe ∧ pc ≠ .aborted) :
    pc = .deleted ∨ ∃ n, n < 9 ∧ Stopping pending n pc := by
  cases pc with
  | subscribe => exact absurd rfl hsubscribed.1
  | wait => exact .inr ⟨5, by decide, .wait h⟩
  | telemetry event => exact .inr ⟨8, by decide, .telemetry_before h⟩
  | append event copy => exact .inr ⟨7, by decide, .append_before h⟩
  | disabled event => exact .inr ⟨6, by decide, .disabled_before h⟩
  | unmount => exact .inr ⟨1, by decide, .unmount⟩
  | delete => exact .inr ⟨0, by decide, .delete⟩
  | deleted => exact .inl rfl
  | aborted => exact absurd rfl hsubscribed.2

end Stopping

namespace System

variable {handle : τ} {s : System F τ}

omit [DecidableEq τ] in
theorem Listening.closesLast (h : s.Listening handle) : ClosesLast s.flash s.shared := by
  rw [ClosesLast, h.log, h.flash]
  rfl

/-- A run from a state in which the request is pending. -/
theorem run_stopping (env : SensorEnv F) (hready : s.Ready)
    (h : s.flash = .deleted ∨
      ∃ n, n < 9 ∧ Stopping (s.shared.kernel.pending handle) n s.flash) {acts : List SystemAct}
    (hcount : 9 ≤ acts.countP (· = .flash)) : (run env handle s acts).flash = .deleted := by
  have hdone : ∀ (pc : FlashPc F) (s : Shared F τ), pc = .deleted →
      (pc.step handle s).1 = .deleted := by
    rintro _ s rfl
    rfl
  rcases h with h | ⟨n, hn, h⟩
  · exact (run_invariant env handle (I := fun (pc : FlashPc F) _ => pc = .deleted)
      (fun _ _ _ _ h _ => h) hdone hready h acts).2
  · exact run_flash_reaches (I := fun n pc s => Stopping (s.kernel.pending handle) n pc)
      (Q := fun (pc : FlashPc F) _ => pc = .deleted) (fun _ _ _ _ h _ => h) hdone
      (fun _ _ _ _ _ h he => h.pending fun hbits => he.pending handle hbits)
      (fun _ _ _ h => h.flash_step) hready h (Nat.lt_of_lt_of_le hn hcount)

/-- **A request to shut down takes nine steps of the flash task at most**, whoever makes it,
whatever the flash task was doing then and whatever the others do from then on: by then it has
closed the packet file behind its last append and is deleted. -/
theorem run_stops (env : SensorEnv F) (h : s.Listening handle) (before : List SystemAct)
    {a : SystemAct} {event : UInt32} (ha : (run env handle s before).publishes a = some event)
    (hevent : Meets event TaskEvent.FlashDisabled) (after : List SystemAct)
    (hcount : 9 ≤ after.countP (· = .flash)) :
    let r := run env handle s (before ++ a :: after)
    r.flash = .deleted ∧
      r.shared.log.filter Event.isFile = (appendsIn r.shared.log).map .append ++ [.close] := by
  intro r
  obtain ⟨hready, hsubscribed⟩ := run_invariant env handle (I := Subscribed handle)
    (fun _ _ _ _ h he => h.effect he) (fun _ _ h => h.flash_step) h.ready h.subscribed_running
    before
  generalize hmid : run env handle s before = mid at ha hready hsubscribed
  have hr : r = run env handle (step env handle mid a) after := by
    rw [← hmid, run, run, Run.run, Run.run, ← List.foldl_cons, ← List.foldl_append]
    rfl
  obtain ⟨hready', hflash, heffect⟩ := step_publishes env handle hready ha
  have hdeleted : r.flash = .deleted := by
    have hpending := hsubscribed.publish heffect (or_meets.mpr (.inl (meets_comm.mp hevent))) hevent
    have hrunning : (step env handle mid a).flash ≠ .subscribe ∧
        (step env handle mid a).flash ≠ .aborted := hflash ▸ hsubscribed.running
    rw [hr]
    exact run_stopping env hready' (Stopping.of_pending hpending _ hrunning) hcount
  have hcloses : ClosesLast r.flash r.shared := (run_invariant env handle
    (fun _ _ _ _ h he => h.effect he) (fun _ _ h => h.flash_step) h.ready h.closesLast _).2
  rw [hdeleted] at hcloses
  exact ⟨hdeleted, hcloses⟩

/-- The request comes from an interrupt while the flash task is busy with a packet. -/
theorem run_stops_busy :
    let env : SensorEnv UInt32 := ⟨[], 0, fun _ => 0, 1, 1000, fun _ => 0, id⟩
    let boot : System UInt32 Unit := ⟨SensorTask.start env, .subscribe,
      ⟨.initial (@Packet.initial _ ⟨0⟩), Registry.fresh, ⟨fun _ => 0, fun _ => false, []⟩, []⟩⟩
    let s := step env () boot .flash
    (run env () s ([.publish TaskEvent.Telemetry, .flash] ++
      .publishIsr TaskEvent.FlashDisabled :: List.replicate 9 .flash)).flash = .deleted := by
  intro env boot s
  have hlisten : s.Listening () := listening_subscribe (SensorTask.ready_start env _) rfl
    (by decide) rfl rfl
  have hevent : Meets TaskEvent.FlashDisabled TaskEvent.FlashDisabled := by decide
  exact (run_stops env hlisten [.publish TaskEvent.Telemetry, .flash]
    (a := .publishIsr TaskEvent.FlashDisabled) rfl hevent (List.replicate 9 .flash) (by decide)).1

end System

/-! ## Saving a packet -/

/-- Behind the first calls of a log a packet has been appended that was the front packet then or
later. -/
def Saved (p : Packet F) (start log : List (Event F)) : Prop :=
  ∃ mid mid' copy rest, log = start ++ (mid ++ (mid' ++ .append copy :: rest)) ∧
    copy = front p (start ++ mid)

/-- The packet was the front packet at the end of the first calls of a log or later. -/
def Current (p : Packet F) (start log : List (Event F)) (copy : Packet F) : Prop :=
  ∃ mid mid', log = start ++ (mid ++ mid') ∧ copy = front p (start ++ mid)

/-- How many steps of the flash task a request that is pending, taken or copied is at most from its
append. -/
inductive Saving (p : Packet F) (start log : List (Event F)) (pending : UInt32) :
    ℕ → FlashPc F → Prop
  | append {event : UInt32} {copy : Packet F} (h : Current p start log copy) :
    Saving p start log pending 0 (.append event copy)
  | telemetry {event : UInt32} (h : Meets event TaskEvent.Telemetry) :
    Saving p start log pending 1 (.telemetry event)
  | wait (h : Meets pending TaskEvent.Telemetry) : Saving p start log pending 2 .wait
  | disabled {event : UInt32} (h : Meets pending TaskEvent.Telemetry) :
    Saving p start log pending 3 (.disabled event)
  | append_before {event : UInt32} {copy : Packet F} (h : Meets pending TaskEvent.Telemetry) :
    Saving p start log pending 4 (.append event copy)
  | telemetry_before {event : UInt32} (h : Meets pending TaskEvent.Telemetry) :
    Saving p start log pending 4 (.telemetry event)

section Saving

variable {p : Packet F} {start log : List (Event F)} {n : ℕ} {pc : FlashPc F}

theorem Saved.append (h : Saved p start log) (calls : List (Event F)) :
    Saved p start (log ++ calls) := by
  obtain ⟨mid, mid', copy, rest, rfl, hcopy⟩ := h
  exact ⟨mid, mid', copy, rest ++ calls, by simp, hcopy⟩

theorem Current.append {copy : Packet F} (h : Current p start log copy) (calls : List (Event F)) :
    Current p start (log ++ calls) copy := by
  obtain ⟨mid, mid', rfl, hcopy⟩ := h
  exact ⟨mid, mid' ++ calls, by simp, hcopy⟩

/-- Appending a current packet answers the request. -/
theorem Current.saved {copy : Packet F} (h : Current p start log copy) :
    Saved p start (log ++ [.append copy]) := by
  obtain ⟨mid, mid', rfl, hcopy⟩ := h
  exact ⟨mid, mid', copy, [], by simp, hcopy⟩

/-- The distance does not grow while others make calls and set bits. -/
theorem Saving.other {pending pending' : UInt32} (h : Saving p start log pending n pc)
    (calls : List (Event F))
    (hbits : Meets pending TaskEvent.Telemetry → Meets pending' TaskEvent.Telemetry) :
    Saving p start (log ++ calls) pending' n pc := by
  cases h with
  | append h => exact .append (h.append calls)
  | telemetry h => exact .telemetry h
  | wait h => exact .wait (hbits h)
  | disabled h => exact .disabled (hbits h)
  | append_before h => exact .append_before (hbits h)
  | telemetry_before h => exact .telemetry_before (hbits h)

theorem Saved.effect {s s' : Shared F τ} {e : Option UInt32} (h : Saved p start s.log)
    (he : SensorTask.Effect s e s') : Saved p start s'.log := by
  obtain ⟨calls, hlog⟩ := he.log_prefix
  rw [← hlog]
  exact h.append calls

theorem Saved.flash_step (handle : τ) (pc : FlashPc F) {s : Shared F τ} (h : Saved p start s.log) :
    Saved p start (pc.step handle s).2.log := by
  obtain ⟨calls, hlog⟩ := pc.step_log_prefix handle s
  rw [← hlog]
  exact h.append calls

theorem Saving.effect {handle : τ} {s s' : Shared F τ} {e : Option UInt32}
    (h : Saving p start s.log (s.kernel.pending handle) n pc) (he : SensorTask.Effect s e s') :
    Saving p start s'.log (s'.kernel.pending handle) n pc := by
  obtain ⟨calls, hlog⟩ := he.log_prefix
  rw [← hlog]
  exact h.other calls fun hbits => he.pending handle hbits

omit [DecidableEq τ] in
theorem current_front {s : Shared F τ} (hfront : s.mem.read = front p s.log)
    (hlog : start <+: s.log) : Current p start s.log s.mem.read := by
  obtain ⟨calls, hlog⟩ := hlog
  exact ⟨calls, [], by rw [List.append_nil, hlog], by rw [hfront, hlog]⟩

/-- Each step of the flash task comes nearer to the append, unless it closes the file. -/
theorem Saving.flash_step {handle : τ} {s : Shared F τ}
    (h : Saving p start s.log (s.kernel.pending handle) n pc)
    (hfront : Current p start s.log s.mem.read) :
    ((pc.step handle s).1.closed = true ∨ Saved p start (pc.step handle s).2.log) ∨
      ∃ m, m < n ∧ Saving p start (pc.step handle s).2.log
        ((pc.step handle s).2.kernel.pending handle) m (pc.step handle s).1 := by
  cases h with
  | append h => exact .inl (.inr h.saved)
  | telemetry h =>
    rw [FlashPc.step_telemetry h]
    exact .inr ⟨0, by decide, .append hfront⟩
  | wait h =>
    have hne : s.kernel.pending handle ≠ 0 := fun h0 => by simp [h0] at h
    rw [FlashPc.step_wait hne]
    exact .inr ⟨1, by decide, .telemetry h⟩
  | @disabled event h =>
    by_cases hm : Meets event TaskEvent.FlashDisabled
    · rw [FlashPc.step_disabled hm]
      exact .inl (.inl rfl)
    · rw [FlashPc.step_not_disabled hm]
      exact .inr ⟨2, by decide, .wait h⟩
  | append_before h => exact .inr ⟨3, by decide, .disabled h⟩
  | @telemetry_before event h =>
    right
    by_cases hm : Meets event TaskEvent.Telemetry
    · rw [FlashPc.step_telemetry hm]
      exact ⟨0, by decide, .append hfront⟩
    · rw [FlashPc.step_no_telemetry hm]
      exact ⟨3, by decide, .disabled h⟩

/-- A pending request is at most five steps from its append, wherever the task is. -/
theorem Saving.of_pending {pending : UInt32} (h : Meets pending TaskEvent.Telemetry)
    (pc : FlashPc F) (hrunning : pc ≠ .subscribe ∧ pc ≠ .aborted) :
    pc.closed = true ∨ ∃ n, n < 5 ∧ Saving p start log pending n pc := by
  cases pc with
  | subscribe => exact absurd rfl hrunning.1
  | wait => exact .inr ⟨2, by decide, .wait h⟩
  | telemetry event => exact .inr ⟨4, by decide, .telemetry_before h⟩
  | append event copy => exact .inr ⟨4, by decide, .append_before h⟩
  | disabled event => exact .inr ⟨3, by decide, .disabled h⟩
  | unmount => exact .inl rfl
  | delete => exact .inl rfl
  | deleted => exact .inl rfl
  | aborted => exact absurd rfl hrunning.2

end Saving

namespace System

variable {handle : τ} {s : System F τ}

/-- **A request for telemetry takes five steps of the flash task at most**, whoever makes it and
whatever the others do in between: by then a packet that was the front packet at the request or
later has been appended, or the flash task has closed the file because it was told to shut down. -/
theorem run_saves (env : SensorEnv F) (h : s.Listening handle) (before : List SystemAct)
    {a : SystemAct} {event : UInt32} (ha : (run env handle s before).publishes a = some event)
    (hevent : Meets event TaskEvent.Telemetry) (after : List SystemAct)
    (hcount : 5 ≤ after.countP (· = .flash)) :
    let mid := run env handle s (before ++ [a])
    let r := run env handle mid after
    r.flash.closed = true ∨ Saved s.shared.mem.read mid.shared.log r.shared.log := by
  intro mid r
  have hlisten := run_invariant env handle
    (I := fun pc shared => Subscribed handle pc shared ∧ Serving s.shared.mem.read handle pc shared)
    (fun _ _ _ _ h he => ⟨h.1.effect he, h.2.effect he⟩)
    (fun _ _ h => ⟨h.1.flash_step, h.2.flash_step⟩) h.ready ⟨h.subscribed_running, h.serving⟩
  obtain ⟨hbefore, hsubscribed, -⟩ := hlisten before
  obtain ⟨hready, -, hserving⟩ := hlisten (before ++ [a])
  have hmid : mid = step env handle (run env handle s before) a := List.foldl_concat ..
  obtain ⟨-, hflash, heffect⟩ := step_publishes env handle hbefore ha
  have hpending : Meets (mid.shared.kernel.pending handle) TaskEvent.Telemetry := by
    rw [hmid]
    exact hsubscribed.publish heffect (or_meets.mpr (.inr (meets_comm.mp hevent))) hevent
  have hrunning : mid.flash ≠ .subscribe ∧ mid.flash ≠ .aborted := by
    rw [hmid, hflash]
    exact hsubscribed.running
  rcases Saving.of_pending hpending mid.flash hrunning with hclosed | ⟨n, hn, hsaving⟩
  -- the request came behind a shutdown, or the distance to its append is at most four
  · exact .inl (run_invariant env handle (I := fun (pc : FlashPc F) _ => pc.closed = true)
      (fun _ _ _ _ h _ => h) (fun _ _ h => FlashPc.step_closed handle h _) hready hclosed after).2
  · refine run_flash_reaches
      (I := fun n pc shared => Serving s.shared.mem.read handle pc shared ∧
        mid.shared.log <+: shared.log ∧
        Saving s.shared.mem.read mid.shared.log shared.log (shared.kernel.pending handle) n pc)
      (Q := fun pc shared =>
        pc.closed = true ∨ Saved s.shared.mem.read mid.shared.log shared.log)
      ?_ ?_ ?_ ?_ hready ⟨hserving, List.prefix_rfl, hsaving⟩ (Nat.lt_of_lt_of_le hn hcount)
    · intro pc s e s' h he
      exact h.imp_right fun h => h.effect he
    · intro pc shared h
      exact h.imp (fun h => FlashPc.step_closed handle h shared) fun h => h.flash_step handle pc
    · rintro n pc s e s' ⟨hserving, hgrows, hsaving⟩ he
      exact ⟨hserving.effect he, hgrows.trans he.log_prefix, hsaving.effect he⟩
    · rintro n pc shared ⟨hserving, hgrows, hsaving⟩
      have hfront := current_front hserving.front_eq hgrows
      refine (hsaving.flash_step hfront).imp_right ?_
      rintro ⟨m, hm, hnext⟩
      exact ⟨m, hm, hserving.flash_step, hgrows.trans (pc.step_log_prefix handle shared), hnext⟩

/-- The request of the sensor task itself, at the end of its second round. -/
theorem run_saves_sensor :
    let env : SensorEnv UInt32 := ⟨[], 0, UInt32.ofNat, 1, 1000, fun _ => 0, id⟩
    let boot : System UInt32 Unit := ⟨SensorTask.start env, .subscribe,
      ⟨.initial (@Packet.initial _ ⟨0⟩), Registry.fresh, ⟨fun _ => 0, fun _ => false, []⟩, []⟩⟩
    let s := step env () boot .flash
    let mid := run env () s (List.replicate 13 .sensor ++ [.sensor])
    let r := run env () mid (List.replicate 5 .flash)
    r.flash.closed = true ∨ Saved s.shared.mem.read mid.shared.log r.shared.log := by
  intro env boot s mid r
  have hlisten : s.Listening () := listening_subscribe (SensorTask.ready_start env _) rfl
    (by decide) rfl rfl
  have ha : (run env () s (List.replicate 13 .sensor)).publishes .sensor =
      some TaskEvent.Telemetry := by
    simp only [s, boot, env]
    rfl
  have hevent : Meets TaskEvent.Telemetry TaskEvent.Telemetry := by decide
  exact run_saves env hlisten (List.replicate 13 .sensor) ha hevent (List.replicate 5 .flash)
    (by decide)

end System

end CommonDrivers.Tasks
