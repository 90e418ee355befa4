import CommonDrivers.Tasks.System

/-! # Serving telemetry requests

A publish that contains `Telemetry` asks the flash task to save a packet. Notifications coalesce, so
several requests can share one append; the theorem below says what each of them is still promised.
-/

namespace CommonDrivers.Tasks

open Flags Sensors

variable {F τ : Type}

/-! ## Reading the log -/

namespace Event

/-- The call asks for telemetry. -/
def asks : Event F → Bool
  | .publish event => Meets event TaskEvent.Telemetry
  | _ => false

def isAppend : Event F → Bool
  | .append _ => true
  | _ => false

/-- The call is one of the flash task. -/
def isFlash : Event F → Bool
  | .take _ | .append _ | .close | .unmount | .delete => true
  | _ => false

end Event

/-- The packet that the last commit of a log published, `p` if there is none. -/
def front (p : Packet F) (log : List (Event F)) : Packet F :=
  log.foldl (fun p e => match e with
    | .commit q => q
    | _ => p) p

/-- After the latest request of the log `copy` was the front packet at some time. -/
def Fresh (p : Packet F) (log : List (Event F)) (copy : Packet F) : Prop :=
  ∀ pre e post, log = pre ++ e :: post → e.asks → (∀ x ∈ post, ¬ x.asks) →
    ∃ mid mid', post = mid ++ mid' ∧ copy = front p (pre ++ e :: mid)

/-- The latest request of the log was followed by an append of the packet that was the front one at
the request or at a later time. -/
def Served (p : Packet F) (log : List (Event F)) : Prop :=
  ∀ pre e post, log = pre ++ e :: post → e.asks → (∀ x ∈ post, ¬ x.asks) →
    ∃ mid mid' copy post', post = mid ++ (mid' ++ .append copy :: post') ∧
      copy = front p (pre ++ e :: mid)

section Log

variable {p copy : Packet F} {log : List (Event F)} {x : Event F}

/-- The latest request of an extended log is its last call or one of the log before. -/
private theorem append_singleton_eq {pre post : List (Event F)} {e : Event F}
    (h : log ++ [x] = pre ++ e :: post) :
    post = [] ∧ x = e ∨ ∃ post', post = post' ++ [x] ∧ log = pre ++ e :: post' := by
  rcases List.eq_nil_or_concat post with rfl | ⟨post', y, rfl⟩
  · exact .inl ⟨rfl, (List.append_inj' h rfl).2 |> fun h => (List.cons.inj h).1⟩
  · rw [List.concat_eq_append, ← List.cons_append, ← List.append_assoc] at h
    obtain ⟨hlog, hx⟩ := List.append_inj' h rfl
    exact .inr ⟨post', by rw [(List.cons.inj hx).1, List.concat_eq_append], hlog⟩

/-- The current front packet is fresh. -/
theorem fresh_front (p : Packet F) (log : List (Event F)) : Fresh p log (front p log) := by
  rintro pre e post rfl - -
  exact ⟨post, [], (List.append_nil post).symm, rfl⟩

/-- Freshness survives every call but a request. -/
theorem Fresh.emit (h : Fresh p log copy) (hx : ¬ x.asks) : Fresh p (log ++ [x]) copy := by
  intro pre e post heq he hpost
  rcases append_singleton_eq heq with ⟨-, rfl⟩ | ⟨post', rfl, hlog⟩
  · exact absurd he hx
  · obtain ⟨mid, mid', rfl, hcopy⟩ :=
      h pre e post' hlog he fun y hy => hpost y (List.mem_append_left _ hy)
    exact ⟨mid, mid' ++ [x], List.append_assoc .., hcopy⟩

theorem Served.emit (h : Served p log) (hx : ¬ x.asks) : Served p (log ++ [x]) := by
  intro pre e post heq he hpost
  rcases append_singleton_eq heq with ⟨-, rfl⟩ | ⟨post', rfl, hlog⟩
  · exact absurd he hx
  · obtain ⟨mid, mid', copy, rest, rfl, hcopy⟩ :=
      h pre e post' hlog he fun y hy => hpost y (List.mem_append_left _ hy)
    exact ⟨mid, mid', copy, rest ++ [x], by simp, hcopy⟩

/-- Appending a fresh packet serves the request. -/
theorem Fresh.served (h : Fresh p log copy) : Served p (log ++ [.append copy]) := by
  intro pre e post heq he hpost
  rcases append_singleton_eq heq with ⟨-, rfl⟩ | ⟨post', rfl, hlog⟩
  · cases he
  · obtain ⟨mid, mid', rfl, hcopy⟩ :=
      h pre e post' hlog he fun y hy => hpost y (List.mem_append_left _ hy)
    exact ⟨mid, mid', copy, [], List.append_assoc .., hcopy⟩

end Log

namespace System

/-- The flash task has subscribed and waits, with no bit pending, and the sensor task is in its
loop. -/
structure Listening (handle : τ) (s : System F τ) : Prop where
  ready : s.Ready
  flash : s.flash = .wait
  subscribed : ⟨some handle, TaskEvent.FlashDisabled ||| TaskEvent.Telemetry⟩ ∈
    s.shared.registry.subscribers.toList
  pending : s.shared.kernel.pending handle = 0
  log : s.shared.log = []

/-- What the flash task still owes the latest request when no further one is pending. -/
def Owes (p : Packet F) (log : List (Event F)) : FlashPc F → Prop
  | .telemetry event => ¬ Meets event TaskEvent.Telemetry → Served p log
  | .append _ copy => Fresh p log copy
  | _ => Served p log

/-- The appends that a word still calls for. -/
def due (event : UInt32) : ℕ := if Meets event TaskEvent.Telemetry then 1 else 0

/-- The appends that the flash task is bound to make with the word it has taken. -/
def inFlight : FlashPc F → ℕ
  | .telemetry event => due event
  | .append _ _ => 1
  | _ => 0

/-- The invariant of the requests: the flash task is subscribed to `Telemetry`, the latest request
is pending, in flight or served, and each append has had a request of its own. -/
structure Serving [DecidableEq τ] (p : Packet F) (handle : τ) (pc : FlashPc F) (s : Shared F τ) :
    Prop where
  subscribed : pc ≠ .subscribe
  watched : ∀ event, Meets event TaskEvent.Telemetry → Meets (s.registry.maskOf handle) event
  front_eq : s.mem.read = front p s.log
  owes : ¬ Meets (s.kernel.pending handle) TaskEvent.Telemetry → Owes p s.log pc
  count_le : s.log.countP Event.isAppend + inFlight pc + due (s.kernel.pending handle) ≤
    s.log.countP Event.asks

section Serving

variable [DecidableEq τ] {p : Packet F} {handle : τ} {pc : FlashPc F} {s s' : Shared F τ}
variable {log : List (Event F)}

/-- A call that is no request leaves the debt as it is. -/
theorem Owes.emit {x : Event F} (h : Owes p log pc) (hx : ¬ x.asks) : Owes p (log ++ [x]) pc := by
  cases pc with
  | telemetry event => exact fun hm => (h hm).emit hx
  | append event copy => exact Fresh.emit h hx
  | _ => exact Served.emit h hx

/-- A publish puts its word into the pending word if it asks for telemetry. -/
theorem Serving.pending_publish (h : Serving p handle pc s) (event : UInt32) :
    Meets ((s.registry.publish event s.kernel).pending handle) TaskEvent.Telemetry ↔
      Meets (s.kernel.pending handle) TaskEvent.Telemetry ∨ Meets event TaskEvent.Telemetry := by
  rw [Registry.publish_pending]
  by_cases hm : Meets (s.registry.maskOf handle) event
  · rw [if_pos hm, or_meets]
  · rw [if_neg hm]
    exact (or_iff_left fun hask => hm (h.watched event hask)).symm

theorem front_append (x : Event F) : front p (log ++ [x]) = front (front p log) [x] := by
  rw [front, front, List.foldl_append]
  rfl

theorem Serving.effect {e : Option UInt32} (h : Serving p handle pc s)
    (he : SensorTask.Effect s e s') : Serving p handle pc s' := by
  have hcount := h.count_le
  cases he with
  | silent d hd => exact ⟨h.subscribed, h.watched, hd.trans h.front_eq, h.owes, h.count_le⟩
  | commit =>
    refine ⟨h.subscribed, h.watched, ?_, fun hp => (h.owes hp).emit (by simp [Event.asks]), ?_⟩
    · -- the swap brings the staged packet to the front
      rw [Shared.commit_log, front_append]
      exact s.mem.commit_read_staged
    · simpa [Event.isAppend, Event.asks] using hcount
  | publish event =>
    have hpending := h.pending_publish event
    refine ⟨h.subscribed, h.watched, ?_, fun hp => ?_, ?_⟩
    · rw [Shared.publish_log, front_append, Shared.publish_mem, h.front_eq]
      rfl
    · rw [Shared.publish_kernel, hpending, not_or] at hp
      exact (h.owes hp.1).emit (by simpa [Event.asks] using hp.2)
    · -- requests that meet in one pending word are served by one append
      have hdue : due ((s.registry.publish event s.kernel).pending handle) ≤
          due (s.kernel.pending handle) + due event := by
        simp only [due, hpending]
        split <;> split <;> split <;> simp_all
      have hasks : [Event.publish event].countP (Event.asks (F := F)) = due event := by
        simp [Event.asks, due, List.countP_singleton]
      have happend : [Event.publish event].countP (Event.isAppend (F := F)) = 0 := rfl
      rw [Shared.publish_log, Shared.publish_kernel, List.countP_append, List.countP_append, hasks,
        happend]
      omega

theorem Serving.flash_step (h : Serving p handle pc s) :
    Serving p handle (pc.step handle s).1 (pc.step handle s).2 := by
  have hcount := h.count_le
  cases pc with
  | subscribe => exact absurd rfl h.subscribed
  | wait =>
    by_cases hp : s.kernel.pending handle = 0
    · rw [FlashPc.step_wait_blocked hp]
      exact h
    · rw [FlashPc.step_wait hp]
      refine ⟨by simp, h.watched, ?_, fun _ hm => ?_, ?_⟩
      · rw [Shared.emit_log, front_append]
        exact h.front_eq
      · -- without `Telemetry` in the word nothing was owed
        exact Served.emit (h.owes hm) (by simp [Event.asks])
      · simpa [inFlight, due, Event.isAppend, Event.asks, List.countP_append] using hcount
  | telemetry event =>
    by_cases hm : Meets event TaskEvent.Telemetry
    · rw [FlashPc.step_telemetry hm]
      refine ⟨by simp, h.watched, h.front_eq, fun _ => ?_, ?_⟩
      · rw [h.front_eq]
        exact fresh_front p s.log
      · simpa [inFlight, due, hm] using hcount
    · rw [FlashPc.step_no_telemetry hm]
      refine ⟨by simp, h.watched, h.front_eq, fun hp => h.owes hp hm, ?_⟩
      simpa [inFlight, due, hm] using hcount
  | append event copy =>
    refine ⟨by simp [FlashPc.step], h.watched, ?_, fun hp => Fresh.served (h.owes hp), ?_⟩
    · rw [FlashPc.step, Shared.emit_log, front_append]
      exact h.front_eq
    · simpa [FlashPc.step, inFlight, Event.isAppend, Event.asks] using hcount
  | disabled event =>
    by_cases hm : Meets event TaskEvent.FlashDisabled
    · rw [FlashPc.step_disabled hm]
      refine ⟨by simp, h.watched, ?_, fun hp => (h.owes hp).emit (by simp [Event.asks]), ?_⟩
      · rw [Shared.emit_log, front_append]
        exact h.front_eq
      · simpa [inFlight, Event.isAppend, Event.asks] using hcount
    · rw [FlashPc.step_not_disabled hm]
      exact ⟨by simp, h.watched, h.front_eq, h.owes, hcount⟩
  | unmount =>
    refine ⟨by simp [FlashPc.step], h.watched, ?_, fun hp => ?_, ?_⟩
    · rw [FlashPc.step, Shared.emit_log, front_append]
      exact h.front_eq
    · exact Served.emit (h.owes hp) (by simp [Event.asks])
    · simpa [FlashPc.step, inFlight, Event.isAppend, Event.asks] using hcount
  | delete =>
    refine ⟨by simp [FlashPc.step], h.watched, ?_, fun hp => ?_, ?_⟩
    · rw [FlashPc.step, Shared.emit_log, front_append]
      exact h.front_eq
    · exact Served.emit (h.owes hp) (by simp [Event.asks])
    · simpa [FlashPc.step, Kernel.vTaskDelete, inFlight, Event.isAppend, Event.asks] using hcount
  | deleted => exact h
  | aborted => exact h

end Serving

/-! ## Shutting down -/

/-- The append for a `Telemetry` bit of the word. -/
def saved (event : UInt32) (copy : Packet F) : List (Event F) :=
  if Meets event TaskEvent.Telemetry then [.append copy] else []

/-- The calls that a word with `FlashDisabled` leads to. -/
def shutdown (event : UInt32) (copy : Packet F) : List (Event F) :=
  saved event copy ++ [.close, .unmount, .delete]

/-- The calls that the flash task has made since it took `event`, at each point of the shutdown. -/
inductive Stage (event : UInt32) (copy : Packet F) : FlashPc F → List (Event F) → Prop
  | telemetry : Stage event copy (.telemetry event) []
  | append (h : Meets event TaskEvent.Telemetry) : Stage event copy (.append event copy) []
  | disabled : Stage event copy (.disabled event) (saved event copy)
  | unmount : Stage event copy .unmount (saved event copy ++ [.close])
  | delete : Stage event copy .delete (saved event copy ++ [.close, .unmount])
  | deleted : Stage event copy .deleted (shutdown event copy)

/-- Every word with `FlashDisabled` that the log says was taken has led to a stage of the
shutdown. -/
def ShuttingDown (pc : FlashPc F) (s : Shared F τ) : Prop :=
  ∀ pre event post, s.log = pre ++ .take event :: post → Meets event TaskEvent.FlashDisabled →
    ∃ copy, Stage event copy pc (post.filter Event.isFlash)

section Shutdown

variable {pc pc' : FlashPc F} {s s' : Shared F τ}

/-- A call of another task changes nothing. -/
theorem ShuttingDown.other {x : Event F} (h : ShuttingDown pc s) (hx : ¬ x.isFlash)
    (hlog : s'.log = s.log ++ [x]) : ShuttingDown pc s' := by
  intro pre event post heq hdis
  rcases append_singleton_eq (hlog ▸ heq) with ⟨-, rfl⟩ | ⟨post', rfl, hlog'⟩
  · exact absurd rfl hx
  · obtain ⟨copy, hstage⟩ := h pre event post' hlog' hdis
    exact ⟨copy, by simpa [List.filter_append, hx] using hstage⟩

/-- A call of the flash task other than `take` moves each stage on. -/
theorem ShuttingDown.move {x : Event F} (h : ShuttingDown pc s) (hx : x.isFlash)
    (htake : ∀ event, x ≠ .take event) (hlog : s'.log = s.log ++ [x])
    (hmove : ∀ event copy calls, Stage event copy pc calls →
      ∃ copy', Stage event copy' pc' (calls ++ [x])) :
    ShuttingDown pc' s' := by
  intro pre event post heq hdis
  rcases append_singleton_eq (hlog ▸ heq) with ⟨-, rfl⟩ | ⟨post', rfl, hlog'⟩
  · exact absurd rfl (htake event)
  · obtain ⟨copy, hstage⟩ := h pre event post' hlog' hdis
    obtain ⟨copy', hstage'⟩ := hmove event copy _ hstage
    exact ⟨copy', by simpa [List.filter_append, hx] using hstage'⟩

/-- So does a step without a call. -/
theorem ShuttingDown.silent (h : ShuttingDown pc s) (hlog : s'.log = s.log)
    (hmove : ∀ event copy calls, Meets event TaskEvent.FlashDisabled → Stage event copy pc calls →
      ∃ copy', Stage event copy' pc' calls) :
    ShuttingDown pc' s' := by
  intro pre event post heq hdis
  obtain ⟨copy, hstage⟩ := h pre event post (hlog ▸ heq) hdis
  exact hmove event copy _ hdis hstage

variable [DecidableEq τ] {handle : τ}

theorem ShuttingDown.effect {e : Option UInt32} (h : ShuttingDown pc s)
    (he : SensorTask.Effect s e s') : ShuttingDown pc s' := by
  cases he with
  | silent d hd => exact h
  | commit => exact h.other (by simp [Event.isFlash]) s.commit_log
  | publish event => exact h.other (by simp [Event.isFlash]) (s.publish_log event)

theorem ShuttingDown.flash_step (h : ShuttingDown pc s) :
    ShuttingDown (pc.step handle s).1 (pc.step handle s).2 := by
  cases pc with
  | subscribe =>
    cases hr : Registry.subscribe (some handle)
        (TaskEvent.FlashDisabled ||| TaskEvent.Telemetry) s.registry with
    | none =>
      rw [FlashPc.step_subscribe_full hr]
      exact h.silent rfl fun _ _ _ _ hstage => nomatch hstage
    | some r =>
      obtain ⟨⟨⟩, r⟩ := r
      rw [FlashPc.step_subscribe hr]
      exact h.silent rfl fun _ _ _ _ hstage => nomatch hstage
  | wait =>
    by_cases hp : s.kernel.pending handle = 0
    · rw [FlashPc.step_wait_blocked hp]
      exact h
    · rw [FlashPc.step_wait hp]
      intro pre event post heq hdis
      rcases append_singleton_eq heq with ⟨rfl, htake⟩ | ⟨post', rfl, hlog⟩
      · obtain rfl := Event.take.inj htake
        exact ⟨s.mem.read, .telemetry⟩
      · obtain ⟨copy, hstage⟩ := h pre event post' hlog hdis
        cases hstage
  | telemetry event =>
    by_cases hm : Meets event TaskEvent.Telemetry
    · rw [FlashPc.step_telemetry hm]
      refine h.silent rfl fun event' copy calls _ hstage => ?_
      cases hstage
      exact ⟨s.mem.read, .append hm⟩
    · rw [FlashPc.step_no_telemetry hm]
      refine h.silent rfl fun event' copy calls _ hstage => ?_
      cases hstage
      have hstage' : Stage event copy (.disabled event) (saved event copy) := .disabled
      rw [saved, if_neg hm] at hstage'
      exact ⟨copy, hstage'⟩
  | append event copy =>
    refine h.move (x := .append copy) rfl (by simp) rfl fun event' copy' calls hstage => ?_
    cases hstage with
    | append hm =>
      have hstage' : Stage event copy (.disabled event) (saved event copy) := .disabled
      rw [saved, if_pos hm] at hstage'
      exact ⟨copy, hstage'⟩
  | disabled event =>
    by_cases hm : Meets event TaskEvent.FlashDisabled
    · rw [FlashPc.step_disabled hm]
      refine h.move (x := .close) rfl (by simp) rfl fun event' copy calls hstage => ?_
      cases hstage
      exact ⟨copy, .unmount⟩
    · rw [FlashPc.step_not_disabled hm]
      refine h.silent rfl fun event' copy calls hdis hstage => ?_
      cases hstage
      exact absurd hdis hm
  | unmount =>
    refine h.move (x := .unmount) rfl (by simp) rfl fun event copy calls hstage => ?_
    cases hstage
    rw [List.append_assoc]
    exact ⟨copy, .delete⟩
  | delete =>
    refine h.move (x := .delete) rfl (by simp) rfl fun event copy calls hstage => ?_
    cases hstage
    rw [List.append_assoc]
    exact ⟨copy, .deleted⟩
  | deleted => exact h
  | aborted => exact h

end Shutdown

/-! ## Whole runs -/

variable [DecidableEq τ] {env : SensorEnv F} {handle : τ} {s : System F τ}

/-- Subscribing with no bit pending makes the flash task listen. -/
theorem listening_subscribe (hready : s.Ready) (hflash : s.flash = .subscribe)
    (hcount : s.shared.registry.count < 8) (hpending : s.shared.kernel.pending handle = 0)
    (hlog : s.shared.log = []) : (step env handle s .flash).Listening handle := by
  have hsub : Registry.subscribe (some handle) (TaskEvent.FlashDisabled ||| TaskEvent.Telemetry)
      s.shared.registry = some ((), _) := dif_pos hcount
  rw [step, hflash, FlashPc.step_subscribe hsub]
  refine ⟨hready, rfl, ?_, hpending, hlog⟩
  exact Vector.mem_toList_iff.mpr
    (Vector.mem_iff_getElem.mpr ⟨_, hcount, Vector.getElem_set_self hcount⟩)

theorem Listening.serving (h : s.Listening handle) :
    Serving s.shared.mem.read handle s.flash s.shared where
  subscribed := by simp [h.flash]
  watched event hm := Registry.maskOf_meets.mpr
    ⟨_, h.subscribed, rfl, or_meets.mpr (.inr (meets_comm.mp hm))⟩
  front_eq := by rw [h.log]; rfl
  owes _ := by
    rw [h.flash, h.log]
    intro pre e post heq
    cases pre <;> cases heq
  count_le := by simp [h.log, h.flash, h.pending, inFlight, due]

end System

end CommonDrivers.Tasks
