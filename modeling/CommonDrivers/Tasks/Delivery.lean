import CommonDrivers.Tasks.Registry

/-! # Delivery of events

The calls of a whole program to a `Registry`, from its start-up on: tasks subscribe, in any order
and as often as they like, and events are published by tasks and interrupt handlers in between. What
a task finds in its pending word is stated over the history of the calls alone, without the table.
-/

namespace CommonDrivers.Tasks

open Flags Registry

variable {τ : Type} [DecidableEq τ]

/-- A call of a member function of `Registry`. -/
inductive RegistryCall (τ : Type)
  | subscribe (handle : τ) (mask : UInt32)
  | publish (event : UInt32)
  | publishIsr (event : UInt32)

namespace RegistryCall

/-- Takes one call. -/
def step (s : Registry τ × Kernel τ) : RegistryCall τ → Option (Registry τ × Kernel τ)
  | subscribe handle mask => (Registry.subscribe (some handle) mask s.1).map fun p => (p.2, s.2)
  | publish event => some (s.1, s.1.publish event s.2)
  | publishIsr event => some (s.1, s.1.publishIsr event s.2)

/-- Takes the calls in order. -/
def runCalls (s : Registry τ × Kernel τ) (calls : List (RegistryCall τ)) :
    Option (Registry τ × Kernel τ) :=
  calls.foldlM step s

/-! ## The history of the calls -/

/-- The call subscribes a task. -/
def IsSubscribe : RegistryCall τ → Prop
  | subscribe .. => True
  | _ => False

instance : DecidablePred (IsSubscribe : RegistryCall τ → Prop)
  | subscribe .. => .isTrue trivial
  | publish _ => .isFalse id
  | publishIsr _ => .isFalse id

/-- The event that a call publishes. -/
def event : RegistryCall τ → Option UInt32
  | subscribe .. => none
  | publish event => some event
  | publishIsr event => some event

/-- The mask under which a call subscribes a task. -/
def maskFor (h : τ) : RegistryCall τ → Option UInt32
  | subscribe handle mask => if handle = h then some mask else none
  | _ => none

/-- The task that a call has subscribed to an event. -/
def wakes (event : UInt32) : RegistryCall τ → Option τ
  | subscribe handle mask => if Meets mask event then some handle else none
  | _ => none

/-- The call with `publish` in place of `publish_isr`. -/
def offIsr : RegistryCall τ → RegistryCall τ
  | publishIsr event => publish event
  | call => call

/-- The union of the masks under which calls subscribe a task. -/
def masks (h : τ) (calls : List (RegistryCall τ)) : UInt32 := union (calls.filterMap (maskFor h))

/-- The events that calls publish, each with the history before it. -/
def published (before : List (RegistryCall τ)) :
    List (RegistryCall τ) → List (List (RegistryCall τ) × UInt32)
  | [] => []
  | call :: calls => call.event.toList.map (before, ·) ++ published (before ++ [call]) calls

/-- The union of the published events that meet the masks of a task at that time. -/
def received (h : τ) (before calls : List (RegistryCall τ)) : UInt32 :=
  union (((published before calls).filter fun p => Meets (masks h p.1) p.2).map (·.2))

/-- The notifications that calls make: one for each subscription to each event, if it was made
before the event is published. -/
def notified (k : Kernel τ) (before calls : List (RegistryCall τ)) : List (Notification τ) :=
  (published before calls).flatMap fun p =>
    (p.1.filterMap (wakes p.2)).map fun h => ⟨h, p.2, !k.deleted h⟩

section History

variable (before calls calls' : List (RegistryCall τ))

omit [DecidableEq τ] in
theorem published_append :
    published before (calls ++ calls') =
      published before calls ++ published (before ++ calls) calls' := by
  induction calls generalizing before with
  | nil => rw [List.append_nil]; rfl
  | cons call calls ih =>
    simp only [List.cons_append, published, ih, List.append_assoc, List.nil_append]

theorem received_append (h : τ) :
    received h before (calls ++ calls') =
      received h before calls ||| received h (before ++ calls) calls' := by
  rw [received, published_append, List.filter_append, List.map_append, union_append]
  rfl

omit [DecidableEq τ] in
theorem notified_append (k : Kernel τ) :
    notified k before (calls ++ calls') =
      notified k before calls ++ notified k (before ++ calls) calls' := by
  rw [notified, published_append, List.flatMap_append]
  rfl

theorem masks_append (h : τ) : masks h (calls ++ calls') = masks h calls ||| masks h calls' := by
  rw [masks, List.filterMap_append, union_append]
  rfl

end History

/-- Subscribe calls deliver nothing. -/
theorem received_subscribes {subs : List (RegistryCall τ)}
    (hsubs : ∀ call ∈ subs, call.IsSubscribe) (h : τ) (before : List (RegistryCall τ)) :
    received h before subs = 0 := by
  suffices hpub : published before subs = [] by rw [received, hpub]; rfl
  induction subs generalizing before with
  | nil => rfl
  | cons call subs ih =>
    have hcall : call.IsSubscribe := hsubs call List.mem_cons_self
    cases call with
    | subscribe handle mask => exact ih (fun c hc => hsubs c (List.mem_cons_of_mem _ hc)) _
    | publish event => exact hcall.elim
    | publishIsr event => exact hcall.elim

/-- A call that publishes delivers its event, if the masks meet it. -/
theorem received_event {call : RegistryCall τ} {e : UInt32} (hcall : call.event = some e) (h : τ)
    (before : List (RegistryCall τ)) :
    received h before [call] = if Meets (masks h before) e then e else 0 := by
  rw [received, published, hcall]
  by_cases hm : Meets (masks h before) e
  · simp [published, hm, union]
  · simp [published, hm, union]

/-- Of the history, what is received depends on the masks only. -/
theorem received_congr {h : τ} {before before' : List (RegistryCall τ)}
    (hmasks : masks h before = masks h before') (calls : List (RegistryCall τ)) :
    received h before calls = received h before' calls := by
  induction calls generalizing before before' with
  | nil => rfl
  | cons call calls ih =>
    have hone : received h before [call] = received h before' [call] := by
      cases hcall : call.event with
      | none => simp [received, published, hcall]
      | some e => rw [received_event hcall, received_event hcall, hmasks]
    have hrest : masks h (before ++ [call]) = masks h (before' ++ [call]) := by
      rw [masks_append, masks_append, hmasks]
    rw [← List.singleton_append, received_append, received_append, hone, ih hrest]

/-- **The order of subscribe calls in a row does not matter.** -/
theorem received_perm {subs subs' : List (RegistryCall τ)}
    (hsubs : ∀ call ∈ subs, call.IsSubscribe) (hperm : subs.Perm subs') (h : τ)
    (before after : List (RegistryCall τ)) :
    received h [] (before ++ subs ++ after) = received h [] (before ++ subs' ++ after) := by
  have hsubs' : ∀ call ∈ subs', call.IsSubscribe :=
    fun call hc => hsubs call (hperm.mem_iff.mpr hc)
  have hmasks : masks h (before ++ subs) = masks h (before ++ subs') := by
    rw [masks_append, masks_append]
    exact congrArg (masks h before ||| ·) (union_perm (hperm.filterMap _))
  simp only [received_append, received_subscribes hsubs, received_subscribes hsubs',
    List.nil_append, received_congr hmasks]

/-! ## The table holds the history -/

/-- The entry that a call makes in the table. -/
def entry : RegistryCall τ → Option (Subscriber τ)
  | subscribe handle mask => some ⟨some handle, mask⟩
  | _ => none

/-- The entries in use are those of the subscribe calls, in their order. -/
structure Holds (before : List (RegistryCall τ)) (r : Registry τ) : Prop where
  used : r.used = before.filterMap entry
  count : r.count = before.countP (fun call => IsSubscribe call)

namespace Holds

omit [DecidableEq τ] in
theorem fresh : Holds [] (fresh : Registry τ) := ⟨rfl, rfl⟩

variable {before : List (RegistryCall τ)} {r : Registry τ} (hr : Holds before r)
include hr

omit [DecidableEq τ] in
/-- A publish notifies the tasks with an earlier subscription to the event. -/
theorem targets_eq (event : UInt32) : r.targets event = before.filterMap (wakes event) := by
  rw [Registry.targets_eq, hr.used, List.filterMap_filterMap]
  congr 1
  funext call
  cases call <;> rfl

/-- The table has the masks of a task. -/
theorem maskOf_eq (h : τ) : r.maskOf h = masks h before := by
  rw [Registry.maskOf_eq, hr.used, masks]
  clear hr
  congr 1
  induction before with
  | nil => rfl
  | cons call before ih =>
    cases call with
    | subscribe handle mask =>
      by_cases hh : handle = h
      · simpa [entry, maskFor, hh] using ih
      · simpa [entry, maskFor, hh] using ih
    | publish event => exact ih
    | publishIsr event => exact ih

/-- What one publish does, over the history. -/
theorem publish (event : UInt32) (k : Kernel τ) :
    (∀ h, (r.publish event k).pending h =
      k.pending h ||| received h before [RegistryCall.publish event]) ∧
    (r.publish event k).notifications =
      k.notifications ++ notified k before [RegistryCall.publish event] := by
  constructor
  · intro h
    rw [publish_pending, hr.maskOf_eq, received_event rfl]
    split
    · rfl
    · exact (UInt32.or_zero).symm
  · rw [publish_notifications, hr.targets_eq, notified]
    simp [published, RegistryCall.event]

omit [DecidableEq τ] in
/-- The other calls make no entry. -/
theorem skip {call : RegistryCall τ} (hentry : call.entry = none) (hcall : ¬ call.IsSubscribe) :
    Holds (before ++ [call]) r where
  used := by simpa [List.filterMap_cons, hentry] using hr.used
  count := by simpa [hcall] using hr.count

end Holds

/-- **One call**: it returns if a subscribe call finds room, and delivers its event. -/
theorem step_delivers {before : List (RegistryCall τ)} {call : RegistryCall τ} {r : Registry τ}
    (hr : Holds before r) (k : Kernel τ)
    (hroom : (before ++ [call]).countP (fun call => IsSubscribe call) ≤ 8) :
    ∃ r' k', step (r, k) call = some (r', k') ∧ Holds (before ++ [call]) r' ∧
      k'.deleted = k.deleted ∧
      (∀ h, k'.pending h = k.pending h ||| received h before [call]) ∧
      k'.notifications = k.notifications ++ notified k before [call] := by
  cases call with
  | subscribe handle mask =>
    have hcount : r.count < 8 := by
      rw [hr.count]
      rw [List.countP_append] at hroom
      exact hroom
    obtain ⟨r', hr', hcount', hused⟩ := subscribe_used hcount (some handle) mask
    refine ⟨r', k, by rw [step, hr']; rfl, ⟨?_, ?_⟩, rfl, fun h => ?_, ?_⟩
    · rw [hused, hr.used, List.filterMap_append]
      rfl
    · rw [hcount', hr.count, List.countP_append]
      rfl
    · exact (UInt32.or_zero).symm
    · exact (List.append_nil _).symm
  | publish event =>
    obtain ⟨hpending, hnotified⟩ := hr.publish event k
    exact ⟨r, _, rfl, hr.skip rfl id, publish_deleted r event k, hpending, hnotified⟩
  | publishIsr event =>
    obtain ⟨hpending, hnotified⟩ := hr.publish event k
    exact ⟨r, _, rfl, hr.skip rfl id, publish_deleted r event k, hpending, hnotified⟩

/-- **A run of calls**, after a history that the table holds. -/
theorem runCalls_delivers {before : List (RegistryCall τ)} {calls : List (RegistryCall τ)}
    {r : Registry τ} (hr : Holds before r) (k : Kernel τ)
    (hroom : (before ++ calls).countP (fun call => IsSubscribe call) ≤ 8) :
    ∃ r' k', runCalls (r, k) calls = some (r', k') ∧ Holds (before ++ calls) r' ∧
      k'.deleted = k.deleted ∧
      (∀ h, k'.pending h = k.pending h ||| received h before calls) ∧
      k'.notifications = k.notifications ++ notified k before calls := by
  induction calls generalizing before r k with
  | nil =>
    refine ⟨r, k, rfl, by rwa [List.append_nil], rfl, fun h => ?_, ?_⟩
    · exact (UInt32.or_zero).symm
    · exact (List.append_nil _).symm
  | cons call calls ih =>
    have hcons : call :: calls = [call] ++ calls := rfl
    rw [hcons, ← List.append_assoc] at hroom
    have hfirst := le_trans (List.countP_append ▸ Nat.le_add_right _ _) hroom
    obtain ⟨r₁, k₁, hstep, hr₁, hdel₁, hpend₁, hnot₁⟩ := step_delivers hr k hfirst
    obtain ⟨r₂, k₂, hrun, hr₂, hdel₂, hpend₂, hnot₂⟩ := ih hr₁ k₁ hroom
    refine ⟨r₂, k₂, ?_, ?_, hdel₂.trans hdel₁, fun h => ?_, ?_⟩
    · rw [runCalls, List.foldlM_cons, hstep]
      exact hrun
    · rwa [hcons, ← List.append_assoc]
    · rw [hpend₂, hpend₁, hcons, received_append, UInt32.or_assoc]
    · have hsame : notified k₁ = notified k := by
        funext before calls
        rw [notified, hdel₁]
        rfl
      rw [hnot₂, hnot₁, hcons, notified_append, hsame, List.append_assoc]

/-! ## The two ways to publish -/

/-- `publish_isr` does what `publish` does. -/
theorem step_offIsr (s : Registry τ × Kernel τ) (call : RegistryCall τ) :
    step s call.offIsr = step s call := by
  cases call with
  | subscribe handle mask => rfl
  | publish event => rfl
  | publishIsr event => rw [offIsr, step, step, publishIsr_eq]

theorem runCalls_offIsr (s : Registry τ × Kernel τ) (calls : List (RegistryCall τ)) :
    runCalls s (calls.map offIsr) = runCalls s calls := by
  rw [runCalls, List.foldlM_map]
  simp only [step_offIsr]
  rfl

/-! ## Delivery -/

omit [DecidableEq τ] in
/-- What precedes a published event is part of the history. -/
theorem mem_of_mem_published {before calls : List (RegistryCall τ)}
    {p : List (RegistryCall τ) × UInt32} (hp : p ∈ published before calls) {call : RegistryCall τ}
    (hcall : call ∈ p.1) : call ∈ before ++ calls := by
  induction calls generalizing before with
  | nil => cases hp
  | cons first calls ih =>
    rcases List.mem_append.mp hp with hp | hp
    · obtain ⟨event, -, rfl⟩ := List.mem_map.mp hp
      exact List.mem_append_left _ hcall
    · have hmem := ih hp
      rwa [List.append_assoc] at hmem

omit [DecidableEq τ] in
/-- Only tasks with a subscription to an event are notified of it. -/
theorem subscribed_of_notified {k : Kernel τ} {calls : List (RegistryCall τ)}
    {n : Notification τ} (hn : n ∈ notified k [] calls) :
    ∃ mask, Meets mask n.event ∧ subscribe n.handle mask ∈ calls := by
  obtain ⟨p, hp, hn⟩ := List.mem_flatMap.mp hn
  obtain ⟨h, hh, rfl⟩ := List.mem_map.mp hn
  obtain ⟨call, hcall, hwakes⟩ := List.mem_filterMap.mp hh
  have hmem := mem_of_mem_published hp hcall
  cases call with
  | subscribe handle mask =>
    obtain ⟨hm, hhandle⟩ := Option.ite_none_right_eq_some.mp hwakes
    obtain rfl := Option.some.inj hhandle
    exact ⟨mask, hm, hmem⟩
  | publish event => cases hwakes
  | publishIsr event => cases hwakes

/-- **Registry delivery.** From a fresh registry, calls in any order with at most eight subscribe
calls among them return. The pending word of a task gains the events that meet the masks it has been
subscribed under at that time, and there is one notification for each subscription that an event
meets and no other, so that no empty entry and no task without a subscription is notified. With
`publish_isr` for `publish` anywhere, and with subscribe calls in a row in another order, the
pending words are the same. Each subscribe call writes an entry of the table. -/
theorem fresh_delivers (k₀ : Kernel τ) (calls : List (RegistryCall τ))
    (hroom : calls.countP (fun call => IsSubscribe call) ≤ 8) :
    ∃ r k, runCalls (fresh, k₀) calls = some (r, k) ∧
      (∀ h, k.pending h = k₀.pending h ||| received h [] calls) ∧
      k.notifications = k₀.notifications ++ notified k₀ [] calls ∧
      (∀ n ∈ notified k₀ [] calls, ∃ mask, Meets mask n.event ∧
        subscribe n.handle mask ∈ calls) ∧
      (∀ calls', calls'.map offIsr = calls.map offIsr →
        ∃ r' k', runCalls (fresh, k₀) calls' = some (r', k') ∧ k'.pending = k.pending) ∧
      (∀ before subs subs' after, calls = before ++ subs ++ after →
        (∀ call ∈ subs, call.IsSubscribe) → subs.Perm subs' →
        ∃ r' k', runCalls (fresh, k₀) (before ++ subs' ++ after) = some (r', k') ∧
          k'.pending = k.pending) ∧
      (∀ before handle mask after, calls = before ++ subscribe handle mask :: after →
        ∃ r' k', runCalls (fresh, k₀) before = some (r', k') ∧ r'.count < 8) := by
  obtain ⟨r, k, hrun, -, -, hpending, hnotified⟩ := runCalls_delivers Holds.fresh k₀ hroom
  refine ⟨r, k, hrun, hpending, hnotified, fun n hn => subscribed_of_notified hn, ?_, ?_, ?_⟩
  · intro calls' hcalls'
    refine ⟨r, k, ?_, rfl⟩
    rw [← runCalls_offIsr, hcalls', runCalls_offIsr, hrun]
  · rintro before subs subs' after rfl hsubs hperm
    have hroom' : (before ++ subs' ++ after).countP (fun call => IsSubscribe call) ≤ 8 := by
      have hcount := hperm.countP_eq (fun call => decide (IsSubscribe call))
      simp only [List.countP_append] at hroom ⊢
      omega
    obtain ⟨r', k', hrun', -, -, hpending', -⟩ := runCalls_delivers Holds.fresh k₀ hroom'
    refine ⟨r', k', hrun', funext fun h => ?_⟩
    rw [hpending', hpending]
    exact congrArg (k₀.pending h ||| ·) (received_perm hsubs hperm h before after).symm
  · rintro before handle mask after rfl
    rw [List.countP_append, List.countP_cons_of_pos (by trivial)] at hroom
    have hbefore : before.countP (fun call => IsSubscribe call) < 8 := by omega
    obtain ⟨r', k', hrun', hr', -⟩ := runCalls_delivers Holds.fresh k₀ hbefore.le
    exact ⟨r', k', hrun', hr'.count.trans_lt hbefore⟩

/-- A task that is subscribed twice, and an event that it misses. -/
theorem fresh_delivers_twice :
    let calls : List (RegistryCall Bool) :=
      [publish 4, subscribe true 1, subscribe false 2, subscribe true 4, publishIsr 6]
    calls.countP (fun call => IsSubscribe call) ≤ 8 ∧
      received true [] calls = 6 ∧ received false [] calls = 6 ∧
      ∃ r k, runCalls (fresh, ⟨fun _ => 0, fun _ => false, []⟩) calls = some (r, k) ∧
        k.pending true = 6 ∧ k.pending false = 6 := by
  intro calls
  have hroom : calls.countP (fun call => IsSubscribe call) ≤ 8 := by decide
  obtain ⟨r, k, hrun, hpending, -⟩ :=
    fresh_delivers ⟨fun _ => 0, fun _ => false, []⟩ calls hroom
  have htrue : received true [] calls = 6 := by decide
  have hfalse : received false [] calls = 6 := by decide
  refine ⟨hroom, htrue, hfalse, r, k, hrun, ?_, ?_⟩
  · rw [hpending, htrue]
    rfl
  · rw [hpending, hfalse]
    rfl

end RegistryCall

end CommonDrivers.Tasks
