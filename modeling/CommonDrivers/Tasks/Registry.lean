import Mathlib.Data.List.Basic
import Mathlib.Logic.Function.Basic
import Mathlib.Order.Nat
import CommonDrivers.Lib.Exec
import CommonDrivers.Lib.Flags

/-! # Task events and the registry

`TaskEvent` and `Registry` of `include/tasks/base_task.h`, over the part of FreeRTOS that the tasks
use: the notification word of each task, in which `eSetBits` sets bits, and deletion.
-/

namespace CommonDrivers.Tasks

open Flags

/-! ## Events -/

namespace TaskEvent

/-- Save to flash, transmit packet over radio. -/
def Telemetry : UInt32 := 1 <<< (0 : UInt32)

/-- Perform staging. -/
def Staging : UInt32 := 1 <<< (1 : UInt32)

/-- Disable flash. -/
def FlashDisabled : UInt32 := 1 <<< (2 : UInt32)

end TaskEvent

/-! ## The kernel -/

variable {τ : Type} [DecidableEq τ]

/-- A call of `xTaskNotify` or `xTaskNotifyFromISR`, and whether its task was alive at that time. -/
structure Notification (τ : Type) where
  handle : τ
  event : UInt32
  alive : Bool
deriving DecidableEq

/-- The kernel's state of the tasks `τ`, with a record of all notifications. -/
structure Kernel (τ : Type) where
  pending : τ → UInt32
  deleted : τ → Bool
  notifications : List (Notification τ)

namespace Kernel

variable (k : Kernel τ) (handle : τ) (event : UInt32)

/-- Notifies a task with `eSetBits`. -/
def xTaskNotify : Kernel τ where
  pending := Function.update k.pending handle (k.pending handle ||| event)
  deleted := k.deleted
  notifications := k.notifications ++ [⟨handle, event, !k.deleted handle⟩]

/-- The same from an interrupt handler. -/
def xTaskNotifyFromISR : Kernel τ where
  pending := Function.update k.pending handle (k.pending handle ||| event)
  deleted := k.deleted
  notifications := k.notifications ++ [⟨handle, event, !k.deleted handle⟩]

/-- `xTaskNotifyWait(0, 0xFFFFFFFF, …)`: returns and clears the pending word, and blocks while no
bit is pending. -/
def xTaskNotifyWait : Option (UInt32 × Kernel τ) :=
  if k.pending handle = 0 then none
  else some (k.pending handle, { k with pending := Function.update k.pending handle 0 })

def vTaskDelete : Kernel τ := { k with deleted := Function.update k.deleted handle true }

end Kernel

/-! ## The registry -/

structure Subscriber (τ : Type) where
  handle : Option τ := none
  mask : UInt32 := 0

/-- The table of subscribers. Only the first `count` entries are in use. -/
structure Registry (τ : Type) where
  subscribers : Vector (Subscriber τ) 8
  count : ℕ
  unused : ∀ i (h : i < 8), count ≤ i → subscribers[i] = {}

namespace Registry

/-- The static instance at start-up. -/
def fresh : Registry τ where
  subscribers := Vector.replicate 8 {}
  count := 0
  unused _ h _ := Vector.getElem_replicate h

/-- Subscribes a task; aborts when the table is full. -/
def subscribe (handle : Option τ) (mask : UInt32) : Exec (Registry τ) Unit := fun r =>
  if h : r.count < 8 then
    some ((), {
      subscribers := r.subscribers.set r.count ⟨handle, mask⟩
      count := r.count + 1
      unused := fun i hi hle => by
        rw [Vector.getElem_set_ne h hi (by omega)]
        exact r.unused i hi (by omega) })
  else none

/-- One round of the loop of `publish` and `publish_isr`, which differ in the call they make. -/
def notifyOne (notify : Kernel τ → τ → UInt32 → Kernel τ) (event : UInt32) (k : Kernel τ)
    (subscriber : Subscriber τ) : Kernel τ :=
  match subscriber.handle with
  | some handle => if Meets subscriber.mask event then notify k handle event else k
  | none => k

/-- Publishes events to all subscribers. -/
def publish (r : Registry τ) (event : UInt32) (k : Kernel τ) : Kernel τ :=
  r.subscribers.toList.foldl (notifyOne Kernel.xTaskNotify event) k

/-- Publishes events to all subscribers from an interrupt handler. -/
def publishIsr (r : Registry τ) (event : UInt32) (k : Kernel τ) : Kernel τ :=
  r.subscribers.toList.foldl (notifyOne Kernel.xTaskNotifyFromISR event) k

theorem publishIsr_eq : (publishIsr : Registry τ → UInt32 → Kernel τ → Kernel τ) = publish := rfl

/-! ## The entries in use -/

/-- The entries in use, in table order. -/
def used (r : Registry τ) : List (Subscriber τ) := r.subscribers.toList.take r.count

omit [DecidableEq τ] in
/-- The table is the entries in use, then empty ones. -/
theorem toList_eq (r : Registry τ) :
    r.subscribers.toList = r.used ++ List.replicate (8 - r.count) ({} : Subscriber τ) := by
  have hdrop : r.subscribers.toList.drop r.count =
      List.replicate (8 - r.count) ({} : Subscriber τ) := by
    refine List.eq_replicate_iff.mpr ⟨by simp, fun s hs => ?_⟩
    obtain ⟨i, hi, rfl⟩ := List.mem_iff_getElem.mp hs
    rw [List.length_drop, Vector.length_toList] at hi
    rw [List.getElem_drop, Vector.getElem_toList]
    exact r.unused _ (by omega) (Nat.le_add_right _ _)
  rw [used, ← hdrop, List.take_append_drop]

omit [DecidableEq τ] in
/-- Subscribing appends one entry, while there is room for it. -/
theorem subscribe_used {r : Registry τ} (hcount : r.count < 8) (handle : Option τ)
    (mask : UInt32) :
    ∃ r', subscribe handle mask r = some ((), r') ∧ r'.count = r.count + 1 ∧
      r'.used = r.used ++ [⟨handle, mask⟩] := by
  refine ⟨_, dif_pos hcount, rfl, ?_⟩
  have hlen : r.count < r.subscribers.toList.length := by rwa [Vector.length_toList]
  show (r.subscribers.set r.count _ hcount).toList.take (r.count + 1) = _
  rw [Vector.toList_set, List.take_add_one, List.take_set_of_le le_rfl,
    List.getElem?_set_self hlen, used]
  rfl

/-! ## What a publish does -/

/-- The handles that a publish notifies, in table order. -/
def targets (r : Registry τ) (event : UInt32) : List τ :=
  r.subscribers.toList.filterMap fun s => if Meets s.mask event then s.handle else none

/-- The union of the masks under which a task is subscribed. -/
def maskOf (r : Registry τ) (h : τ) : UInt32 :=
  union ((r.subscribers.toList.filter (·.handle = some h)).map (·.mask))

omit [DecidableEq τ] in
/-- Empty entries are not notified, so that the entries in use decide. -/
theorem targets_eq (r : Registry τ) (event : UInt32) :
    r.targets event =
      r.used.filterMap fun s => if Meets s.mask event then s.handle else none := by
  rw [targets, toList_eq, List.filterMap_append, List.filterMap_replicate_of_none,
    List.append_nil]
  exact if_neg not_zero_meets

theorem maskOf_eq (r : Registry τ) (h : τ) :
    r.maskOf h = union ((r.used.filter (·.handle = some h)).map (·.mask)) := by
  rw [maskOf, toList_eq, List.filter_append, List.filter_replicate_of_neg (by simp),
    List.append_nil]

theorem maskOf_meets {r : Registry τ} {h : τ} {event : UInt32} :
    Meets (r.maskOf h) event ↔
      ∃ s ∈ r.subscribers.toList, s.handle = some h ∧ Meets s.mask event := by
  simp only [maskOf, union_meets, List.mem_map, List.mem_filter, decide_eq_true_eq]
  constructor
  · rintro ⟨_, ⟨s, ⟨hs, hh⟩, rfl⟩, hm⟩
    exact ⟨s, hs, hh, hm⟩
  · rintro ⟨s, hs, hh, hm⟩
    exact ⟨_, ⟨s, ⟨hs, hh⟩, rfl⟩, hm⟩

theorem mem_targets {r : Registry τ} {h : τ} {event : UInt32} :
    h ∈ r.targets event ↔ Meets (r.maskOf h) event := by
  rw [targets, maskOf_meets]
  simp only [List.mem_filterMap]
  constructor
  · rintro ⟨s, hs, hh⟩
    split at hh
    · next hm => exact ⟨s, hs, hh, hm⟩
    · cases hh
  · rintro ⟨s, hs, hh, hm⟩
    exact ⟨s, hs, by rw [if_pos hm, hh]⟩

/-- A publish is one notification to each target. -/
theorem publish_eq (r : Registry τ) (event : UInt32) (k : Kernel τ) :
    r.publish event k = (r.targets event).foldl (fun k h => k.xTaskNotify h event) k := by
  rw [publish, targets]
  induction r.subscribers.toList generalizing k with
  | nil => rfl
  | cons s rest ih =>
    rw [List.foldl_cons, ih, List.filterMap_cons, notifyOne]
    by_cases hm : Meets s.mask event
    · cases hs : s.handle <;> simp only [if_pos hm, List.foldl_cons]
    · cases hs : s.handle <;> simp only [if_neg hm]

variable (r : Registry τ) (event : UInt32) (k : Kernel τ)

@[simp] theorem publish_deleted : (r.publish event k).deleted = k.deleted := by
  rw [publish_eq]
  induction r.targets event generalizing k with
  | nil => rfl
  | cons h rest ih => rw [List.foldl_cons, ih, Kernel.xTaskNotify]

/-- The record of a publish: its targets, with whether each is alive. -/
theorem publish_notifications :
    (r.publish event k).notifications =
      k.notifications ++ (r.targets event).map fun h => ⟨h, event, !k.deleted h⟩ := by
  rw [publish_eq]
  induction r.targets event generalizing k with
  | nil => exact (List.append_nil _).symm
  | cons h rest ih =>
    rw [List.foldl_cons, ih, Kernel.xTaskNotify, List.append_assoc, List.map_cons,
      List.singleton_append]

/-- Notifying a list of tasks ORs the word into the pending words of exactly these. -/
private theorem foldl_xTaskNotify_pending (handles : List τ) (h : τ) :
    (handles.foldl (fun k h => k.xTaskNotify h event) k).pending h =
      if h ∈ handles then k.pending h ||| event else k.pending h := by
  induction handles generalizing k with
  | nil => rfl
  | cons h' rest ih =>
    rw [List.foldl_cons, ih, Kernel.xTaskNotify]
    by_cases hh : h = h'
    · subst hh
      simp only [Function.update_self, List.mem_cons_self, if_true, UInt32.or_assoc,
        UInt32.or_self, ite_self]
    · simp only [Function.update_of_ne hh, List.mem_cons, hh, false_or]

/-- A publish ORs the word into the pending words of exactly the tasks whose masks it meets. -/
theorem publish_pending (h : τ) :
    (r.publish event k).pending h =
      if Meets (r.maskOf h) event then k.pending h ||| event else k.pending h := by
  rw [publish_eq, foldl_xTaskNotify_pending]
  simp only [mem_targets]

/-- Subscribing adds the new mask to what the task had, and leaves the other tasks alone. -/
theorem subscribe_maskOf {r r' : Registry τ} {handle : Option τ} {mask : UInt32}
    (hr : subscribe handle mask r = some ((), r')) (h : τ) :
    Meets (r'.maskOf h) event ↔
      Meets (r.maskOf h) event ∨ handle = some h ∧ Meets mask event := by
  by_cases hcount : r.count < 8
  · obtain ⟨r'', hr'', -, hused⟩ := subscribe_used hcount handle mask
    obtain rfl := (Prod.mk.inj (Option.some.inj (hr.symm.trans hr''))).2
    simp only [maskOf_eq, hused, List.filter_append, List.map_append, union_append, or_meets]
    by_cases hh : handle = some h
    · simp [hh, union]
    · simp [hh, union]
  · rw [subscribe, dif_neg hcount] at hr
    cases hr

end Registry

end CommonDrivers.Tasks
