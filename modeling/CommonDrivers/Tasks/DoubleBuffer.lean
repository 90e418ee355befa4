import Mathlib.Logic.Function.Basic
import Mathlib.Data.Nat.Notation

/-! # The double buffer

`DoubleBuffer` of `include/tasks/base_task.h`. The front buffer is the one that `idx` names; the
writer works on the other one, through the reference that `write` returns.
-/

namespace CommonDrivers.Tasks

/-- Two buffers and the index of the front one. -/
structure DoubleBuffer (T : Type) where
  buffer : Fin 2 → T
  idx : Fin 2

namespace DoubleBuffer

/-- A new double buffer, whose elements hold their initial value. -/
def initial {T : Type} (value : T) : DoubleBuffer T := ⟨fun _ => value, 0⟩

variable {T : Type} (d : DoubleBuffer T)

@[simp] theorem xor_one_xor_one (i : Fin 2) : i ^^^ 1 ^^^ 1 = i := by
  revert i
  decide

theorem xor_one_ne (i : Fin 2) : i ^^^ 1 ≠ i := by
  revert i
  decide

/-- An index other than `i` is the flipped one. -/
theorem eq_xor_one_of_ne {i j : Fin 2} (h : i ≠ j) : i = j ^^^ 1 := by
  revert i j
  decide

/-- Refreshes the back buffer and returns a reference to it. -/
def write : Fin 2 × DoubleBuffer T :=
  let i := d.idx
  (i ^^^ 1, { d with buffer := Function.update d.buffer (i ^^^ 1) (d.buffer i) })

/-- Changes a buffer through a reference. -/
def modify (r : Fin 2) (f : T → T) : DoubleBuffer T :=
  { d with buffer := Function.update d.buffer r (f (d.buffer r)) }

/-- Swaps the buffers. -/
def commit : DoubleBuffer T :=
  let i := d.idx
  { d with idx := i ^^^ 1 }

/-- Copies the front buffer. -/
def read : T :=
  let i := d.idx
  d.buffer i

/-- What the writer has staged: the value of the back buffer. -/
def staged : T := d.buffer (d.idx ^^^ 1)

/-- A whole cycle of the writer. -/
def publish (f : T → T) : DoubleBuffer T :=
  let r := d.write
  (r.2.modify r.1 f).commit

@[simp] theorem write_fst : d.write.1 = d.idx ^^^ 1 := rfl

@[simp] theorem write_idx : d.write.2.idx = d.idx := rfl

@[simp] theorem modify_idx (r : Fin 2) (f : T → T) : (d.modify r f).idx = d.idx := rfl

@[simp] theorem commit_idx : d.commit.idx = d.idx ^^^ 1 := rfl

@[simp] theorem commit_buffer : d.commit.buffer = d.buffer := rfl

@[simp] theorem write_buffer_back : d.write.2.buffer (d.idx ^^^ 1) = d.read :=
  Function.update_self ..

@[simp] theorem write_read : d.write.2.read = d.read :=
  Function.update_of_ne (xor_one_ne d.idx).symm ..

@[simp] theorem modify_buffer_self (r : Fin 2) (f : T → T) :
    (d.modify r f).buffer r = f (d.buffer r) := Function.update_self ..

theorem modify_buffer_of_ne {r i : Fin 2} (h : i ≠ r) (f : T → T) :
    (d.modify r f).buffer i = d.buffer i := Function.update_of_ne h ..

/-- Work on the back buffer does not show in the front one. -/
theorem modify_read {r : Fin 2} (h : r = d.idx ^^^ 1) (f : T → T) : (d.modify r f).read = d.read :=
  d.modify_buffer_of_ne (h ▸ (xor_one_ne d.idx).symm) f

@[simp] theorem commit_read : d.commit.read = d.buffer (d.idx ^^^ 1) := rfl

/-- A commit shows what was staged. -/
theorem commit_read_staged : d.commit.read = d.staged := rfl

@[simp] theorem publish_idx (f : T → T) : (d.publish f).idx = d.idx ^^^ 1 := rfl

/-- A cycle publishes the modified front value. -/
@[simp] theorem publish_read (f : T → T) : (d.publish f).read = f d.read := by
  simp only [publish, write_fst, commit_read, modify_idx, write_idx, modify_buffer_self,
    write_buffer_back]

/-- A cycle leaves the old front buffer, now the back one, as it was. -/
theorem publish_buffer_back (f : T → T) : (d.publish f).buffer d.idx = d.read := by
  have h := (xor_one_ne d.idx).symm
  simp only [publish, write_fst, commit_buffer, modify_buffer_of_ne _ h]
  exact d.write_read

end DoubleBuffer

end CommonDrivers.Tasks
