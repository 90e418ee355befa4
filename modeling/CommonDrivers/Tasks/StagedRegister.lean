import CommonDrivers.Lib.Run
import CommonDrivers.Tasks.DoubleBuffer

/-! # The double buffer as a staged register

A staged register is a committed value and a value that is being prepared. `DoubleBuffer` keeps the
two in buffers that change places with every commit, and the buffer that goes to the back holds an
old value until the next `write` refreshes it. A client that writes before it modifies or commits
cannot tell the two apart.
-/

namespace CommonDrivers.Tasks

variable {T : Type}

/-- A call of a member function, or a change through the reference that `write` returned last. -/
inductive BufferCall (T : Type)
  | write
  | modify (f : T → T)
  | commit
  | read

/-- A committed value, and the staged one while a write is open. -/
structure StagedRegister (T : Type) where
  committed : T
  staged : Option T

namespace StagedRegister

def initial (value : T) : StagedRegister T := ⟨value, none⟩

/-- A write stages the committed value anew, and a commit makes the staged value the committed
one. -/
def step (s : StagedRegister T) : BufferCall T → StagedRegister T
  | .write => { s with staged := some s.committed }
  | .modify f => { s with staged := s.staged.map f }
  | .commit => ⟨s.staged.getD s.committed, none⟩
  | .read => s

/-- A write and a read both show the committed value. -/
def output (s : StagedRegister T) : BufferCall T → Option T
  | .write => some s.committed
  | .modify _ => none
  | .commit => none
  | .read => some s.committed

/-- A write is open when the call modifies or commits. -/
def Allows (s : StagedRegister T) : BufferCall T → Prop
  | .write => True
  | .modify _ => s.staged.isSome
  | .commit => s.staged.isSome
  | .read => True

end StagedRegister

/-- A double buffer with the reference that its `write` returned last. -/
structure BufferClient (T : Type) where
  buffer : DoubleBuffer T
  reference : Option (Fin 2)

namespace BufferClient

/-- Both buffers start out with the same value. -/
def initial (value : T) : BufferClient T := ⟨.initial value, none⟩

def step (c : BufferClient T) : BufferCall T → BufferClient T
  | .write => ⟨c.buffer.write.2, some c.buffer.write.1⟩
  | .modify f =>
    match c.reference with
    | some r => { c with buffer := c.buffer.modify r f }
    | none => c
  | .commit => { c with buffer := c.buffer.commit }
  | .read => c

/-- What a read copies, and what stands behind the reference that a write returns. -/
def output (c : BufferClient T) : BufferCall T → Option T
  | .write => some (c.buffer.write.2.buffer c.buffer.write.1)
  | .modify _ => none
  | .commit => none
  | .read => some c.buffer.read

/-! ## The simulation -/

/-- The front buffer is the committed value; while a write is open, the last reference is to the
back buffer, and that is the staged value. -/
structure Represents (c : BufferClient T) (s : StagedRegister T) : Prop where
  front : c.buffer.read = s.committed
  back : ∀ v ∈ s.staged, c.reference = some (c.buffer.idx ^^^ 1) ∧
    c.buffer.buffer (c.buffer.idx ^^^ 1) = v

theorem represents_initial (value : T) : (initial value).Represents (.initial value) :=
  ⟨rfl, fun _ h => absurd h (Option.not_mem_none _)⟩

variable {c : BufferClient T} {s : StagedRegister T} (h : c.Represents s)
include h

theorem Represents.output (call : BufferCall T) : c.output call = s.output call := by
  cases call with
  | write => exact congrArg some (c.buffer.write_buffer_back.trans h.front)
  | modify f => rfl
  | commit => rfl
  | read => exact congrArg some h.front

/-- Each allowed call keeps the representation. -/
theorem Represents.step {call : BufferCall T} (hallowed : s.Allows call) :
    (c.step call).Represents (s.step call) := by
  cases call with
  | write =>
    refine ⟨c.buffer.write_read.trans h.front, fun v hv => ⟨rfl, ?_⟩⟩
    obtain rfl : s.committed = v := Option.some.inj hv
    exact c.buffer.write_buffer_back.trans h.front
  | modify f =>
    obtain ⟨v, hv⟩ := Option.isSome_iff_exists.mp hallowed
    obtain ⟨href, hback⟩ := h.back v hv
    have hstep : c.step (.modify f) =
        { c with buffer := c.buffer.modify (c.buffer.idx ^^^ 1) f } := by
      simp only [BufferClient.step, href]
    rw [hstep]
    refine ⟨(c.buffer.modify_read rfl f).trans h.front, fun w hw => ⟨href, ?_⟩⟩
    -- the staged value is changed as the back buffer is
    obtain rfl : f v = w := by simpa [StagedRegister.step, hv] using hw
    exact (c.buffer.modify_buffer_self _ f).trans (congrArg f hback)
  | commit =>
    obtain ⟨v, hv⟩ := Option.isSome_iff_exists.mp hallowed
    refine ⟨?_, fun w hw => absurd hw (Option.not_mem_none w)⟩
    rw [StagedRegister.step, hv]
    exact c.buffer.commit_read.trans (h.back v hv).2
  | read => exact h

omit h

/-- **A double buffer is a staged register**: over any sequence of calls in which a write is open at
each modification and each commit, its reads and its references show the value staged at the last
commit, whatever has been modified or abandoned since. -/
theorem outputs_eq_staged {value : T} {calls : List (BufferCall T)}
    (hcalls : Run.Along StagedRegister.step StagedRegister.Allows (.initial value) calls) :
    Run.outputs step output (initial value) calls =
      Run.outputs StagedRegister.step StagedRegister.output (.initial value) calls :=
  Run.outputs_eq (fun _ _ call h _ => h.output call) (fun _ _ _ h hallowed => h.step hallowed)
    (represents_initial value) hcalls

/-- An abandoned write, and a cycle behind it. -/
theorem outputs_eq_staged_abandoned :
    Run.outputs step output (initial (0 : ℕ))
        [.write, .modify (· + 5), .write, .modify (· + 1), .commit, .read] =
      Run.outputs StagedRegister.step StagedRegister.output (.initial (0 : ℕ))
        [.write, .modify (· + 5), .write, .modify (· + 1), .commit, .read] :=
  outputs_eq_staged ⟨trivial, rfl, trivial, rfl, rfl, trivial, trivial⟩

end BufferClient

end CommonDrivers.Tasks
