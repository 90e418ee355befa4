import Mathlib.Data.List.GetD
import CommonDrivers.Lib.Run
import CommonDrivers.Lib.Word

/-! # The boot counter

`Flash::mount` and `Flash::bootcount` of `src/flash/flash.cpp`, over the littlefs calls that they
make on the file `boot_count`. Each of these may fail, and `bootcount` looks at none of their
results: after a read that fails it goes on with the count `0` and stores `1`.
-/

namespace CommonDrivers.Flash

/-! ## The file -/

/-- The content of `boot_count`: nothing yet, or a counter and whatever stands behind it. -/
structure BootFile where
  bytes : List UInt8
  whole : bytes = [] ∨ 4 ≤ bytes.length

namespace BootFile

def empty : BootFile := ⟨[], .inl rfl⟩

/-- The content after a word was written at a position. -/
def write (file : BootFile) (pos : ℕ) (w : UInt32) : BootFile where
  bytes := file.bytes.take pos ++ Word.bytes w 4 ++ file.bytes.drop (pos + 4)
  whole := by
    right
    rw [List.length_append, List.length_append, Word.length_bytes]
    omega

/-- The word at the start of the file, `0` if there is none. -/
def counter (file : BootFile) : UInt32 := Word.word (fun i => file.bytes.getD i 0) 4

end BootFile

/-- What is stored of `boot_count`, if it exists. -/
abbrev Medium := Option BootFile

/-- The persistent counter. -/
def Medium.counter (m : Medium) : UInt32 := m.elim 0 BootFile.counter

/-! ## littlefs -/

/-- An open file: its content with what was written since, and the position in it. -/
structure OpenFile where
  content : BootFile
  pos : ℕ

/-- Which of the calls of `bootcount` fail. -/
structure Failures where
  openFails : Bool := false
  readFails : Bool := false
  rewindFails : Bool := false
  writeFails : Bool := false
  closeFails : Bool := false
deriving DecidableEq

/-- Opens the file and creates it if it does not exist. The file is `none` after a failure, and the
calls on it fail. -/
def lfsFileOpen (fails : Bool) (m : Medium) : Option OpenFile × Medium :=
  if fails then (none, m)
  else (some ⟨m.getD .empty, 0⟩, some (m.getD .empty))

/-- Reads a word into `dest`, of which bytes that are not in the file keep their value. -/
def lfsFileRead (fails : Bool) (file : Option OpenFile) (dest : UInt32) :
    UInt32 × Option OpenFile :=
  match file with
  | none => (dest, none)
  | some f =>
    if fails then (dest, some f)
    else
      let bytes := (f.content.bytes.drop f.pos).take 4
      (Word.word (fun i => bytes.getD i (Word.byteOf dest i)) 4,
        some { f with pos := f.pos + bytes.length })

def lfsFileRewind (fails : Bool) (file : Option OpenFile) : Option OpenFile :=
  file.map fun f => if fails then f else { f with pos := 0 }

def lfsFileWrite (fails : Bool) (w : UInt32) (file : Option OpenFile) : Option OpenFile :=
  file.map fun f => if fails then f else ⟨f.content.write f.pos w, f.pos + 4⟩

/-- Stores what was written. -/
def lfsFileClose (fails : Bool) (file : Option OpenFile) (m : Medium) : Medium :=
  match file with
  | none => m
  | some f => if fails then m else some f.content

/-! ## The counter -/

def bootcount (fails : Failures) (update : Bool) (m : Medium) : UInt32 × Medium :=
  let currentCount : UInt32 := 0
  let (file, m) := lfsFileOpen fails.openFails m
  let (currentCount, file) := lfsFileRead fails.readFails file currentCount
  if update then
    let currentCount := currentCount + 1
    let file := lfsFileRewind fails.rewindFails file
    let file := lfsFileWrite fails.writeFails currentCount file
    (currentCount, lfsFileClose fails.closeFails file m)
  else
    (currentCount, lfsFileClose fails.closeFails file m)

/-- The other littlefs calls of a `mount`. -/
structure MountCalls where
  /-- The result of the first `lfs_mount`. -/
  err : Int
  /-- What `lfs_format` leaves. -/
  format : Medium → Medium
  /-- The result of the second `lfs_mount`. -/
  res : Int
  fsSize : UInt32

def mount (calls : MountCalls) (fails : Failures) (m : Medium) : UInt32 × Medium :=
  if calls.err ≠ 0 then
    let m := calls.format m
    if calls.res < 0 then (0xFFFFFFFF, m)
    else (calls.fsSize, (bootcount fails true m).2)
  else (calls.fsSize, (bootcount fails true m).2)

/-! ## What the calls leave -/

namespace BootFile

@[simp] theorem write_bytes (file : BootFile) (pos : ℕ) (w : UInt32) :
    (file.write pos w).bytes =
      file.bytes.take pos ++ Word.bytes w 4 ++ file.bytes.drop (pos + 4) := rfl

/-- A word written to the start is the counter. -/
theorem counter_write (file : BootFile) (w : UInt32) : (file.write 0 w).counter = w := by
  refine (Word.word_congr fun i hi => ?_).trans (Word.word_byteOf w)
  rw [write_bytes, List.take_zero, List.nil_append, List.getD_append _ _ _ _ (by simpa using hi)]
  simp [Word.bytes, hi]

/-- A word written behind the counter leaves it alone. -/
theorem counter_write_behind {file : BootFile} (h : 4 ≤ file.bytes.length) (w : UInt32) :
    (file.write 4 w).counter = file.counter := by
  refine Word.word_congr fun i hi => ?_
  have hlen : i < (file.bytes.take 4).length := by rw [List.length_take]; omega
  rw [write_bytes, List.append_assoc, List.getD_append _ _ _ _ hlen]
  simp [List.getD_eq_getElem?_getD, hi]

end BootFile

/-- A read of a file just opened yields its counter. -/
theorem lfsFileRead_start (file : BootFile) :
    lfsFileRead false (some ⟨file, 0⟩) 0 =
      (file.counter, some ⟨file, min 4 file.bytes.length⟩) := by
  have hread : lfsFileRead false (some ⟨file, 0⟩) 0 =
      (Word.word (fun i => (file.bytes.take 4).getD i (Word.byteOf 0 i)) 4,
        some ⟨file, 0 + (file.bytes.take 4).length⟩) := rfl
  have hzero : ∀ i, Word.byteOf 0 i = 0 := fun i => by simp [Word.byteOf]
  have hcount : Word.word (fun i => (file.bytes.take 4).getD i (Word.byteOf 0 i)) 4 =
      file.counter := by
    refine Word.word_congr fun i hi => ?_
    rw [hzero, List.getD_eq_getElem?_getD, List.getElem?_take, if_pos hi,
      List.getD_eq_getElem?_getD]
  rw [hread, hcount, List.length_take, Nat.zero_add]

/-- A failed write or close stores nothing. -/
theorem lfsFileClose_write (writeFails closeFails : Bool) (file : BootFile) (pos : ℕ) (w : UInt32) :
    lfsFileClose closeFails (lfsFileWrite writeFails w (some ⟨file, pos⟩)) (some file) =
      if writeFails = true ∨ closeFails = true then some file else some (file.write pos w) := by
  cases writeFails <;> cases closeFails <;> rfl

/-- Creating the file does not change the counter. -/
theorem counter_getD (m : Medium) : (m.getD .empty).counter = m.counter := by
  cases m with
  | none => rfl
  | some file => rfl

section Update

variable {fails : Failures} (m : Medium)

/-- Without a file nothing is stored. -/
theorem bootcount_unopened (hopen : fails.openFails = true) (update : Bool) :
    bootcount fails update m = (if update then 1 else 0, m) := by
  cases update with
  | false => simp [bootcount, lfsFileOpen, lfsFileRead, lfsFileClose, hopen]
  | true => simp [bootcount, lfsFileOpen, lfsFileRead, lfsFileRewind, lfsFileWrite, lfsFileClose,
      hopen]

variable (hopen : fails.openFails = false)
include hopen

/-- After a failed read a `1` is written to the start of the file. -/
theorem bootcount_unread (hread : fails.readFails = true) :
    bootcount fails true m =
      (1, if fails.writeFails = true ∨ fails.closeFails = true then some (m.getD .empty)
        else some ((m.getD .empty).write 0 1)) := by
  rw [← lfsFileClose_write]
  cases hrewind : fails.rewindFails <;>
    simp [bootcount, lfsFileOpen, lfsFileRead, lfsFileRewind, hopen, hread, hrewind]

/-- After a read the next count is written, behind the counter if the rewind fails. -/
theorem bootcount_read (hread : fails.readFails = false) :
    bootcount fails true m =
      (m.counter + 1, if fails.writeFails = true ∨ fails.closeFails = true then some (m.getD .empty)
        else some ((m.getD .empty).write
          (if fails.rewindFails then min 4 (m.getD .empty).bytes.length else 0)
          (m.counter + 1))) := by
  rw [← lfsFileClose_write, ← counter_getD m]
  cases hrewind : fails.rewindFails <;>
    simp [bootcount, lfsFileOpen, lfsFileRead_start, lfsFileRewind, hopen, hread, hrewind]

end Update

/-- Without an update the counter stays. -/
theorem bootcount_false_counter (fails : Failures) (m : Medium) :
    (bootcount fails false m).2.counter = m.counter := by
  cases hopen : fails.openFails with
  | true => rw [bootcount_unopened m hopen]
  | false =>
    have hstored : (bootcount fails false m).2 = some (m.getD .empty) := by
      cases hread : fails.readFails <;> cases hclose : fails.closeFails <;>
        simp [bootcount, lfsFileOpen, lfsFileRead, lfsFileClose, hopen, hread, hclose]
    rw [hstored]
    exact counter_getD m

/-- An update that reads the counter leaves it or adds one. -/
theorem bootcount_read_counter {fails : Failures} (m : Medium) (hopen : fails.openFails = false)
    (hread : fails.readFails = false) :
    (bootcount fails true m).2.counter = m.counter ∨
      (bootcount fails true m).2.counter = m.counter + 1 := by
  rw [bootcount_read m hopen hread]
  by_cases hfails : fails.writeFails = true ∨ fails.closeFails = true
  · rw [if_pos hfails]
    exact .inl (counter_getD m)
  · rw [if_neg hfails]
    rcases (m.getD .empty).whole with hnil | hlen
    · -- a new file has nothing in front of which the count could land
      right
      rw [hnil, List.length_nil, Nat.min_zero, ite_self]
      exact BootFile.counter_write _ _
    · rw [Nat.min_eq_left hlen]
      cases fails.rewindFails with
      | true => exact .inl ((BootFile.counter_write_behind hlen _).trans (counter_getD m))
      | false => exact .inr (BootFile.counter_write _ _)

/-- Without a failure an update adds one and returns the new count. -/
theorem bootcount_clean (m : Medium) :
    (bootcount {} true m).2.counter = m.counter + 1 ∧
      (bootcount {} true m).1 = m.counter + 1 := by
  rw [bootcount_read m rfl rfl]
  exact ⟨BootFile.counter_write _ _, rfl⟩

/-! ## Runs -/

/-- A mount that succeeds at once, or a call of `bootcount`. -/
inductive BootCall
  | mount (calls : MountCalls) (mounted : calls.err = 0) (fails : Failures)
  | bootcount (update : Bool) (fails : Failures)

namespace BootCall

def fails : BootCall → Failures
  | mount _ _ fails => fails
  | bootcount _ fails => fails

def updates : BootCall → Bool
  | mount .. => true
  | bootcount update _ => update

def step (m : Medium) : BootCall → Medium
  | mount calls _ fails => (Flash.mount calls fails m).2
  | bootcount update fails => (Flash.bootcount fails update m).2

/-- An update moves the counter by one at most, the other calls leave it alone. -/
def Moves (m : Medium) (call : BootCall) : Prop :=
  if call.updates then (step m call).counter = m.counter ∨ (step m call).counter = m.counter + 1
  else (step m call).counter = m.counter

/-- An update of `bootcount` returns the count that it leaves. -/
def Returns (m : Medium) : BootCall → Prop
  | mount .. => True
  | bootcount update fails =>
    update = true → (Flash.bootcount fails update m).1 = (Flash.bootcount fails update m).2.counter

/-- Every call of the run moves the counter by one at most; and if no littlefs call fails, each
update raises it by one and returns the new count. -/
def MovesByOne (m : Medium) (calls : List BootCall) : Prop :=
  Run.Along step Moves m calls ∧
    ((∀ call ∈ calls, call.fails = {}) →
      (Run.run step m calls).counter = m.counter + UInt32.ofNat (calls.countP updates) ∧
        Run.Along step Returns m calls)

/-- A failed read of an update is not followed by a successful store, unless the counter is still
`0` or `1`. -/
def Recovers (m : Medium) (call : BootCall) : Prop :=
  call.updates = true → call.fails.readFails = true →
    call.fails.openFails = true ∨ call.fails.writeFails = true ∨ call.fails.closeFails = true ∨
      m.counter = 0 ∨ m.counter = 1

theorem step_eq (m : Medium) (call : BootCall) :
    step m call = (Flash.bootcount call.fails call.updates m).2 := by
  cases call with
  | mount calls mounted fails => rw [step, Flash.mount, if_neg (not_not.mpr mounted)]; rfl
  | bootcount update fails => rfl

/-- The counters from which `1` is a step of at most one. -/
theorem one_eq_iff (c : UInt32) : 1 = c ∨ 1 = c + 1 ↔ c = 0 ∨ c = 1 := by
  grind

/-- **One call.** -/
theorem moves_iff (m : Medium) (call : BootCall) : Moves m call ↔ Recovers m call := by
  rw [Moves, Recovers, step_eq]
  cases call.updates with
  | false => exact iff_of_true (bootcount_false_counter call.fails m) (fun h => by cases h)
  | true =>
    rw [if_pos rfl, forall_prop_of_true rfl]
    cases hopen : call.fails.openFails with
    | true => exact iff_of_true (.inl (by rw [bootcount_unopened m hopen])) fun _ => .inl rfl
    | false =>
      cases hread : call.fails.readFails with
      | false =>
        exact iff_of_true (bootcount_read_counter m hopen hread) fun h => by cases h
      | true =>
        rw [bootcount_unread m hopen hread]
        by_cases hfails : call.fails.writeFails = true ∨ call.fails.closeFails = true
        · rw [if_pos hfails]
          refine iff_of_true (.inl (counter_getD m)) fun _ => .inr ?_
          rcases hfails with h | h
          · exact .inl h
          · exact .inr (.inl h)
        · -- the counter is now 1, whatever it was
          have hone : Medium.counter (some ((m.getD .empty).write 0 1)) = 1 :=
            BootFile.counter_write _ 1
          obtain ⟨hwrite, hclose⟩ := not_or.mp hfails
          rw [if_neg hfails, hone, forall_prop_of_true rfl, or_iff_right hwrite,
            or_iff_right hclose, or_iff_right Bool.false_ne_true, one_eq_iff]

/-- A call without a failure. -/
theorem clean_step (m : Medium) {call : BootCall} (h : call.fails = {}) :
    (step m call).counter = m.counter + (if call.updates then 1 else 0) ∧ Returns m call := by
  cases call with
  | mount calls mounted fails =>
    obtain rfl : fails = {} := h
    rw [step_eq]
    exact ⟨(bootcount_clean m).1, trivial⟩
  | bootcount update fails =>
    obtain rfl : fails = {} := h
    cases update with
    | false =>
      exact ⟨(bootcount_false_counter _ m).trans (UInt32.add_zero _).symm, fun h => by cases h⟩
    | true =>
      obtain ⟨hcounter, hreturn⟩ := bootcount_clean m
      exact ⟨hcounter, fun _ => hreturn.trans hcounter.symm⟩

/-- A run without a failure. -/
theorem clean_run (m : Medium) {calls : List BootCall} (h : ∀ call ∈ calls, call.fails = {}) :
    (Run.run step m calls).counter = m.counter + UInt32.ofNat (calls.countP updates) ∧
      Run.Along step Returns m calls := by
  induction calls generalizing m with
  | nil => exact ⟨(UInt32.add_zero _).symm, trivial⟩
  | cons call calls ih =>
    obtain ⟨hcounter, hreturns⟩ := clean_step m (h call List.mem_cons_self)
    obtain ⟨hrun, hrest⟩ := ih (step m call) fun c hc => h c (List.mem_cons_of_mem call hc)
    refine ⟨?_, hreturns, hrest⟩
    rw [Run.run_cons, hrun, hcounter, List.countP_cons, UInt32.ofNat_add, UInt32.add_assoc,
      UInt32.add_comm (UInt32.ofNat (calls.countP updates))]
    cases call.updates with
    | true => rfl
    | false => rfl

/-- **On every run the boot counter moves by one at most, and by one at each update if nothing
fails, if and only if no update stores a count after it failed to read one**, other than at a
counter of `0` or `1`. -/
theorem movesByOne_iff (m : Medium) (calls : List BootCall) :
    MovesByOne m calls ↔ Run.Along step Recovers m calls := by
  rw [MovesByOne, Run.along_congr step moves_iff]
  exact and_iff_left fun h => clean_run m h

/-- A counter of five is set back to one by an update of which the read alone fails. -/
theorem not_movesByOne_unread :
    ¬ MovesByOne (some ⟨[5, 0, 0, 0], .inr (by decide)⟩)
      [.bootcount true { readFails := true }] := by
  rintro ⟨⟨hmoves, -⟩, -⟩
  rw [Moves, if_pos (by rfl)] at hmoves
  revert hmoves
  decide +kernel

end BootCall

end CommonDrivers.Flash
