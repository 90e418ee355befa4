import CommonDrivers.Lib.Program
import CommonDrivers.Protocols.SpiWire

/-! # Several slaves on one SPI

Sensors and flash of a board share the clock and the data lines of one SPI; each has a chip select,
which its own `SPI` object drives. Tasks that use them may preempt each other between any two
transfers. They do not notice: every task and its slave are where they had been on a bus of their
own.
-/

namespace CommonDrivers.Spi

open Exec

/-! ## The board -/

/-- The slaves and their chip selects, which are distinct pins of one port. `line` is what the
master reads of the data line that they share; each of them drives it with a byte or not at all. -/
structure Board (ι : Type) [DecidableEq ι] (δ : ι → Type) where
  slave : ∀ i, Slave (δ i)
  pin : ι → Fin 16
  pin_injective : Function.Injective pin
  line : (ι → Option UInt8) → UInt8
  line_single : ∀ i b, line (fun j => if j = i then some b else none) = b

namespace Board

variable {ι : Type} [DecidableEq ι] {δ : ι → Type} (B : Board ι δ)

/-- The hardware: the slaves whose chip select is low hear what is sent. No transfer fails on the
way. -/
def hal : Hal (∀ i, Wire (δ i)) where
  writePin mask level := total fun w =>
    ((), fun i => if mask &&& gpioPin (B.pin i) = 0 then w i else (w i).drive (B.slave i) level)
  transmit data := total fun w =>
    if halSize data = 0 then (.error, w)
    else
      (.ok, fun i => { w i with frame := (w i).frame.map (· ++ data.take (halSize data)) })
  receive buffer := total fun w =>
    if halSize buffer = 0 then ((.error, buffer), w)
    else
      let sent := buffer.take (halSize buffer)
      let input := (List.range sent.length).map fun k =>
        B.line fun i => (w i).frame.map fun frame =>
          (B.slave i).output (w i).dev (frame ++ sent.take k)
      ((.ok, input ++ buffer.drop (halSize buffer)),
        fun i => { w i with frame := (w i).frame.map (· ++ sent) })

/-- The `SPI` object of a slave. -/
def object (i : ι) : Spi := new (gpioPin (B.pin i))

/-- The bus of a slave's object. -/
def bus (i : ι) : Protocol (∀ i, Wire (δ i)) := busOn B.hal (B.object i)

/-- What the bus would be if the slave were alone. -/
def ownBus (i : ι) : Protocol (δ i) :=
  if (B.pin i).val < 8 then slaveBus (B.slave i) else floatingBus (δ i) (B.line fun _ => none)

/-- The board with all slaves deselected. -/
def idle (d : ∀ i, δ i) : ∀ i, Wire (δ i) := fun i => .idle (d i)

/-- The board in a frame of one slave. -/
def selected (i : ι) (d : ∀ i, δ i) (frame : List UInt8) : ∀ i, Wire (δ i) :=
  Function.update (idle d) i ⟨d i, some frame⟩

/-! ## Transfers that fit the HAL -/

/-- A call of `read` or `write` with a command, whose parts fit into the `uint16_t` of the HAL. -/
structure Transfer where
  isRead : Bool
  cmd : List UInt8
  buffer : List UInt8
  size : AddressSize
  cmd_ne : cmd ≠ []
  cmd_lt : cmd.length < 65536
  buffer_ne : isRead = true → buffer ≠ []
  buffer_lt : buffer.length < 65536

/-- What the call returns, and what is then in the buffer. -/
def Transfer.run {σ : Type} (P : Protocol σ) (t : Transfer) : Exec σ (Bool × List UInt8) :=
  if t.isRead then P.read t.cmd t.buffer t.size
  else do
    let failed ← P.write t.cmd t.buffer t.size
    return (failed, t.buffer)

/-! ## The pins -/

/-- An object drives no pin but its own. -/
theorem new_gpioPin_other {k k' : Fin 16} (h : k ≠ k') :
    (new (gpioPin k)).pin.toUInt16 &&& gpioPin k' = 0 := by
  revert k k'
  decide

theorem object_other {i j : ι} (h : i ≠ j) :
    (B.object i).pin.toUInt16 &&& gpioPin (B.pin j) = 0 :=
  new_gpioPin_other (mt (@B.pin_injective i j) h)

variable {B} {i : ι}

theorem object_own (hi : (B.pin i).val < 8) :
    (B.object i).pin.toUInt16 &&& gpioPin (B.pin i) ≠ 0 := (new_gpioPin_and _).mpr hi

/-- An object of an upper pin drives no pin at all. -/
theorem object_upper (hi : ¬ (B.pin i).val < 8) (j : ι) :
    (B.object i).pin.toUInt16 &&& gpioPin (B.pin j) = 0 := by
  by_cases hij : i = j
  · subst hij
    exact not_not.mp (mt (new_gpioPin_and _).mp hi)
  · exact B.object_other hij

variable (B) (i) (d : ∀ i, δ i) {data : List UInt8}

/-! ## A frame of one slave -/

section Selected

variable (frame : List UInt8)

theorem transmit_selected (hpos : data ≠ []) (hlen : data.length < 65536) :
    B.hal.transmit data (selected i d frame) = some (.ok, selected i d (frame ++ data)) := by
  simp only [hal, total_apply, halSize_eq hlen, if_neg (mt List.length_eq_zero_iff.mp hpos),
    List.take_length]
  -- only a slave in a frame takes bytes in
  refine congrArg (fun w => some (HalStatus.ok, w)) (funext fun j => ?_)
  by_cases hj : j = i
  · subst hj
    simp only [selected, Function.update_self, Option.map_some]
  · simp only [selected, Function.update_of_ne hj, idle, Option.map_none]

theorem receive_selected (hpos : data ≠ []) (hlen : data.length < 65536) :
    B.hal.receive data (selected i d frame) =
      some ((.ok, (B.slave i).reply (d i) frame data), selected i d (frame ++ data)) := by
  -- the selected slave is the only one that drives the line
  have hline : ∀ k, (B.line fun j => (selected i d frame j).frame.map fun frame' =>
      (B.slave j).output (selected i d frame j).dev (frame' ++ data.take k)) =
      (B.slave i).output (d i) (frame ++ data.take k) := by
    intro k
    refine Eq.trans (congrArg B.line (funext fun j => ?_)) (B.line_single i _)
    by_cases hj : j = i
    · subst hj
      simp only [selected, Function.update_self, Option.map_some, if_true]
    · simp only [selected, Function.update_of_ne hj, idle, Option.map_none, if_neg hj]
  simp only [hal, total_apply, halSize_eq hlen, if_neg (mt List.length_eq_zero_iff.mp hpos),
    List.take_length, List.drop_length, List.append_nil, hline]
  refine congrArg (fun w => some (_, w)) (funext fun j => ?_)
  by_cases hj : j = i
  · subst hj
    simp only [selected, Function.update_self, Option.map_some]
  · simp only [selected, Function.update_of_ne hj, idle, Option.map_none]

end Selected

variable {B i} {cmd buffer : List UInt8}

section Lower

variable (hi : (B.pin i).val < 8)
include hi

/-- The object selects its slave and no other. -/
theorem writePin_select :
    B.hal.writePin (B.object i).pin.toUInt16 .reset (idle d) = some ((), selected i d []) := by
  refine congrArg (fun w => some ((), w)) (funext fun j => ?_)
  by_cases hj : j = i
  · subst hj
    simp only [if_neg (object_own hi), selected, Function.update_self, idle, Wire.drive]
  · simp only [if_pos (B.object_other (Ne.symm hj)), selected, Function.update_of_ne hj]

theorem writePin_deselect (frame : List UInt8) :
    B.hal.writePin (B.object i).pin.toUInt16 .set (selected i d frame) =
      some ((), idle (Function.update d i ((B.slave i).finish (d i) frame))) := by
  refine congrArg (fun w => some ((), w)) (funext fun j => ?_)
  by_cases hj : j = i
  · subst hj
    simp only [if_neg (object_own hi), selected, Function.update_self, idle, Wire.drive]
  · simp only [if_pos (B.object_other (Ne.symm hj)), selected, Function.update_of_ne hj, idle]

theorem read_lower (hcmd : cmd ≠ []) (hcmdLen : cmd.length < 65536) (hbuf : buffer ≠ [])
    (hbufLen : buffer.length < 65536) (size : AddressSize) :
    (B.bus i).read cmd buffer size (idle d) =
      some ((false, (B.slave i).reply (d i) cmd buffer),
        idle (Function.update d i ((B.slave i).finish (d i) (cmd ++ buffer)))) :=
  readOn_ok hcmd (writePin_select d hi) (transmit_selected B i d [] hcmd hcmdLen)
    (writePin_deselect d hi _) (receive_selected B i d cmd hbuf hbufLen) size

theorem write_lower (hcmd : cmd ≠ []) (hcmdLen : cmd.length < 65536)
    (hbufLen : buffer.length < 65536) (size : AddressSize) :
    (B.bus i).write cmd buffer size (idle d) =
      some (false, idle (Function.update d i ((B.slave i).finish (d i) (cmd ++ buffer)))) := by
  refine writeOn_ok hcmd (writePin_select d hi) (transmit_selected B i d [] hcmd hcmdLen)
    (writePin_deselect d hi _) ?_ size
  split
  · next hbuf => rw [hbuf, List.append_nil]; rfl
  · next hbuf => exact transmit_selected B i d cmd hbuf hbufLen

end Lower

/-! ## No frame at all -/

variable (B) in
theorem transmit_idle (hpos : data ≠ []) (hlen : data.length < 65536) :
    B.hal.transmit data (idle d) = some (.ok, idle d) := by
  simp only [hal, total_apply, halSize_eq hlen, if_neg (mt List.length_eq_zero_iff.mp hpos)]
  rfl

variable (B) in
theorem receive_idle (hpos : data ≠ []) (hlen : data.length < 65536) :
    B.hal.receive data (idle d) =
      some ((.ok, List.replicate data.length (B.line fun _ => none)), idle d) := by
  simp only [hal, total_apply, halSize_eq hlen, if_neg (mt List.length_eq_zero_iff.mp hpos),
    List.take_length, List.drop_length, List.append_nil, idle, Option.map_none, List.map_const',
    List.length_range]
  rfl

section Upper

variable (hi : ¬ (B.pin i).val < 8)
include hi

theorem writePin_upper (level : PinState) :
    B.hal.writePin (B.object i).pin.toUInt16 level (idle d) = some ((), idle d) :=
  congrArg (fun w => some ((), w)) (funext fun j => if_pos (object_upper hi j))

theorem read_upper (hcmd : cmd ≠ []) (hcmdLen : cmd.length < 65536) (hbuf : buffer ≠ [])
    (hbufLen : buffer.length < 65536) (size : AddressSize) :
    (B.bus i).read cmd buffer size (idle d) =
      some ((false, List.replicate buffer.length (B.line fun _ => none)), idle d) :=
  readOn_ok hcmd (writePin_upper d hi _) (transmit_idle B d hcmd hcmdLen) (writePin_upper d hi _)
    (receive_idle B d hbuf hbufLen) size

theorem write_upper (hcmd : cmd ≠ []) (hcmdLen : cmd.length < 65536)
    (hbufLen : buffer.length < 65536) (size : AddressSize) :
    (B.bus i).write cmd buffer size (idle d) = some (false, idle d) := by
  refine writeOn_ok hcmd (writePin_upper d hi _) (transmit_idle B d hcmd hcmdLen)
    (writePin_upper d hi _) ?_ size
  split
  · rfl
  · next hbuf => exact transmit_idle B d hbuf hbufLen

end Upper

/-! ## Whole transfers -/

/-- A transfer does to its slave what it does on a bus of its own, and nothing to the others. -/
theorem Transfer.run_isolated (t : Transfer) (B : Board ι δ) (i : ι) (d : ∀ i, δ i) :
    ∃ r d', t.run (B.ownBus i) (d i) = some (r, d') ∧
      t.run (B.bus i) (idle d) = some (r, idle (Function.update d i d')) := by
  have hkeep : idle (Function.update d i (d i)) = idle d := by rw [Function.update_eq_self]
  obtain ⟨isRead, cmd, buffer, size, hcmd, hcmdLen, hbuf, hbufLen⟩ := t
  by_cases hi : (B.pin i).val < 8
  · rw [ownBus, if_pos hi]
    cases isRead with
    | true => exact ⟨_, _, rfl, read_lower d hi hcmd hcmdLen (hbuf rfl) hbufLen size⟩
    | false =>
      have hwrite := write_lower d hi hcmd hcmdLen hbufLen size
      exact ⟨_, _, rfl, congrArg (Option.bind · _) hwrite⟩
  · rw [ownBus, if_neg hi]
    -- the object of an upper pin drives no pin, so no slave hears the frame
    cases isRead with
    | true =>
      have hread := read_upper d hi hcmd hcmdLen (hbuf rfl) hbufLen size
      refine ⟨_, _, rfl, hread.trans ?_⟩
      rw [hkeep]
    | false =>
      have hwrite := write_upper d hi hcmd hcmdLen hbufLen size
      refine ⟨_, _, rfl, (congrArg (Option.bind · _) hwrite).trans ?_⟩
      rw [hkeep]
      rfl

/-! ## Tasks on the board -/

section Tasks

variable {κ : Type} [DecidableEq κ] (owner : ι → κ)

/-- The slaves of a task. -/
abbrev Owned (k : κ) : Type := { i // owner i = k }

/-- A transfer through the object of one of the slaves of a task. -/
abbrev Request (k : κ) : Type := Owned owner k × Transfer

/-- A task: code that makes transfers to the slaves that it owns. -/
abbrev Task (k : κ) (α : Type) : Type := Program (Request owner k) (fun _ => Bool × List UInt8) α

variable (B) {owner} {α : Type}

/-- The request on the board. -/
def serve (k : κ) (r : Request owner k) : Exec (∀ i, Wire (δ i)) (Bool × List UInt8) :=
  r.2.run (B.bus r.1)

/-- The request on the buses that the slaves of the task had if they were alone. -/
def serveAlone (k : κ) (r : Request owner k) :
    Exec (∀ i : Owned owner k, δ i) (Bool × List UInt8) := fun d =>
  (r.2.run (B.ownBus r.1) (d r.1)).map fun x => (x.1, Function.update d r.1 x.2)

/-- The board with these slaves, all of them deselected. -/
def assemble (d : ∀ k, ∀ i : Owned owner k, δ i) : ∀ i, Wire (δ i) :=
  idle fun i => d (owner i) ⟨i, rfl⟩

theorem assemble_update (d : ∀ k, ∀ i : Owned owner k, δ i) {k : κ} (i : Owned owner k)
    (di : δ i) :
    (fun j => Function.update d k (Function.update (d k) i di) (owner j) ⟨j, rfl⟩) =
      Function.update (fun j => d (owner j) ⟨j, rfl⟩) i.1 di := by
  obtain ⟨i, rfl⟩ := i
  -- the owner of `j` is a variable only if `k` is one, too
  have hcast : ∀ (d' : ∀ k, ∀ i : Owned owner k, δ i) {j : ι} {k : κ} (h : owner j = k),
      d' (owner j) ⟨j, rfl⟩ = d' k ⟨j, h⟩ := by
    rintro d' j _ rfl
    rfl
  funext j
  by_cases hj : j = i
  · subst hj
    rw [Function.update_self, Function.update_self, Function.update_self]
  · rw [Function.update_of_ne hj]
    by_cases howner : owner j = owner i
    · have hother : (⟨j, howner⟩ : Owned owner (owner i)) ≠ ⟨i, rfl⟩ :=
        fun h => hj (congrArg Subtype.val h)
      rw [hcast (Function.update d (owner i) (Function.update (d (owner i)) ⟨i, rfl⟩ di)) howner,
        Function.update_self, Function.update_of_ne hother, hcast d howner]
    · rw [Function.update_of_ne howner]

/-- A request does to the slaves of its task what it did if they were alone. -/
theorem serve_isolated (k : κ) (r : Request owner k) (d : ∀ k, ∀ i : Owned owner k, δ i) :
    ∃ x d', B.serveAlone k r (d k) = some (x, d') ∧
      B.serve k r (assemble d) = some (x, assemble (Function.update d k d')) := by
  obtain ⟨i, t⟩ := r
  obtain ⟨x, di, halone, hboard⟩ := t.run_isolated B i fun j => d (owner j) ⟨j, rfl⟩
  refine ⟨x, Function.update (d k) i di, ?_, ?_⟩
  · obtain ⟨i, rfl⟩ := i
    exact congrArg (Option.map _) halone
  · refine hboard.trans (congrArg (fun w => some (x, w)) ?_)
    exact (congrArg idle (assemble_update d i di)).symm

/-- **Tasks that share the bus do not notice each other.** From the deselected board on, and for
any schedule that lets the tasks preempt each other between any two transfers, every transfer
returns, and every task and its slaves are where they had come to on buses of their own; a task that
is done has the result that it has alone. -/
theorem tasks_isolated (tasks : ∀ k, Task owner k α) (schedule : List κ)
    (d : ∀ k, ∀ i : Owned owner k, δ i) :
    ∃ tasks' d', Program.interleave B.serve schedule tasks (assemble d) =
        some (tasks', assemble d') ∧
      ∀ k, Program.advance (B.serveAlone k) (schedule.count k) (tasks k) (d k) =
          some (tasks' k, d' k) ∧
        ∀ a, tasks' k = .done a →
          Program.run (B.serveAlone k) (tasks k) (d k) = some (a, d' k) := by
  obtain ⟨tasks', d', hrun, halone⟩ :=
    Program.interleave_isolated B.serve_isolated schedule tasks d
  refine ⟨tasks', d', hrun, fun k => ⟨halone k, fun a hdone => ?_⟩⟩
  rw [Program.run_of_advance (halone k), hdone]
  rfl

end Tasks

end Board

end CommonDrivers.Spi
