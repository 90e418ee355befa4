import CommonDrivers.Protocol

/-! # UART

`UART` of `include/protocols/uart.h` and `src/protocols/uart.cpp` over any HAL. The HAL, the DMA and
the receiving hardware are no part of the repository: they are parameters, and `ReceivesToIdle` and
`EndsAtIdle` are what their documentation promises.
-/

namespace CommonDrivers.Uart

open Exec

/-- The HAL calls of a `UART` object over a state `ρ` of the hardware. -/
structure Hal (ρ : Type) where
  transmit : List UInt8 → Exec ρ HalStatus
  receive : List UInt8 → Exec ρ (HalStatus × List UInt8)
  receiveToIdleDma : List UInt8 → Exec ρ HalStatus

section Calls

variable {ρ : Type} (hal : Hal ρ)

def read (cmd buffer : List UInt8) (_size : AddressSize) : Exec ρ (Bool × List UInt8) := do
  assert (cmd = [])
  let res ← hal.receive buffer
  return (res.1.toBool, res.2)

def write (cmd buffer : List UInt8) (_size : AddressSize) : Exec ρ Bool := do
  assert (cmd = [])
  let res ← hal.transmit buffer
  return res.toBool

def readDMA (buffer : List UInt8) : Exec ρ Bool := do
  let res ← hal.receiveToIdleDma buffer
  return res.toBool

/-- The protocol of a `UART` object; `configure` is that of the base class. -/
def bus : Protocol ρ where
  type := .uart
  read := read hal
  write := write hal
  configure _ := pure false
  readDMA := readDMA hal

end Calls

section Applied

variable {ρ : Type} (hal : Hal ρ) (s : ρ)

theorem bus_write (data : List UInt8) (size : AddressSize) :
    (bus hal).write [] data size s = (hal.transmit data s).map fun r => (r.1.toBool, r.2) := by
  change (write hal [] data size) s = _
  rw [write, bind_apply, assert_apply rfl, Option.bind_some, bind_apply]
  cases hal.transmit data s with
  | none => rfl
  | some r => rfl

theorem bus_readDMA (buffer : List UInt8) :
    (bus hal).readDMA buffer s =
      (hal.receiveToIdleDma buffer s).map fun r => (r.1.toBool, r.2) := by
  change (readDMA hal buffer) s = _
  rw [readDMA, bind_apply]
  cases hal.receiveToIdleDma buffer s with
  | none => rfl
  | some r => rfl

end Applied

/-! ## The receiving side -/

/-- What the program does not control, over a state `ρ` of the hardware: a byte arrives, or the line
falls idle. Seen from the program there are the memory that a reception fills, and how many bytes a
running reception has stored. -/
structure Line (ρ : Type) where
  arrive : UInt8 → ρ → ρ
  pause : ρ → ρ
  memory : ρ → List UInt8
  received : ρ → Option ℕ

/-- What the HAL documents about a reception to idle: a transmit leaves the receiving side alone; a
start that returns `HAL_OK` begins a reception with no byte stored, any other starts none; the bytes
that arrive during a reception are stored one behind the other; and without a reception nothing is
stored. -/
structure ReceivesToIdle {ρ : Type} (hal : Hal ρ) (line : Line ρ) : Prop where
  transmit_keeps : ∀ data s, ∃ res s', hal.transmit data s = some (res, s') ∧
    line.memory s' = line.memory s ∧ line.received s' = line.received s
  start : ∀ s, line.received s = none →
    ∃ res s', hal.receiveToIdleDma (line.memory s) s = some (res, s') ∧
      line.memory s' = line.memory s ∧ line.received s' = if res = .ok then some 0 else none
  arrive_stored : ∀ b s n, line.received s = some n → n + 1 < (line.memory s).length →
    line.memory (line.arrive b s) = (line.memory s).set n b ∧
      line.received (line.arrive b s) = some (n + 1)
  arrive_unheard : ∀ b s, line.received s = none →
    line.memory (line.arrive b s) = line.memory s ∧ line.received (line.arrive b s) = none
  pause_unheard : ∀ s, line.received s = none →
    line.memory (line.pause s) = line.memory s ∧ line.received (line.pause s) = none

/-- What the HAL documents about a DMA in normal mode: a reception ends with the byte that fills the
memory, or before, when the line falls idle; it does not start over. -/
structure EndsAtIdle {ρ : Type} (line : Line ρ) : Prop where
  arrive_last : ∀ b s n, line.received s = some n → (line.memory s).length ≤ n + 1 →
    line.memory (line.arrive b s) = (line.memory s).set n b ∧
      line.received (line.arrive b s) = none
  pause_ends : ∀ s n, line.received s = some n → line.memory (line.pause s) = line.memory s ∧
    (line.received (line.pause s) = none ∨ line.received (line.pause s) = some n)

/-! ## A line to try it on -/

/-- The memory, the bytes that a running reception has stored, and the outcomes of the transmits
that are still to come. -/
structure Simulated where
  memory : List UInt8
  received : Option ℕ
  outcomes : List HalStatus

namespace Simulated

/-- A HAL whose transmits end as listed, and whose starts fail only during a reception. -/
def hal : Hal Simulated where
  transmit _ := total fun s => (s.outcomes.headD .ok, { s with outcomes := s.outcomes.tail })
  receive buffer := pure (.ok, buffer)
  receiveToIdleDma _ := total fun s =>
    match s.received with
    | some _ => (.busy, s)
    | none => (.ok, { s with received := some 0 })

/-- A line with a DMA in normal mode. -/
def line : Line Simulated where
  memory := memory
  received := received
  arrive b s :=
    match s.received with
    | none => s
    | some n =>
      { s with
        memory := s.memory.set n b
        received := if n + 1 < s.memory.length then some (n + 1) else none }
  pause s :=
    match s.received with
    | some (_ + 1) => { s with received := none }
    | _ => s

theorem receivesToIdle : ReceivesToIdle hal line where
  transmit_keeps data s := ⟨_, _, rfl, rfl, rfl⟩
  start := by
    rintro ⟨memory, received, outcomes⟩ rfl
    exact ⟨_, _, rfl, rfl, rfl⟩
  arrive_stored := by
    rintro b ⟨memory, received, outcomes⟩ n rfl hroom
    exact ⟨rfl, if_pos hroom⟩
  arrive_unheard := by
    rintro b ⟨memory, received, outcomes⟩ rfl
    exact ⟨rfl, rfl⟩
  pause_unheard := by
    rintro ⟨memory, received, outcomes⟩ rfl
    exact ⟨rfl, rfl⟩

theorem endsAtIdle : EndsAtIdle line where
  arrive_last := by
    rintro b ⟨memory, received, outcomes⟩ n rfl hfull
    exact ⟨rfl, if_neg (Nat.not_lt.mpr hfull)⟩
  pause_ends := by
    rintro ⟨memory, received, outcomes⟩ n rfl
    cases n with
    | zero => exact ⟨rfl, .inr rfl⟩
    | succ n => exact ⟨rfl, .inl rfl⟩

end Simulated

end CommonDrivers.Uart
