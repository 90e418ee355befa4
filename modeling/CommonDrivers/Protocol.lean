import Mathlib.Data.Nat.Notation
import CommonDrivers.Lib.Hoare

/-! # The protocol abstraction

`Protocol` is the abstract class that every peripheral implements (`include/protocols/protocol.h`).
Drivers see a bus only through it, so they are modelled once, for every implementation.
-/

namespace CommonDrivers

/-- The type of the protocol, for drivers whose code paths differ between buses. -/
inductive ProtocolType
  | spi
  | uart
  | i2c
  | qspi
deriving DecidableEq, Repr

/-- The width of the address that follows the opcode. -/
inductive AddressSize
  | none
  | byte
  | byte2
  | byte3
  | byte4
deriving DecidableEq, Repr

/-- Run-time configuration of a bus; a bus ignores what it does not recognise. -/
inductive Config
  | qspiData1
  | qspiData4
  | qspiAddress1
  | qspiAddress4
deriving DecidableEq, Repr

/-- The result of a HAL call. -/
inductive HalStatus
  | ok
  | error
  | busy
  | timeout
deriving DecidableEq, Repr

/-- A status returned as a `bool`: every status but `HAL_OK` is non-zero. -/
def HalStatus.toBool : HalStatus → Bool
  | .ok => false
  | _ => true

theorem HalStatus.toBool_of_ne_ok {res : HalStatus} (h : res ≠ .ok) : res.toBool = true := by
  cases res with
  | ok => exact absurd rfl h
  | error => rfl
  | busy => rfl
  | timeout => rfl

/-- A bus whose calls are computations of `m`. Every call returns `true` on error and `false` on
success.

`read cmd buffer size` gets the content of the destination span and returns its content after the
call. -/
structure ProtocolOver (m : Type → Type) where
  type : ProtocolType
  read : List UInt8 → List UInt8 → AddressSize → m (Bool × List UInt8)
  write : List UInt8 → List UInt8 → AddressSize → m Bool
  configure : Config → m Bool
  readDMA : List UInt8 → m Bool

/-- A bus over a state `σ`. -/
abbrev Protocol (σ : Type) := ProtocolOver (StateT σ Option)

/-! ## A bus with a record of its transfers -/

/-- A transfer: the state of the bus when it began, its command, and whether it failed. -/
structure Sent (σ : Type) where
  before : σ
  cmd : List UInt8
  failed : Bool
deriving DecidableEq, Repr

/-- The first byte of the command. -/
def Sent.opcode {σ : Type} (e : Sent σ) : Option UInt8 := e.cmd.head?

/-- `P` with a record of the transfers made over it. -/
def Protocol.traced {σ : Type} (P : Protocol σ) : Protocol (σ × List (Sent σ)) where
  type := P.type
  read cmd buffer size := fun s =>
    (P.read cmd buffer size s.1).map fun r => (r.1, r.2, s.2 ++ [⟨s.1, cmd, r.1.1⟩])
  write cmd buffer size := fun s =>
    (P.write cmd buffer size s.1).map fun r => (r.1, r.2, s.2 ++ [⟨s.1, cmd, r.1⟩])
  configure c := fun s => (P.configure c s.1).map fun r => (r.1, r.2, s.2)
  readDMA buffer := fun s => (P.readDMA buffer s.1).map fun r => (r.1, r.2, s.2)

section Traced

variable {σ : Type} (P : Protocol σ) (cmd buffer : List UInt8) (size : AddressSize)
variable (s : σ × List (Sent σ))

@[simp] theorem Protocol.traced_type : P.traced.type = P.type := rfl

@[simp] theorem Protocol.traced_read :
    P.traced.read cmd buffer size s =
      (P.read cmd buffer size s.1).map fun r => (r.1, r.2, s.2 ++ [⟨s.1, cmd, r.1.1⟩]) := rfl

@[simp] theorem Protocol.traced_write :
    P.traced.write cmd buffer size s =
      (P.write cmd buffer size s.1).map fun r => (r.1, r.2, s.2 ++ [⟨s.1, cmd, r.1⟩]) := rfl

@[simp] theorem Protocol.traced_configure (c : Config) :
    P.traced.configure c s = (P.configure c s.1).map fun r => (r.1, r.2, s.2) := rfl

end Traced

/-! ## A bus that keeps its state -/

/-- `P` for code that keeps its state when it aborts. A call of `P` that aborts has done nothing. -/
def Protocol.kept {σ : Type} (P : Protocol σ) : ProtocolOver (OptionT (StateM σ)) where
  type := P.type
  read cmd buffer size := Kept.atomic (P.read cmd buffer size)
  write cmd buffer size := Kept.atomic (P.write cmd buffer size)
  configure c := Kept.atomic (P.configure c)
  readDMA buffer := Kept.atomic (P.readDMA buffer)

/-! ## A bus with a script of failures

To quantify over every way in which the transfers of a call can fail, the script fixes the outcome
of each transfer by its position in the run. The state of the bus lists the outcomes so far.
-/

/-- A bus whose `k`-th transfer fails exactly if `fails k`; `reply k` is what the `k`-th transfer,
if it is a read, leaves in its destination. -/
def scriptedBus (t : ProtocolType) (fails : ℕ → Bool) (reply : ℕ → List UInt8 → List UInt8) :
    Protocol (List Bool) where
  type := t
  read _ buffer _ := Exec.total fun log =>
    ((fails log.length, reply log.length buffer), log ++ [fails log.length])
  write _ _ _ := Exec.total fun log => (fails log.length, log ++ [fails log.length])
  configure _ := pure false
  readDMA _ := Exec.total fun log => (fails log.length, log ++ [fails log.length])

section ScriptedBus

variable (t : ProtocolType) (fails : ℕ → Bool) (reply : ℕ → List UInt8 → List UInt8)
variable (cmd buffer : List UInt8) (size : AddressSize) (log : List Bool)

@[simp] theorem scriptedBus_type : (scriptedBus t fails reply).type = t := rfl

@[simp] theorem scriptedBus_read :
    (scriptedBus t fails reply).read cmd buffer size log =
      some ((fails log.length, reply log.length buffer), log ++ [fails log.length]) := rfl

@[simp] theorem scriptedBus_write :
    (scriptedBus t fails reply).write cmd buffer size log =
      some (fails log.length, log ++ [fails log.length]) := rfl

@[simp] theorem scriptedBus_configure (c : Config) :
    (scriptedBus t fails reply).configure c log = some (false, log) := rfl

@[simp] theorem scriptedBus_readDMA :
    (scriptedBus t fails reply).readDMA buffer log =
      some (fails log.length, log ++ [fails log.length]) := rfl

end ScriptedBus

/-- The outcomes that a script gives to `n` transfers from transfer `start` on. -/
def outcomes (fails : ℕ → Bool) (start n : ℕ) : List Bool := (List.range' start n).map fails

theorem outcomes_add (fails : ℕ → Bool) (start m n : ℕ) :
    outcomes fails start (m + n) = outcomes fails start m ++ outcomes fails (start + m) n := by
  rw [outcomes, outcomes, outcomes, ← List.map_append, List.range'_append_1]

theorem true_mem_outcomes {fails : ℕ → Bool} {start n : ℕ} :
    true ∈ outcomes fails start n ↔ ∃ k < n, fails (start + k) = true := by
  simp only [outcomes, List.mem_map, List.mem_range'_1]
  constructor
  · rintro ⟨k, ⟨hlo, hhi⟩, hk⟩
    exact ⟨k - start, by omega, by rwa [Nat.add_sub_cancel' hlo]⟩
  · rintro ⟨k, hk, hfail⟩
    exact ⟨start + k, ⟨by omega, by omega⟩, hfail⟩

end CommonDrivers
