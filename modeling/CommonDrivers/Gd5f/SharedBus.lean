import CommonDrivers.Gd5f.SpiStack
import CommonDrivers.Protocols.SpiBoard

/-! # The flash on a shared bus

The flash chip shares its SPI with other slaves. A call of the driver takes many transfers, and
between any two of them tasks that use the other slaves may make transfers of their own. The driver
and the chip behave all the same as the lockable block device.
-/

namespace CommonDrivers.Gd5f

open Exec Spi Spi.Board

/-! ## A bus that others use, too -/

section Preempted

variable {ι : Type} [DecidableEq ι] {δ : ι → Type} (B : Board ι δ) (i : ι)

/-- A transfer of an object other than that of the slave `i`. -/
abbrev Intruder : Type := { j // j ≠ i } × Transfer

/-- Transfers of other objects, one after the other. -/
def intrude (intruders : List (Intruder i)) : Exec (∀ j, Wire (δ j)) (List (Bool × List UInt8)) :=
  each (fun r => r.2.run (B.bus r.1)) intruders

/-- The bus of the slave `i`, with the transfers `others k` of other objects before its `k`-th. The
state has the number of its transfers so far. -/
def preemptedBus (others : ℕ → List (Intruder i)) : Protocol (ℕ × ∀ j, Wire (δ j)) where
  type := .spi
  read cmd buffer size := fun s =>
    (intrude B i (others s.1) s.2).bind fun x =>
      ((B.bus i).read cmd buffer size x.2).map fun y => (y.1, s.1 + 1, y.2)
  write cmd buffer size := fun s =>
    (intrude B i (others s.1) s.2).bind fun x =>
      ((B.bus i).write cmd buffer size x.2).map fun y => (y.1, s.1 + 1, y.2)
  configure _ := pure false
  readDMA _ := pure true

variable {B i}

/-- Other objects leave the slave alone. -/
theorem intrude_keeps (intruders : List (Intruder i)) (d : ∀ j, δ j) :
    ∃ x d', intrude B i intruders (idle d) = some (x, idle d') ∧ d' i = d i := by
  induction intruders generalizing d with
  | nil => exact ⟨[], d, rfl, rfl⟩
  | cons r intruders ih =>
    obtain ⟨y, dj, -, hfirst⟩ := r.2.run_isolated B r.1 d
    obtain ⟨x, d', hrest, hd'⟩ := ih (Function.update d r.1 dj)
    refine ⟨y :: x, d', ?_, ?_⟩
    · rw [intrude, each, bind_apply, hfirst, Option.bind_some, bind_apply]
      exact congrArg (Option.bind · _) hrest
    · -- the first transfer was to another slave
      rw [hd', Function.update_of_ne r.1.2.symm]

section Transfers

variable (hi : (B.pin i).val < 8) (others : ℕ → List (Intruder i)) (k : ℕ) (d : ∀ j, δ j)
variable {cmd buffer : List UInt8}
include hi

theorem write_preempted (hcmd : cmd ≠ []) (hcmdLen : cmd.length < 65536)
    (hbufLen : buffer.length < 65536) (size : AddressSize) :
    ∃ d', (preemptedBus B i others).write cmd buffer size (k, idle d) =
        some (false, k + 1, idle d') ∧ d' i = (B.slave i).finish (d i) (cmd ++ buffer) := by
  obtain ⟨x, d', hintrude, hd'⟩ := intrude_keeps (B := B) (others k) d
  have hwrite := write_lower d' hi hcmd hcmdLen hbufLen size
  rw [hd'] at hwrite
  refine ⟨Function.update d' i ((B.slave i).finish (d i) (cmd ++ buffer)), ?_,
    Function.update_self ..⟩
  simp only [preemptedBus]
  rw [hintrude, Option.bind_some, hwrite, Option.map_some]

theorem read_preempted (hcmd : cmd ≠ []) (hcmdLen : cmd.length < 65536) (hbuf : buffer ≠ [])
    (hbufLen : buffer.length < 65536) (size : AddressSize) :
    ∃ d', (preemptedBus B i others).read cmd buffer size (k, idle d) =
        some ((false, (B.slave i).reply (d i) cmd buffer), k + 1, idle d') ∧
      d' i = (B.slave i).finish (d i) (cmd ++ buffer) := by
  obtain ⟨x, d', hintrude, hd'⟩ := intrude_keeps (B := B) (others k) d
  have hread := read_lower d' hi hcmd hcmdLen hbuf hbufLen size
  rw [hd'] at hread
  refine ⟨Function.update d' i ((B.slave i).finish (d i) (cmd ++ buffer)), ?_,
    Function.update_self ..⟩
  simp only [preemptedBus]
  rw [hintrude, Option.bind_some, hread, Option.map_some]

end Transfers

/-- All slaves are deselected, and the slave `i` is in this state. -/
def At (i : ι) (s : ℕ × ∀ j, Wire (δ j)) (di : δ i) : Prop := ∃ d, s.2 = idle d ∧ d i = di

/-- For the driver, the shared bus is a bus of whole frames. -/
theorem alike_preempted (hi : (B.pin i).val < 8) (others : ℕ → List (Intruder i))
    (ops : List UInt8) (rows : ℕ → Prop) :
    Alike (At i) (preemptedBus B i others) (slaveBus (B.slave i)) ops rows := by
  refine ⟨rfl, fun _ => Simulates.pure _, ?_, ?_⟩
  · rintro op cmd buffer size - hissued ⟨k, _⟩ _ ⟨d, rfl, rfl⟩
    obtain ⟨hcmd, hcmdLen, hbufLen⟩ := hissued.size
    obtain ⟨d', hwrite, hd'⟩ := write_preempted hi others k d hcmd hcmdLen hbufLen size
    rw [slaveBus_write, hwrite]
    exact .some ⟨rfl, d', rfl, hd'⟩
  · rintro op cmd buffer size - hissued ⟨k, _⟩ _ ⟨d, rfl, rfl⟩
    obtain ⟨hcmd, hcmdLen, hbuf, hbufLen⟩ := hissued.size
    obtain ⟨d', hread, hd'⟩ := read_preempted hi others k d hcmd hcmdLen hbuf hbufLen size
    rw [slaveBus_read, hread]
    exact .some ⟨rfl, d', rfl, hd'⟩

end Preempted

/-! ## The flash among other slaves -/

/-- The chip and other slaves. -/
abbrev WithFlash {ι : Type} (δ : ι → Type) : Option ι → Type
  | none => Chip
  | some j => δ j

variable {ι : Type} [DecidableEq ι] {δ : ι → Type}

/-- **The stack refines the lockable block device on a shared bus, too.** Whatever transfers other
objects make between any two transfers of the driver, any sequence of calls returns what the ideal
device returns and leaves all slaves deselected and the chip with the ideal device's contents and
locks. -/
theorem session_refines_preempted (locks : UInt8 → ℕ → Bool)
    (hlocks : ∀ block, locks 0 block = false) (B : Board (Option ι) (WithFlash δ))
    (hslave : B.slave none = Chip.slave locks) (hpin : (B.pin none).val < 8)
    (others : ℕ → List (Intruder (none : Option ι))) (calls : List Call)
    (d : ∀ j, WithFlash δ j) :
    ∃ n d', each (Call.run (preemptedBus B none others)) calls (0, idle d) =
        some ((steps LockableDevice.apply calls ((d none).lockable locks)).1, (n, idle d')) ∧
      (d' none).lockable locks =
        (steps LockableDevice.apply calls ((d none).lockable locks)).2 := by
  have hcall : ∀ call s e, (∃ c, At none s c ∧ c.lockable locks = e) →
      ∃ s', call.run (preemptedBus B none others) s =
          some ((LockableDevice.apply call e).1, s') ∧
        ∃ c', At none s' c' ∧ c'.lockable locks = (LockableDevice.apply call e).2 := by
    rintro call s _ ⟨c, hs, rfl⟩
    -- the call on a bus of the chip alone, then the same call on the shared bus
    obtain ⟨c', hrun, hc'⟩ := call.run_chip hlocks c
    rw [← hslave] at hrun
    obtain ⟨s', hrun', hs'⟩ := (call.run_simulates fun ops rows =>
      alike_preempted hpin others ops rows).returns hs hrun
    exact ⟨s', hrun', c', hs', hc'⟩
  have hstart : At none (0, idle d) (d none) := ⟨d, rfl, rfl⟩
  obtain ⟨⟨n, _⟩, hrun, _, ⟨d', rfl, rfl⟩, hc'⟩ :=
    each_refines LockableDevice.apply hcall calls ⟨d none, hstart, rfl⟩
  exact ⟨n, d', hrun, hc'⟩

/-- The flash on `GPIO_PIN_4` beside a slave of one register on `GPIO_PIN_6`. -/
def flashAndRegister : Board (Option Unit) (WithFlash fun _ => UInt8) where
  slave
    | none => Chip.slave fun p _ => p != 0
    | some _ => ⟨fun register _ => register, fun _ frame => frame.getD 1 0⟩
  pin
    | none => 4
    | some _ => 6
  pin_injective := by
    have hpins : (4 : Fin 16) ≠ 6 := by decide
    rintro (_ | _) (_ | _) h
    · rfl
    · exact absurd h hpins
    · exact absurd h hpins.symm
    · rfl
  line levels := (levels none).getD ((levels (some ())).getD 0xFF)
  line_single := by
    intro i b
    cases i with
    | none => rfl
    | some _ => rfl

/-- The register is written before every transfer of the driver. -/
theorem session_refines_preempted_probe :
    let write : Transfer :=
      ⟨false, [0x10], [0x5A], .byte, by decide, by decide, Bool.noConfusion, by decide⟩
    let others : ℕ → List (Intruder (none : Option Unit)) :=
      fun _ => [(⟨some (), Option.some_ne_none _⟩, write)]
    let start : ∀ j, WithFlash (fun _ : Unit => UInt8) j
      | none => freshChip
      | some _ => 0
    ∃ n d', each (Call.run (preemptedBus flashAndRegister none others)) probe (0, idle start) =
      some ([.served (.ok, []), .served (.ok, [0xFF]), .started true, .served (.ok, []),
        .served (.ok, [0x5A])], (n, idle d')) := by
  intro write others start
  obtain ⟨n, d', hrun, -⟩ := session_refines_preempted (fun p _ => p != 0) (fun _ => rfl)
    flashAndRegister rfl (by decide) others probe start
  have hstart : start none = freshChip := rfl
  rw [hstart] at hrun
  exact ⟨n, d', hrun⟩

end CommonDrivers.Gd5f
