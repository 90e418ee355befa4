import CommonDrivers.Lib.Simulation
import CommonDrivers.Protocols.Spi

/-! # A slave at the other end of the SPI

`Spi.read` and `Spi.write` over any hardware, and the hardware with a slave on it that listens while
its chip select is low. `Slave` is a device as it sees the wire, byte by byte. An object whose pin
is the chip select turns it into a bus of whole frames; an object with another pin never reaches
it.
-/

namespace CommonDrivers.Spi

open Exec

/-! ## The calls over any hardware -/

/-- The HAL calls of an `SPI` object over a state `ρ` of the hardware. -/
structure Hal (ρ : Type) where
  writePin : UInt16 → PinState → Exec ρ Unit
  transmit : List UInt8 → Exec ρ HalStatus
  receive : List UInt8 → Exec ρ (HalStatus × List UInt8)

section Calls

variable {ρ : Type} (hal : Hal ρ) (spi : Spi)

def guardedOn {α : Type} (pin : UInt16) (body : Exec ρ α) : Exec ρ α := do
  hal.writePin pin .reset
  let res ← body
  hal.writePin pin .set
  return res

def readOn (cmd buffer : List UInt8) (_size : AddressSize) : Exec ρ (Bool × List UInt8) := do
  assert (cmd ≠ [])
  guardedOn hal spi.pin.toUInt16 do
    let res ← hal.transmit cmd
    if res ≠ .ok then
      return (res.toBool, buffer)
    let res ← hal.receive buffer
    return (res.1.toBool, res.2)

def writeOn (cmd buffer : List UInt8) (_size : AddressSize) : Exec ρ Bool := do
  assert (cmd ≠ [])
  guardedOn hal spi.pin.toUInt16 do
    let res ← hal.transmit cmd
    if res ≠ .ok then
      return res.toBool
    if !buffer.isEmpty then
      let res ← hal.transmit buffer
      return res.toBool
    return res.toBool

section Steps

variable {hal spi} {cmd buffer reply : List UInt8} {s selected sent received final : ρ}
variable (hcmd : cmd ≠ [])
  (hlow : hal.writePin spi.pin.toUInt16 .reset s = some ((), selected))
  (hsent : hal.transmit cmd selected = some (.ok, sent))
  (hhigh : hal.writePin spi.pin.toUInt16 .set received = some ((), final))
include hcmd hlow hsent hhigh

/-- A read whose HAL calls all succeed. -/
theorem readOn_ok (hreceived : hal.receive buffer sent = some ((.ok, reply), received))
    (size : AddressSize) : readOn hal spi cmd buffer size s = some ((false, reply), final) := by
  rw [readOn, bind_apply, assert_apply hcmd, Option.bind_some]
  simp only [guardedOn, bind_apply, hlow, hsent, Option.bind_some, ne_eq, not_true_eq_false,
    if_false, hreceived, pure_apply, hhigh]
  rfl

/-- A write whose HAL calls all succeed; without data the second transmit is not made. -/
theorem writeOn_ok (hdata : if buffer = [] then received = sent
      else hal.transmit buffer sent = some (.ok, received))
    (size : AddressSize) : writeOn hal spi cmd buffer size s = some (false, final) := by
  rw [writeOn, bind_apply, assert_apply hcmd, Option.bind_some]
  cases buffer with
  | nil =>
    obtain rfl := hdata
    simp only [guardedOn, bind_apply, hlow, hsent, Option.bind_some, ne_eq, not_true_eq_false,
      if_false, List.isEmpty_nil, Bool.not_true, Bool.false_eq_true, pure_apply, hhigh]
    rfl
  | cons b rest =>
    rw [if_neg (List.cons_ne_nil b rest)] at hdata
    simp only [guardedOn, bind_apply, hlow, hsent, Option.bind_some, ne_eq, not_true_eq_false,
      if_false, List.isEmpty_cons, Bool.not_false, if_true, hdata, pure_apply, hhigh]
    rfl

end Steps

/-- The protocol of an `SPI` object on the hardware. -/
def busOn : Protocol ρ where
  type := .spi
  read := readOn hal spi
  write := writeOn hal spi
  configure _ := pure false
  readDMA _ := pure true

end Calls

/-- The hardware that records its calls. -/
def scriptedHal (script : SpiScript) : Hal SpiPort where
  writePin := halGpioWritePin
  transmit := halSpiTransmit script
  receive := halSpiReceive script

theorem busOn_scriptedHal (script : SpiScript) (spi : Spi) :
    busOn (scriptedHal script) spi = bus script spi := rfl

/-! ## The slave -/

/-- A device on the wire: the byte that it shifts out behind the bytes `frame` of a frame, and what
a whole frame has done to it when it is deselected. -/
structure Slave (δ : Type) where
  output : δ → List UInt8 → UInt8
  finish : δ → List UInt8 → δ

variable {δ : Type}

/-- What the slave shifts out behind `frame` while `buffer` is shifted in. -/
def Slave.reply (S : Slave δ) (d : δ) (frame buffer : List UInt8) : List UInt8 :=
  (List.range buffer.length).map fun k => S.output d (frame ++ buffer.take k)

/-- The slave and the bytes since its selection, if it is selected. -/
structure Wire (δ : Type) where
  dev : δ
  frame : Option (List UInt8)

/-- The slave, deselected. -/
abbrev Wire.idle (d : δ) : Wire δ := ⟨d, none⟩

/-- Driving the chip select low starts a frame, driving it high ends it. -/
def Wire.drive (S : Slave δ) (level : PinState) (w : Wire δ) : Wire δ :=
  match level, w.frame with
  | .reset, none => ⟨w.dev, some []⟩
  | .set, some frame => ⟨S.finish w.dev frame, none⟩
  | _, _ => w

/-- How many bytes the HAL moves: it takes the size as a `uint16_t` and refuses 0. -/
def halSize (data : List UInt8) : ℕ := (UInt16.ofNat data.length).toNat

/-- Hardware with the slave on it, whose chip select is the pin `cs`. No transfer fails on the way.
While the slave is not selected nothing drives the input, which then reads `floating`. -/
def wireHal (S : Slave δ) (cs : UInt16) (floating : UInt8) : Hal (Wire δ) where
  writePin mask level := total fun w => ((), if mask &&& cs = 0 then w else w.drive S level)
  transmit data := total fun w =>
    if halSize data = 0 then (.error, w)
    else (.ok, { w with frame := w.frame.map (· ++ data.take (halSize data)) })
  receive buffer := total fun w =>
    if halSize buffer = 0 then ((.error, buffer), w)
    else
      let sent := buffer.take (halSize buffer)
      let input := match w.frame with
        | some frame => S.reply w.dev frame sent
        | none => List.replicate sent.length floating
      ((.ok, input ++ buffer.drop (halSize buffer)), { w with frame := w.frame.map (· ++ sent) })

/-- The slave as a bus of whole frames. -/
def slaveBus (S : Slave δ) : Protocol δ where
  type := .spi
  read cmd buffer _ := total fun d => ((false, S.reply d cmd buffer), S.finish d (cmd ++ buffer))
  write cmd buffer _ := total fun d => (false, S.finish d (cmd ++ buffer))
  configure _ := pure false
  readDMA _ := pure true

section SlaveBus

variable (S : Slave δ) (cmd buffer : List UInt8) (size : AddressSize) (d : δ)

@[simp] theorem slaveBus_read :
    (slaveBus S).read cmd buffer size d =
      some ((false, S.reply d cmd buffer), S.finish d (cmd ++ buffer)) := rfl

@[simp] theorem slaveBus_write :
    (slaveBus S).write cmd buffer size d = some (false, S.finish d (cmd ++ buffer)) := rfl

@[simp] theorem slaveBus_configure (c : Config) :
    (slaveBus S).configure c d = some (false, d) := rfl

end SlaveBus

/-- The bus of an object that reaches no slave: every transfer succeeds, and the input floats. -/
def floatingBus (δ : Type) (floating : UInt8) : Protocol δ where
  type := .spi
  read _ buffer _ := total fun d => ((false, List.replicate buffer.length floating), d)
  write _ _ _ := pure false
  configure _ := pure false
  readDMA _ := pure true

section FloatingBus

variable (floating : UInt8) (cmd buffer : List UInt8) (size : AddressSize) (d : δ)

@[simp] theorem floatingBus_read :
    (floatingBus δ floating).read cmd buffer size d =
      some ((false, List.replicate buffer.length floating), d) := rfl

@[simp] theorem floatingBus_write :
    (floatingBus δ floating).write cmd buffer size d = some (false, d) := rfl

@[simp] theorem floatingBus_configure (c : Config) :
    (floatingBus δ floating).configure c d = some (false, d) := rfl

end FloatingBus

/-! ## Transfers that fit the HAL -/

/-- A transfer whose bytes fit into the `uint16_t` of the HAL. -/
theorem halSize_eq {data : List UInt8} (h : data.length < 65536) : halSize data = data.length := by
  rw [halSize, UInt16.toNat_ofNat']
  exact Nat.mod_eq_of_lt h

section Wired

variable (S : Slave δ) {cs : UInt16} (floating : UInt8) {data : List UInt8}

theorem transmit_wire (hpos : data ≠ []) (hlen : data.length < 65536) (w : Wire δ) :
    (wireHal S cs floating).transmit data w =
      some (.ok, { w with frame := w.frame.map (· ++ data) }) := by
  simp only [wireHal, total_apply, halSize_eq hlen, if_neg (mt List.length_eq_zero_iff.mp hpos),
    List.take_length]

theorem receive_wire (hpos : data ≠ []) (hlen : data.length < 65536) (d : δ)
    (frame : List UInt8) :
    (wireHal S cs floating).receive data ⟨d, some frame⟩ =
      some ((.ok, S.reply d frame data), ⟨d, some (frame ++ data)⟩) := by
  simp only [wireHal, total_apply, halSize_eq hlen, if_neg (mt List.length_eq_zero_iff.mp hpos),
    List.take_length, List.drop_length, List.append_nil, Option.map_some]

theorem receive_floating (hpos : data ≠ []) (hlen : data.length < 65536) (d : δ) :
    (wireHal S cs floating).receive data (.idle d) =
      some ((.ok, List.replicate data.length floating), .idle d) := by
  simp only [wireHal, total_apply, halSize_eq hlen, if_neg (mt List.length_eq_zero_iff.mp hpos),
    List.take_length, List.drop_length, List.append_nil, Option.map_none]

variable {spi : Spi} {cmd buffer : List UInt8}

/-! ## An object with the slave's pin -/

section Selected

variable (hcs : spi.pin.toUInt16 &&& cs ≠ 0)
include hcs

theorem writePin_select (d : δ) :
    (wireHal S cs floating).writePin spi.pin.toUInt16 .reset (.idle d) =
      some ((), ⟨d, some []⟩) := by
  simp only [wireHal, total_apply, if_neg hcs, Wire.drive]

theorem writePin_deselect (d : δ) (frame : List UInt8) :
    (wireHal S cs floating).writePin spi.pin.toUInt16 .set ⟨d, some frame⟩ =
      some ((), .idle (S.finish d frame)) := by
  simp only [wireHal, total_apply, if_neg hcs, Wire.drive]

theorem readOn_wire (hcmd : cmd ≠ []) (hcmdLen : cmd.length < 65536) (hbuf : buffer ≠ [])
    (hbufLen : buffer.length < 65536) (size : AddressSize) (d : δ) :
    readOn (wireHal S cs floating) spi cmd buffer size (.idle d) =
      some ((false, S.reply d cmd buffer), .idle (S.finish d (cmd ++ buffer))) :=
  readOn_ok hcmd (writePin_select S floating hcs d) (transmit_wire S floating hcmd hcmdLen _)
    (writePin_deselect S floating hcs d _) (receive_wire S floating hbuf hbufLen d cmd) size

theorem writeOn_wire (hcmd : cmd ≠ []) (hcmdLen : cmd.length < 65536)
    (hbufLen : buffer.length < 65536) (size : AddressSize) (d : δ) :
    writeOn (wireHal S cs floating) spi cmd buffer size (.idle d) =
      some (false, .idle (S.finish d (cmd ++ buffer))) := by
  refine writeOn_ok hcmd (writePin_select S floating hcs d)
    (transmit_wire S floating hcmd hcmdLen _) (writePin_deselect S floating hcs d _) ?_ size
  split
  · next hbuf => rw [hbuf, List.append_nil]; rfl
  · next hbuf => exact transmit_wire S floating hbuf hbufLen _

end Selected

/-! ## An object with another pin -/

section Unselected

variable (hcs : spi.pin.toUInt16 &&& cs = 0)
include hcs

theorem writePin_floating (level : PinState) (d : δ) :
    (wireHal S cs floating).writePin spi.pin.toUInt16 level (.idle d) = some ((), .idle d) := by
  simp only [wireHal, total_apply, if_pos hcs]

/-- The transfer succeeds, and what it returns nobody has sent. -/
theorem readOn_floating (hcmd : cmd ≠ []) (hcmdLen : cmd.length < 65536) (hbuf : buffer ≠ [])
    (hbufLen : buffer.length < 65536) (size : AddressSize) (d : δ) :
    readOn (wireHal S cs floating) spi cmd buffer size (.idle d) =
      some ((false, List.replicate buffer.length floating), .idle d) :=
  readOn_ok hcmd (writePin_floating S floating hcs _ d) (transmit_wire S floating hcmd hcmdLen _)
    (writePin_floating S floating hcs _ d) (receive_floating S floating hbuf hbufLen d) size

/-- The transfer succeeds, and nobody has heard it. -/
theorem writeOn_floating (hcmd : cmd ≠ []) (hcmdLen : cmd.length < 65536)
    (hbufLen : buffer.length < 65536) (size : AddressSize) (d : δ) :
    writeOn (wireHal S cs floating) spi cmd buffer size (.idle d) = some (false, .idle d) := by
  refine writeOn_ok hcmd (writePin_floating S floating hcs _ d)
    (transmit_wire S floating hcmd hcmdLen _) (writePin_floating S floating hcs _ d) ?_ size
  split
  · rfl
  · next hbuf => exact transmit_wire S floating hbuf hbufLen _

end Unselected

end Wired

/-! ## The pins of an object -/

/-- The object of a pin drives this pin if it is one of the lower eight, and none otherwise. -/
theorem new_gpioPin_and (k : Fin 16) :
    (new (gpioPin k)).pin.toUInt16 &&& gpioPin k ≠ 0 ↔ k.val < 8 := by
  revert k
  decide

end CommonDrivers.Spi
