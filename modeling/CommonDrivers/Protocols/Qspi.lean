import CommonDrivers.Lib.Run
import CommonDrivers.Protocol

/-! # QSPI

The `QSPI` object of `include/protocols/qspi.h` and the command that `src/protocols/qspi.cpp` builds
for a transfer. The constants of the HAL are no part of the repository, so they are a parameter.
`configure_cmd` reads `data_mode`, `address_mode` and `buffer`, which are the fields of the object
and the buffer of the call.
-/

namespace CommonDrivers

/-- The constants of the HAL that the code uses. -/
structure QspiHal where
  address8Bits : UInt32
  address16Bits : UInt32
  address24Bits : UInt32
  address32Bits : UInt32
  addressNone : UInt32
  address1Line : UInt32
  address4Lines : UInt32
  data1Line : UInt32
  data4Lines : UInt32
  dataNone : UInt32
  instruction1Line : UInt32
  alternateBytesNone : UInt32

/-- The fields of `QSPI_CommandTypeDef` that the code sets. -/
structure QspiCommand where
  instruction : UInt32
  address : UInt32
  addressSize : UInt32
  dummyCycles : UInt32
  instructionMode : UInt32
  addressMode : UInt32
  alternateByteMode : UInt32
  dataMode : UInt32
  nbData : UInt32
deriving DecidableEq, Repr

/-- `static_cast<std::size_t>(size)`, the number of address bytes. -/
def AddressSize.toNat : AddressSize → ℕ
  | .none => 0
  | .byte => 1
  | .byte2 => 2
  | .byte3 => 3
  | .byte4 => 4

theorem AddressSize.toNat_le (size : AddressSize) : size.toNat ≤ 4 := by
  cases size <;> decide

/-- The line modes of a `QSPI` object. -/
structure Qspi where
  dataMode : UInt32
  addressMode : UInt32
deriving DecidableEq, Repr

namespace Qspi

variable (hal : QspiHal)

/-- The constants as ST's HAL defines them. -/
def stm32 : QspiHal where
  address8Bits := 0x00000000
  address16Bits := 0x00001000
  address24Bits := 0x00002000
  address32Bits := 0x00003000
  addressNone := 0x00000000
  address1Line := 0x00000400
  address4Lines := 0x00000C00
  data1Line := 0x01000000
  data4Lines := 0x03000000
  dataNone := 0x00000000
  instruction1Line := 0x00000100
  alternateBytesNone := 0x00000000

/-- A freshly constructed object. -/
def fresh : Qspi := ⟨hal.data4Lines, hal.address1Line⟩

def configure (config : Config) (q : Qspi) : Bool × Qspi :=
  match config with
  | .qspiData1 => (false, { q with dataMode := hal.data1Line })
  | .qspiData4 => (false, { q with dataMode := hal.data4Lines })
  | .qspiAddress1 => (false, { q with addressMode := hal.address1Line })
  | .qspiAddress4 => (false, { q with addressMode := hal.address4Lines })

/-- The object after a sequence of `configure` calls. -/
def configured (configs : List Config) : Qspi :=
  Run.run (fun q config => (q.configure hal config).2) (fresh hal) configs

/-- Both modes are always one of the two that `configure` sets. -/
theorem configured_modes (configs : List Config) :
    ((configured hal configs).dataMode = hal.data1Line ∨
        (configured hal configs).dataMode = hal.data4Lines) ∧
      ((configured hal configs).addressMode = hal.address1Line ∨
        (configured hal configs).addressMode = hal.address4Lines) := by
  refine Run.run_invariant (I := fun q : Qspi =>
    (q.dataMode = hal.data1Line ∨ q.dataMode = hal.data4Lines) ∧
      (q.addressMode = hal.address1Line ∨ q.addressMode = hal.address4Lines)) ?_ ?_ configs
  · rintro q config ⟨hdata, haddress⟩
    cases config with
    | qspiData1 => exact ⟨Or.inl rfl, haddress⟩
    | qspiData4 => exact ⟨Or.inr rfl, haddress⟩
    | qspiAddress1 => exact ⟨hdata, Or.inl rfl⟩
    | qspiAddress4 => exact ⟨hdata, Or.inr rfl⟩
  · exact ⟨Or.inr rfl, Or.inl rfl⟩

/-! ## The command of a transfer -/

def getAddressSize : AddressSize → UInt32
  | .byte => hal.address8Bits
  | .byte2 => hal.address16Bits
  | .byte3 => hal.address24Bits
  | .byte4 => hal.address32Bits
  | .none => hal.addressNone

def dummycyclePerByte (datalines : UInt32) : Option UInt32 :=
  if datalines = hal.address1Line then some 4
  else if datalines = hal.address4Lines then some 2
  else none

/-- Byte `i` of the address, from the least significant one, comes last in the command. -/
def getAddress (cmd : List UInt8) (size : AddressSize) : Option UInt32 :=
  let numbytes := size.toNat
  if numbytes < cmd.length then
    some ((List.range numbytes).foldl
      (fun address i =>
        address ||| (cmd.getD (numbytes - i) 0).toUInt32 <<< UInt32.ofNat (8 * i)) 0)
  else none

/-- The first part of `configure_cmd`: instruction and address. -/
def configureAddress (q : Qspi) (cmd : List UInt8) (size : AddressSize) (qcmd : QspiCommand) :
    Option QspiCommand := do
  let instruction ← cmd[0]?
  let qcmd := { qcmd with
    instruction := instruction.toUInt32
    addressMode := q.addressMode
    addressSize := getAddressSize hal size }
  if qcmd.addressSize ≠ hal.addressNone then
    let address ← getAddress cmd size
    return { qcmd with address := address }
  else
    return { qcmd with addressMode := hal.addressNone }

/-- The command for a transfer of `buffer`; `qcmd` is the uninitialised struct of the caller. Aborts
on a failed assertion. -/
def configureCmd (q : Qspi) (cmd buffer : List UInt8) (size : AddressSize) (qcmd : QspiCommand) :
    Option QspiCommand := do
  let qcmd ← configureAddress hal q cmd size qcmd
  let mult ← dummycyclePerByte hal q.dataMode
  let dummyCycles := (UInt32.ofNat cmd.length - 1 - UInt32.ofNat size.toNat) * mult
  if dummyCycles < 12 then
    let qcmd := { qcmd with dummyCycles := dummyCycles, dataMode := q.dataMode }
    let qcmd :=
      if !buffer.isEmpty then { qcmd with nbData := UInt32.ofNat buffer.length }
      else { qcmd with dataMode := hal.dataNone }
    return { qcmd with
      instructionMode := hal.instruction1Line
      alternateByteMode := hal.alternateBytesNone }
  else none

/-! ## Transfers -/

/-- A HAL call. -/
inductive Event
  | command (qcmd : QspiCommand)
  | receive
  | transmit (data : List UInt8)

/-- The outcomes of the HAL calls by their position, and what a receive leaves in its
destination. -/
structure Script where
  status : ℕ → HalStatus
  reply : ℕ → List UInt8 → List UInt8

variable (script : Script)

def halQspiCommand (qcmd : QspiCommand) : Exec (List Event) HalStatus :=
  Exec.total fun log => (script.status log.length, log ++ [.command qcmd])

def halQspiReceive (buffer : List UInt8) : Exec (List Event) (HalStatus × List UInt8) :=
  Exec.total fun log =>
    ((script.status log.length, script.reply log.length buffer), log ++ [.receive])

def halQspiTransmit (data : List UInt8) : Exec (List Event) HalStatus :=
  Exec.total fun log => (script.status log.length, log ++ [.transmit data])

def read (uninit : QspiCommand) (q : Qspi) (cmd buffer : List UInt8) (size : AddressSize) :
    Exec (List Event) (Bool × List UInt8) := do
  let qcmd ← StateT.lift (configureCmd hal q cmd buffer size uninit)
  let res ← halQspiCommand script qcmd
  if res ≠ .ok then
    return (res.toBool, buffer)
  let res ← halQspiReceive script buffer
  return (res.1.toBool, res.2)

def write (uninit : QspiCommand) (q : Qspi) (cmd buffer : List UInt8) (size : AddressSize) :
    Exec (List Event) Bool := do
  let qcmd ← StateT.lift (configureCmd hal q cmd buffer size uninit)
  let res ← halQspiCommand script qcmd
  if res ≠ .ok then
    return res.toBool
  if !buffer.isEmpty then
    let res ← halQspiTransmit script buffer
    return res.toBool
  return res.toBool

/-! ## The bus -/

/-- What the two transfers of a `QSPI` object do, over a state `ρ` of the HAL. Like `read` and
`write` they get the modes of the object and do not change them. -/
structure Transfers (ρ : Type) where
  read : Qspi → List UInt8 → List UInt8 → AddressSize → Exec ρ (Bool × List UInt8)
  write : Qspi → List UInt8 → List UInt8 → AddressSize → Exec ρ Bool

/-- The protocol of a `QSPI` object. -/
def bus {ρ : Type} (T : Transfers ρ) : Protocol (Qspi × ρ) where
  type := .qspi
  read cmd buffer size := fun s =>
    (T.read s.1 cmd buffer size s.2).map fun r => (r.1, s.1, r.2)
  write cmd buffer size := fun s =>
    (T.write s.1 cmd buffer size s.2).map fun r => (r.1, s.1, r.2)
  configure config := Exec.total fun s =>
    ((s.1.configure hal config).1, (s.1.configure hal config).2, s.2)
  readDMA _ := pure true

/-- Transfers of which the `k`-th fails exactly if `fails k`. -/
def scripted (fails : ℕ → Bool) (reply : ℕ → List UInt8 → List UInt8) : Transfers ℕ where
  read _ _ buffer _ := Exec.total fun k => ((fails k, reply k buffer), k + 1)
  write _ _ _ _ := Exec.total fun k => (fails k, k + 1)

end Qspi

end CommonDrivers
