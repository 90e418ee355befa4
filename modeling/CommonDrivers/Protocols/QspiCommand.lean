import CommonDrivers.Lib.Word
import CommonDrivers.Protocols.Qspi
import CommonDrivers.Protocols.Spi

/-! # What a QSPI command puts on the bus

`configure_cmd` hands the data mode of the object to `dummycycle_per_byte`, whose labels are address
modes. In the HAL these are different bit patterns, so the switch always ends in its default, a
failed assertion. The instruction and the address are set before that, and they are those of the
command, except for a size whose HAL code is that of no address.
-/

namespace CommonDrivers

/-- The documented bit patterns of the line modes. -/
structure QspiHal.LinePatterns (hal : QspiHal) : Prop where
  data1Line_eq : hal.data1Line = 0x01000000
  data4Lines_eq : hal.data4Lines = 0x03000000
  address1Line_eq : hal.address1Line = 0x00000400
  address4Lines_eq : hal.address4Lines = 0x00000C00
  addressNone_eq : hal.addressNone = 0x00000000

/-- The codes of the four address widths differ from each other. -/
structure QspiHal.WidthCodes (hal : QspiHal) : Prop where
  codes_nodup :
    [hal.address8Bits, hal.address16Bits, hal.address24Bits, hal.address32Bits].Nodup

namespace Qspi

theorem stm32_linePatterns : stm32.LinePatterns := ⟨rfl, rfl, rfl, rfl, rfl⟩

theorem stm32_widthCodes : stm32.WidthCodes := ⟨by decide⟩

section Dummy

variable {hal : QspiHal} (h : hal.LinePatterns)
include h

/-- No data mode is a label of the switch. -/
theorem dummycyclePerByte_dataMode (configs : List Config) :
    dummycyclePerByte hal (configured hal configs).dataMode = none := by
  rw [dummycyclePerByte, h.address1Line_eq, h.address4Lines_eq]
  rcases (configured_modes hal configs).1 with hmode | hmode
  · rw [hmode, h.data1Line_eq]
    decide
  · rw [hmode, h.data4Lines_eq]
    decide

/-- No command is ever completed. -/
theorem configureCmd_eq_none (configs : List Config) (cmd buffer : List UInt8) (size : AddressSize)
    (qcmd : QspiCommand) :
    configureCmd hal (configured hal configs) cmd buffer size qcmd = none := by
  rw [configureCmd]
  cases configureAddress hal (configured hal configs) cmd size qcmd with
  | none => rfl
  | some qcmd' => simp [dummycyclePerByte_dataMode h configs]

theorem configureCmd_ne_some (configs : List Config) (cmd buffer : List UInt8) (size : AddressSize)
    (uninit qcmd : QspiCommand) :
    configureCmd hal (configured hal configs) cmd buffer size uninit ≠ some qcmd := by
  rw [configureCmd_eq_none h]
  exact (Option.some_ne_none qcmd).symm

/-- So no transfer gets past its command. -/
theorem transfers_eq_none (script : Script) (configs : List Config) (cmd buffer : List UInt8)
    (size : AddressSize) (uninit : QspiCommand) (log : List Event) :
    read hal script uninit (configured hal configs) cmd buffer size log = none ∧
      write hal script uninit (configured hal configs) cmd buffer size log = none := by
  constructor
  · rw [read, configureCmd_eq_none h]
    rfl
  · rw [write, configureCmd_eq_none h]
    rfl

end Dummy

/-! ## Dummy cycles -/

/-- The clock cycles that `n` bytes take on the data lines. -/
def dataCycles (hal : QspiHal) (q : Qspi) (n : ℕ) : ℕ :=
  if q.dataMode = hal.data4Lines then 2 * n else 8 * n

/-- The command is built without a failed assertion, and its dummy cycles are those of the bytes
that follow the opcode and the address. -/
def DummyCyclesMatch (hal : QspiHal) (q : Qspi) (cmd buffer : List UInt8) (size : AddressSize)
    (uninit : QspiCommand) : Prop :=
  ∃ qcmd, configureCmd hal q cmd buffer size uninit = some qcmd ∧
    qcmd.dummyCycles.toNat = dataCycles hal q (cmd.length - 1 - size.toNat)

/-- **After no sequence of `configure` calls and for no command do the dummy cycles match: every
call stops on the assertion in `dummycycle_per_byte`**, and with it every transfer. -/
theorem not_dummyCyclesMatch {hal : QspiHal} (h : hal.LinePatterns) (configs : List Config)
    (cmd buffer : List UInt8) (size : AddressSize) (uninit : QspiCommand) :
    ¬ DummyCyclesMatch hal (configured hal configs) cmd buffer size uninit ∧
      ∀ script log, read hal script uninit (configured hal configs) cmd buffer size log = none ∧
        write hal script uninit (configured hal configs) cmd buffer size log = none := by
  refine ⟨?_, fun script log => transfers_eq_none h script configs cmd buffer size uninit log⟩
  rintro ⟨qcmd, hqcmd, -⟩
  exact configureCmd_ne_some h _ _ _ _ _ _ hqcmd

/-- On one line. -/
theorem not_dummyCyclesMatch_one_line :
    stm32.LinePatterns ∧
      ¬ DummyCyclesMatch stm32 (configured stm32 [.qspiData1]) [0x0B, 0x00, 0x00, 0x00] [0] .byte2
        ⟨0, 0, 0, 0, 0, 0, 0, 0, 0⟩ :=
  ⟨stm32_linePatterns, (not_dummyCyclesMatch stm32_linePatterns _ _ _ _ _).1⟩

/-- A quad read of a two-byte address and two dummy bytes on a fresh object. -/
theorem not_dummyCyclesMatch_quad_read :
    ¬ DummyCyclesMatch stm32 (configured stm32 []) [0xEB, 0x00, 0x00, 0x00, 0x00] [0] .byte2
      ⟨0, 0, 0, 0, 0, 0, 0, 0, 0⟩ := by
  rintro ⟨qcmd, hqcmd, -⟩
  exact configureCmd_ne_some stm32_linePatterns _ _ _ _ _ _ hqcmd

/-! ## Instruction and address -/

/-- The number of bytes that an `AddressSize` code stands for. -/
def addressWidth (hal : QspiHal) (code : UInt32) : ℕ :=
  if code = hal.address8Bits then 1
  else if code = hal.address16Bits then 2
  else if code = hal.address24Bits then 3
  else 4

/-- What the hardware sends for a command: the instruction, then, unless the address mode is none,
the bytes of the address from the most significant one. -/
def busBytes (hal : QspiHal) (qcmd : QspiCommand) : List UInt8 :=
  qcmd.instruction.toUInt8 ::
    if qcmd.addressMode = hal.addressNone then []
    else (List.range (addressWidth hal qcmd.addressSize)).map fun i =>
      (qcmd.address >>>
        UInt32.ofNat (8 * (addressWidth hal qcmd.addressSize - 1 - i))).toUInt8

/-- A command sends the opcode and the address of `cmd`, and no bit of a set address lies above
them. -/
def SendsCommand (hal : QspiHal) (cmd : List UInt8) (size : AddressSize)
    (result : Option QspiCommand) : Prop :=
  ∃ qcmd, result = some qcmd ∧ busBytes hal qcmd = cmd.take (1 + size.toNat) ∧
    (size ≠ .none → qcmd.address.toNat < 2 ^ (8 * size.toNat))

/-- The address is the word of the address bytes. -/
theorem getAddress_eq {cmd : List UInt8} {size : AddressSize} (hlen : size.toNat < cmd.length) :
    getAddress cmd size =
      some (Word.word (fun i => cmd.getD (size.toNat - i) 0) size.toNat) :=
  if_pos hlen

/-- The width codes stand for their widths. -/
theorem addressWidth_getAddressSize {hal : QspiHal} (h : hal.WidthCodes) {size : AddressSize}
    (hsize : size ≠ .none) : addressWidth hal (getAddressSize hal size) = size.toNat := by
  have hcodes := h.codes_nodup
  simp only [List.nodup_cons, List.mem_cons, List.not_mem_nil, or_false, not_or] at hcodes
  obtain ⟨⟨h12, h13, h14⟩, ⟨h23, h24⟩, h34, -⟩ := hcodes
  cases size with
  | none => exact absurd rfl hsize
  | byte => exact if_pos rfl
  | byte2 => rw [addressWidth, getAddressSize, if_neg (Ne.symm h12), if_pos rfl]; rfl
  | byte3 =>
    rw [addressWidth, getAddressSize, if_neg (Ne.symm h13), if_neg (Ne.symm h23), if_pos rfl]; rfl
  | byte4 =>
    rw [addressWidth, getAddressSize, if_neg (Ne.symm h14), if_neg (Ne.symm h24),
      if_neg (Ne.symm h34)]; rfl

/-- Sent from the most significant one, the bytes of the word are the address bytes in order. -/
theorem word_bytes {cmd : List UInt8} {n : ℕ} (hn : n ≤ 4) (hlen : n < cmd.length) :
    (List.range n).map (fun i =>
        (Word.word (fun i => cmd.getD (n - i) 0) n >>> UInt32.ofNat (8 * (n - 1 - i))).toUInt8) =
      (cmd.drop 1).take n := by
  refine List.ext_getElem (by simp; omega) fun i hi hi' => ?_
  rw [List.length_map, List.length_range] at hi
  rw [List.getElem_map, List.getElem_range, Word.word_byte _ hn (by omega), List.getElem_take,
    List.getElem_drop, show n - (n - 1 - i) = 1 + i by omega]
  exact (List.getElem_eq_getD 0).symm

section Address

variable {hal : QspiHal} {cmd : List UInt8} {size : AddressSize} (q : Qspi) (uninit : QspiCommand)
variable (hlen : size.toNat < cmd.length)
include hlen

/-- If the code is that of no address, no address is sent. -/
theorem configureAddress_unaddressed (hcode : getAddressSize hal size = hal.addressNone) :
    ∃ qcmd, configureAddress hal q cmd size uninit = some qcmd ∧
      busBytes hal qcmd = cmd.take 1 := by
  obtain ⟨opcode, rest, rfl⟩ := List.exists_cons_of_length_pos (Nat.zero_lt_of_lt hlen)
  refine ⟨_, if_neg (not_not.mpr hcode), ?_⟩
  rw [busBytes, if_pos rfl]
  simp

/-- Otherwise the address bytes are sent behind the opcode. -/
theorem configureAddress_addressed (hw : hal.WidthCodes) (hmode : q.addressMode ≠ hal.addressNone)
    (hcode : getAddressSize hal size ≠ hal.addressNone) :
    SendsCommand hal cmd size (configureAddress hal q cmd size uninit) := by
  have hsize : size ≠ .none := by
    rintro rfl
    exact hcode rfl
  have haddress := getAddress_eq hlen
  have hwidth := addressWidth_getAddressSize hw hsize
  obtain ⟨opcode, rest, rfl⟩ := List.exists_cons_of_length_pos (Nat.zero_lt_of_lt hlen)
  refine ⟨_, (if_pos hcode).trans (by rw [haddress]; rfl), ?_,
    fun _ => Word.word_lt _ size.toNat_le⟩
  rw [busBytes, if_neg hmode, hwidth, word_bytes size.toNat_le hlen]
  simp [Nat.add_comm 1]

end Address

/-- The address modes that `configure` sets are not that of no address. -/
theorem configured_addressMode_ne {hal : QspiHal} (h : hal.LinePatterns) (configs : List Config) :
    (configured hal configs).addressMode ≠ hal.addressNone := by
  rw [h.addressNone_eq]
  rcases (configured_modes hal configs).2 with hmode | hmode
  · rw [hmode, h.address1Line_eq]
    decide
  · rw [hmode, h.address4Lines_eq]
    decide

/-- The fields set before the dummy cycles are those of the command if and only if the size has a
code of its own or stands for no address. -/
theorem configureAddress_sendsCommand_iff {hal : QspiHal} (hw : hal.WidthCodes) {q : Qspi}
    (hmode : q.addressMode ≠ hal.addressNone) {cmd : List UInt8} {size : AddressSize}
    (hlen : size.toNat < cmd.length) (uninit : QspiCommand) :
    SendsCommand hal cmd size (configureAddress hal q cmd size uninit) ↔
      size = .none ∨ getAddressSize hal size ≠ hal.addressNone := by
  by_cases hcode : getAddressSize hal size = hal.addressNone
  · obtain ⟨qcmd, hqcmd, hbytes⟩ := configureAddress_unaddressed q uninit hlen hcode
    constructor
    · rintro ⟨qcmd', hqcmd', hbytes', -⟩
      obtain rfl := Option.some.inj (hqcmd'.symm.trans hqcmd)
      left
      by_contra hsize
      -- one byte is sent where the command has an address
      have hlength := congrArg List.length (hbytes'.symm.trans hbytes)
      have hpos : 0 < size.toNat := by
        cases size with
        | none => exact absurd rfl hsize
        | _ => decide
      simp only [List.length_take] at hlength
      omega
    · intro hcond
      obtain rfl : size = .none := hcond.resolve_right (not_not.mpr hcode)
      exact ⟨qcmd, hqcmd, hbytes, fun hne => absurd rfl hne⟩
  · exact iff_of_true (configureAddress_addressed q uninit hlen hw hmode hcode) (Or.inr hcode)

/-- A call of `SPI` sends its command first. -/
theorem spi_sends_first (script : SpiScript) (spi : Spi) (c : Spi.Call) (s : SpiPort)
    (hlong : c.cmd.length < 2 ^ 16) :
    ∃ ok s' odr tail, c.run script spi s = some (ok, s') ∧
      s'.log = s.log ++ .writePin spi.pin.toUInt16 .reset :: .transmit odr c.cmd :: tail := by
  obtain ⟨ok, s', hrun, -, tail, hlog⟩ := c.run_transaction script spi s
  rw [Spi.transmitted, UInt16.toNat_ofNat_of_lt' hlong, List.take_length] at hlog
  exact ⟨ok, s', _, tail, hrun, hlog⟩

/-- **No command is built. What `configure_cmd` has set when it stops sends the opcode and the
address, as `SPI` does for the same command, if and only if the size has a code of its own or stands
for no address.** -/
theorem configureCmd_sendsCommand {hal : QspiHal} (h : hal.LinePatterns) (hw : hal.WidthCodes)
    (configs : List Config) (cmd buffer : List UInt8) (size : AddressSize) (uninit : QspiCommand)
    (hlen : size.toNat < cmd.length) :
    ¬ SendsCommand hal cmd size
        (configureCmd hal (configured hal configs) cmd buffer size uninit) ∧
      (SendsCommand hal cmd size (configureAddress hal (configured hal configs) cmd size uninit) ↔
        size = .none ∨ getAddressSize hal size ≠ hal.addressNone) ∧
      ∀ (script : SpiScript) (spi : Spi) (c : Spi.Call) (s : SpiPort), c.cmd = cmd →
        cmd.length < 2 ^ 16 → ∃ ok s' odr tail, c.run script spi s = some (ok, s') ∧
          s'.log = s.log ++ .writePin spi.pin.toUInt16 .reset :: .transmit odr cmd :: tail := by
  refine ⟨?_, ?_, ?_⟩
  · rintro ⟨qcmd, hqcmd, -⟩
    exact configureCmd_ne_some h _ _ _ _ _ _ hqcmd
  · exact configureAddress_sendsCommand_iff hw (configured_addressMode_ne h configs) hlen uninit
  · rintro script spi c s rfl hlong
    exact spi_sends_first script spi c s hlong

/-- A two-byte address. -/
theorem configureCmd_sendsCommand_byte2 :
    ¬ SendsCommand stm32 [0x1F, 0xA0, 0x00] .byte2
        (configureCmd stm32 (configured stm32 []) [0x1F, 0xA0, 0x00] [] .byte2
          ⟨0, 0, 0, 0, 0, 0, 0, 0, 0⟩) ∧
      (SendsCommand stm32 [0x1F, 0xA0, 0x00] .byte2
          (configureAddress stm32 (configured stm32 []) [0x1F, 0xA0, 0x00] .byte2
            ⟨0, 0, 0, 0, 0, 0, 0, 0, 0⟩) ↔
        AddressSize.byte2 = .none ∨ getAddressSize stm32 .byte2 ≠ stm32.addressNone) ∧
      ∀ (script : SpiScript) (spi : Spi) (c : Spi.Call) (s : SpiPort), c.cmd = [0x1F, 0xA0, 0x00] →
        [0x1F, 0xA0, 0x00].length < 2 ^ 16 → ∃ ok s' odr tail, c.run script spi s = some (ok, s') ∧
          s'.log = s.log ++
            .writePin spi.pin.toUInt16 .reset :: .transmit odr [0x1F, 0xA0, 0x00] :: tail :=
  configureCmd_sendsCommand stm32_linePatterns stm32_widthCodes [] _ [] .byte2
    ⟨0, 0, 0, 0, 0, 0, 0, 0, 0⟩ (by decide)

/-- A one-byte address on a fresh object: the command is not built, and where `configure_cmd` stops
it holds no address. -/
theorem not_sendsCommand_byte :
    ¬ SendsCommand stm32 [0x0B, 0x12] .byte
        (configureCmd stm32 (configured stm32 []) [0x0B, 0x12] [] .byte
          ⟨0, 0, 0, 0, 0, 0, 0, 0, 0⟩) ∧
      ¬ SendsCommand stm32 [0x0B, 0x12] .byte
        (configureAddress stm32 (configured stm32 []) [0x0B, 0x12] .byte
          ⟨0, 0, 0, 0, 0, 0, 0, 0, 0⟩) := by
  constructor
  · rintro ⟨qcmd, hqcmd, -⟩
    exact configureCmd_ne_some stm32_linePatterns _ _ _ _ _ _ hqcmd
  · rintro ⟨qcmd, hqcmd, hbytes, -⟩
    obtain ⟨qcmd', hqcmd', hbytes'⟩ := @configureAddress_unaddressed stm32 [0x0B, 0x12] .byte
      (configured stm32 []) ⟨0, 0, 0, 0, 0, 0, 0, 0, 0⟩ (by decide) rfl
    obtain rfl := Option.some.inj (hqcmd.symm.trans hqcmd')
    exact absurd (hbytes.symm.trans hbytes') (by decide)

end Qspi

end CommonDrivers
