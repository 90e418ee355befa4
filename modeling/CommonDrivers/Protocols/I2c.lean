import CommonDrivers.Protocols.Qspi
import CommonDrivers.Protocols.Spi

/-! # I2C

`I2C` of `include/protocols/i2c.h` and `src/protocols/i2c.cpp`, with a record of the HAL calls. The
command is the address of a register, one or two bytes of it, and anything else stops the program.
What is sent behind the address of the device is what `SPI` sends for the same call, except that a
one-byte address drops the rest of a longer command.
-/

namespace CommonDrivers

/-- The code of an address width; `none` is the 0 of the branch that is not reached. -/
inductive MemAddSize
  | none
  | bits8
  | bits16
deriving DecidableEq, Repr

/-- A HAL call: the address of the device in its upper seven bits, the address in the device, and
the size of the destination or the data. -/
inductive I2cEvent
  | memRead (devAddress memAddress : UInt16) (memAddSize : MemAddSize) (size : UInt16)
  | memWrite (devAddress memAddress : UInt16) (memAddSize : MemAddSize) (data : List UInt8)
deriving DecidableEq, Repr

/-- The outcomes of the HAL calls by their position, and what a read leaves in its destination. -/
structure I2cScript where
  status : ℕ → HalStatus
  reply : ℕ → List UInt8 → List UInt8

/-- An `I2C` object. -/
structure I2c where
  address : UInt32

namespace I2c

open Exec

variable (script : I2cScript) (i2c : I2c)

/-- The HAL takes the size of a transfer as a `uint16_t`. -/
def halI2cMemRead (devAddress memAddress : UInt16) (memAddSize : MemAddSize)
    (buffer : List UInt8) : Exec (List I2cEvent) (HalStatus × List UInt8) :=
  total fun log => ((script.status log.length, script.reply log.length buffer),
    log ++ [.memRead devAddress memAddress memAddSize (UInt16.ofNat buffer.length)])

def halI2cMemWrite (devAddress memAddress : UInt16) (memAddSize : MemAddSize) (data : List UInt8) :
    Exec (List I2cEvent) HalStatus :=
  total fun log => (script.status log.length,
    log ++ [.memWrite devAddress memAddress memAddSize
      (data.take (UInt16.ofNat data.length).toNat)])

def getAddressSize {σ : Type} (size : AddressSize) : Exec σ MemAddSize := do
  assert (size = .byte ∨ size = .byte2)
  match size with
  | .byte => return .bits8
  | .byte2 => return .bits16
  | _ => return .none

def getAddress {σ : Type} (cmd : List UInt8) (size : AddressSize) : Exec σ UInt16 := do
  assert (cmd ≠ [])
  if size = .byte then
    return (cmd.getD 0 0).toUInt16
  assert (cmd.length = 2)
  return (cmd.getD 0 0).toUInt16 <<< 8 ||| (cmd.getD 1 0).toUInt16

def read (cmd buffer : List UInt8) (size : AddressSize) :
    Exec (List I2cEvent) (Bool × List UInt8) := do
  let asize ← getAddressSize size
  let address ← getAddress cmd size
  let res ← halI2cMemRead script (i2c.address <<< 1).toUInt16 address asize buffer
  return (res.1.toBool, res.2)

def write (cmd buffer : List UInt8) (size : AddressSize) : Exec (List I2cEvent) Bool := do
  let asize ← getAddressSize size
  let address ← getAddress cmd size
  let res ← halI2cMemWrite script (i2c.address <<< 1).toUInt16 address asize buffer
  return res.toBool

/-- The protocol of an `I2C` object; `configure` and `readDMA` are those of the base class. -/
def bus : Protocol (List I2cEvent) where
  type := .i2c
  read := read script i2c
  write := write script i2c
  configure _ := pure false
  readDMA _ := pure true

/-! ## Runs of calls -/

/-- The calls of an `SPI` object on an `I2C` object. -/
def runCall (c : Spi.Call) : Exec (List I2cEvent) Bool :=
  if c.isRead then do
    let res ← read script i2c c.cmd c.buffer c.size
    return res.1
  else
    write script i2c c.cmd c.buffer c.size

def runCalls : List Spi.Call → Exec (List I2cEvent) Unit
  | [] => return ()
  | c :: cs => do
    let _ ← runCall script i2c c
    runCalls cs

/-- The command is an address of a size that the bus has. -/
def Addressed (c : Spi.Call) : Prop := c.size = .byte ∨ c.size = .byte2 ∧ c.cmd.length = 2

/-! ## What is sent -/

/-- The bytes of an address, the upper one first. -/
def addressBytes (memAddress : UInt16) : MemAddSize → List UInt8
  | .none => []
  | .bits8 => [memAddress.toUInt8]
  | .bits16 => [(memAddress >>> 8).toUInt8, memAddress.toUInt8]

end I2c

/-- The device that a HAL call addresses. -/
def I2cEvent.device : I2cEvent → UInt16
  | .memRead devAddress .. => devAddress
  | .memWrite devAddress .. => devAddress

/-- The bytes that are sent to it behind its address. -/
def I2cEvent.sent : I2cEvent → List UInt8
  | .memRead _ memAddress memAddSize _ => I2c.addressBytes memAddress memAddSize
  | .memWrite _ memAddress memAddSize data => I2c.addressBytes memAddress memAddSize ++ data

/-- The bytes that an event of the SPI sends. -/
def SpiEvent.sent : SpiEvent → List UInt8
  | .transmit _ data => data
  | _ => []

namespace I2c

open Exec

/-- The data of a call that writes. -/
def payload (c : Spi.Call) : List UInt8 := if c.isRead then [] else c.buffer

variable (script : I2cScript) (i2c : I2c)

theorem addressBytes_two (b1 b0 : UInt8) :
    addressBytes (b1.toUInt16 <<< 8 ||| b0.toUInt16) .bits16 = [b1, b0] := by
  have hhigh : ((b1.toUInt16 <<< 8 ||| b0.toUInt16) >>> 8).toUInt8 = b1 := by
    apply UInt8.toBitVec_inj.mp
    ext i hi
    simp
    grind
  have hlow : (b1.toUInt16 <<< 8 ||| b0.toUInt16).toUInt8 = b0 := by
    apply UInt8.toBitVec_inj.mp
    ext i hi
    simp
  rw [addressBytes, hhigh, hlow]

/-- The address that the HAL gets has the first bytes of the command. -/
theorem getAddress_addressed {σ : Type} {cmd : List UInt8} (hcmd : cmd ≠ []) {size : AddressSize}
    (h : size = .byte ∨ size = .byte2 ∧ cmd.length = 2) (s : σ) :
    ∃ asize address, getAddressSize size s = some (asize, s) ∧
      getAddress cmd size s = some (address, s) ∧
      addressBytes address asize = cmd.take size.toNat := by
  rcases h with rfl | ⟨rfl, hlen⟩
  · obtain ⟨b, rest, rfl⟩ := List.exists_cons_of_ne_nil hcmd
    exact ⟨.bits8, b.toUInt16, rfl, rfl, congrArg (fun b => [b]) (UInt8.toUInt8_toUInt16 b)⟩
  · rcases cmd with _ | ⟨b1, _ | ⟨b0, _ | ⟨b, rest⟩⟩⟩
    · cases hlen
    · cases hlen
    · exact ⟨.bits16, b1.toUInt16 <<< 8 ||| b0.toUInt16, rfl, rfl, addressBytes_two b1 b0⟩
    · cases hlen

/-- The HAL call of a call whose address is known. -/
def transfer (c : Spi.Call) (asize : MemAddSize) (address : UInt16) : I2cEvent :=
  if c.isRead then
    .memRead (i2c.address <<< 1).toUInt16 address asize (UInt16.ofNat c.buffer.length)
  else
    .memWrite (i2c.address <<< 1).toUInt16 address asize
      (c.buffer.take (UInt16.ofNat c.buffer.length).toNat)

theorem runCall_eq (c : Spi.Call) (log : List I2cEvent) :
    runCall script i2c c log = (getAddressSize c.size log).bind fun p =>
      (getAddress c.cmd c.size p.2).bind fun q =>
        some ((script.status q.2.length).toBool, q.2 ++ [transfer i2c c p.1 q.1]) := by
  cases hread : c.isRead with
  | true =>
    simp only [runCall, hread, if_true, bind_apply, read, transfer, Option.bind_assoc]
    rfl
  | false =>
    simp only [runCall, hread, write, transfer]
    rfl

theorem runCall_addressed {c : Spi.Call} (h : Addressed c) (hbuffer : c.buffer.length < 65536)
    (log : List I2cEvent) :
    ∃ e, runCall script i2c c log = some ((script.status log.length).toBool, log ++ [e]) ∧
      e.device = (i2c.address <<< 1).toUInt16 ∧ e.sent = c.cmd.take c.size.toNat ++ payload c := by
  obtain ⟨asize, address, hsize, haddress, hbytes⟩ := getAddress_addressed c.cmd_ne h log
  have hrun : runCall script i2c c log =
      some ((script.status log.length).toBool, log ++ [transfer i2c c asize address]) := by
    rw [runCall_eq, hsize, Option.bind_some, haddress, Option.bind_some]
  refine ⟨transfer i2c c asize address, hrun, ?_⟩
  rw [transfer, payload, ← hbytes]
  cases c.isRead with
  | true => exact ⟨rfl, (List.append_nil _).symm⟩
  | false =>
    rw [UInt16.toNat_ofNat_of_lt' hbuffer, List.take_length]
    exact ⟨rfl, rfl⟩

/-- Anything else fails one of the assertions. -/
theorem runCall_unaddressed {c : Spi.Call} (h : ¬ Addressed c) (log : List I2cEvent) :
    runCall script i2c c log = none := by
  rw [runCall_eq]
  by_cases hbyte2 : c.size = .byte2
  · have hlen : c.cmd.length ≠ 2 := fun hlen => h (Or.inr ⟨hbyte2, hlen⟩)
    have hnone : getAddress c.cmd c.size log = none := by
      rw [getAddress, hbyte2, bind_apply, assert_apply c.cmd_ne]
      simp [assert_fail hlen]
    have hsize : getAddressSize c.size log = some (.bits16, log) := by rw [hbyte2]; rfl
    rw [hsize, Option.bind_some, hnone]
    rfl
  · have hsize : ¬ (c.size = .byte ∨ c.size = .byte2) := by
      rintro (hbyte | hbyte)
      · exact h (Or.inl hbyte)
      · exact hbyte2 hbyte
    unfold getAddressSize
    rw [bind_apply, assert_fail hsize]
    rfl

/-! ## The same calls on an `SPI` object -/

theorem sent_transmitted {data : List UInt8} (h : data.length < 65536) (odr : UInt16) :
    (Spi.transmitted data odr).sent = data := by
  rw [Spi.transmitted, SpiEvent.sent, UInt16.toNat_ofNat_of_lt' h, List.take_length]

/-- An `SPI` object whose transfers succeed sends the command and the data. -/
theorem spi_sent (reply : ℕ → List UInt8 → List UInt8) (spi : Spi) {c : Spi.Call}
    (hcmd : c.cmd.length < 65536) (hbuffer : c.buffer.length < 65536) (s : SpiPort) :
    ∃ s' events, c.run ⟨fun _ => .ok, reply⟩ spi s = some (false, s') ∧
      s'.log = s.log ++ events ∧ events.flatMap SpiEvent.sent = c.cmd ++ payload c := by
  obtain ⟨isRead, cmd, hne, buffer, size⟩ := c
  obtain ⟨b, rest, rfl⟩ := List.exists_cons_of_ne_nil hne
  let mask := spi.pin.toUInt16
  let odr := s.odr &&& ~~~mask
  have hsent := sent_transmitted hcmd odr
  cases isRead with
  | true =>
    refine ⟨_, [.writePin mask .reset, Spi.transmitted (b :: rest) odr, Spi.received buffer odr,
      .writePin mask .set], rfl, ?_, ?_⟩
    · simp only [List.append_assoc, List.cons_append, List.nil_append]
      rfl
    · simp only [List.flatMap_cons, hsent]
      rfl
  | false =>
    cases buffer with
    | nil =>
      -- an empty buffer is not transmitted
      refine ⟨_, [.writePin mask .reset, Spi.transmitted (b :: rest) odr, .writePin mask .set],
        rfl, ?_, ?_⟩
      · simp only [List.append_assoc, List.cons_append, List.nil_append]
        rfl
      · simp only [List.flatMap_cons, hsent]
        rfl
    | cons d data =>
      refine ⟨_, [.writePin mask .reset, Spi.transmitted (b :: rest) odr,
        Spi.transmitted (d :: data) odr, .writePin mask .set], rfl, ?_, ?_⟩
      · simp only [List.append_assoc, List.cons_append, List.nil_append]
        rfl
      · simp only [List.flatMap_cons, hsent, sent_transmitted hbuffer]
        exact congrArg (b :: rest ++ ·) (List.append_nil _)

theorem spi_run_sent (reply : ℕ → List UInt8 → List UInt8) (spi : Spi) {calls : List Spi.Call}
    (hsmall : ∀ c ∈ calls, c.cmd.length < 65536 ∧ c.buffer.length < 65536) (s : SpiPort) :
    ∃ s' events, Spi.runCalls ⟨fun _ => .ok, reply⟩ spi calls s = some ((), s') ∧
      s'.log = s.log ++ events ∧
      events.flatMap SpiEvent.sent = calls.flatMap fun c => c.cmd ++ payload c := by
  induction calls generalizing s with
  | nil => exact ⟨s, [], rfl, (List.append_nil _).symm, rfl⟩
  | cons c cs ih =>
    obtain ⟨hc, hcs⟩ := List.forall_mem_cons.mp hsmall
    obtain ⟨s₁, new, hrun, hlog, hsent⟩ := spi_sent reply spi hc.1 hc.2 s
    obtain ⟨s₂, events, hrun', hlog', hsent'⟩ := ih hcs s₁
    refine ⟨s₂, new ++ events, ?_, ?_, ?_⟩
    · rw [Spi.runCalls, bind_apply, hrun, Option.bind_some]
      exact hrun'
    · rw [hlog', hlog, List.append_assoc]
    · rw [List.flatMap_append, hsent, hsent', List.flatMap_cons]

theorem runCalls_addressed {calls : List Spi.Call} (h : ∀ c ∈ calls, Addressed c)
    (hsmall : ∀ c ∈ calls, c.buffer.length < 65536) (log : List I2cEvent) :
    ∃ events, runCalls script i2c calls log = some ((), log ++ events) ∧
      (∀ e ∈ events, e.device = (i2c.address <<< 1).toUInt16) ∧
      events.flatMap I2cEvent.sent =
        calls.flatMap fun c => c.cmd.take c.size.toNat ++ payload c := by
  induction calls generalizing log with
  | nil => exact ⟨[], by rw [List.append_nil]; rfl, nofun, rfl⟩
  | cons c cs ih =>
    obtain ⟨hc, hcs⟩ := List.forall_mem_cons.mp h
    obtain ⟨hbuffer, hbuffers⟩ := List.forall_mem_cons.mp hsmall
    obtain ⟨e, hrun, hdevice, hsent⟩ := runCall_addressed script i2c hc hbuffer log
    obtain ⟨events, hrun', hdevices, hsent'⟩ := ih hcs hbuffers (log ++ [e])
    refine ⟨e :: events, ?_, List.forall_mem_cons.mpr ⟨hdevice, hdevices⟩, ?_⟩
    · rw [runCalls, bind_apply, hrun, Option.bind_some, hrun', List.append_assoc,
        List.singleton_append]
    · rw [List.flatMap_cons, hsent, hsent', List.flatMap_cons]

theorem runCalls_unaddressed {calls : List Spi.Call} (h : ∃ c ∈ calls, ¬ Addressed c)
    (hsmall : ∀ c ∈ calls, c.buffer.length < 65536) (log : List I2cEvent) :
    runCalls script i2c calls log = none := by
  induction calls generalizing log with
  | nil =>
    obtain ⟨c, hc, -⟩ := h
    cases hc
  | cons c cs ih =>
    obtain ⟨hbuffer, hbuffers⟩ := List.forall_mem_cons.mp hsmall
    rw [runCalls, bind_apply]
    by_cases hc : Addressed c
    · obtain ⟨e, hrun, -, -⟩ := runCall_addressed script i2c hc hbuffer log
      rw [hrun, Option.bind_some]
      apply ih _ hbuffers
      obtain ⟨c', hmem, hc'⟩ := h
      rcases List.mem_cons.mp hmem with rfl | hmem
      · exact absurd hc hc'
      · exact ⟨c', hmem, hc'⟩
    · rw [runCall_unaddressed script i2c hc]
      rfl

/-- Concatenations whose parts may be cut short agree only if no part is. -/
theorem flatMap_take_eq_iff {α β : Type} (n : α → ℕ) (f g : α → List β) (l : List α) :
    (l.flatMap fun a => (f a).take (n a) ++ g a) = (l.flatMap fun a => f a ++ g a) ↔
      ∀ a ∈ l, (f a).length ≤ n a := by
  have hle : ∀ l : List α, (l.flatMap fun a => (f a).take (n a) ++ g a).length ≤
      (l.flatMap fun a => f a ++ g a).length := by
    intro l
    induction l with
    | nil => exact Nat.le_refl _
    | cons a as ih =>
      simp only [List.flatMap_cons, List.length_append, List.length_take] at ih ⊢
      omega
  constructor
  · intro h
    induction l with
    | nil => exact nofun
    | cons a as ih =>
      have hlen := congrArg List.length h
      have hrest := hle as
      simp only [List.flatMap_cons, List.length_append, List.length_take] at hlen hrest
      -- no part is longer than in the other list, so equal lengths leave none shorter
      have ha : (f a).length ≤ n a := by omega
      rw [List.flatMap_cons, List.flatMap_cons, List.take_of_length_le ha] at h
      exact List.forall_mem_cons.mpr ⟨ha, ih (List.append_cancel_left h)⟩
  · intro h
    induction l with
    | nil => rfl
    | cons a as ih =>
      obtain ⟨ha, has⟩ := List.forall_mem_cons.mp h
      rw [List.flatMap_cons, List.flatMap_cons, List.take_of_length_le ha, ih has]

theorem cmd_le_iff {c : Spi.Call} (h : Addressed c) :
    c.cmd.length ≤ c.size.toNat ↔ (c.size = .byte → c.cmd.length = 1) := by
  have hpos := List.length_pos_iff.mpr c.cmd_ne
  rcases h with hbyte | ⟨hbyte2, hlen⟩
  · rw [hbyte]
    simp only [AddressSize.toNat, forall_const]
    omega
  · rw [hbyte2, hlen]
    simp [AddressSize.toNat]

/-- **The calls of a driver on the other bus.** A run of calls is stopped by an assertion exactly
when one of its commands is not a one- or two-byte address. Otherwise every call goes to the device,
and what is sent is what an `SPI` object whose transfers succeed sends for the same calls exactly if
no command with a one-byte address has a second byte. -/
theorem run_sends (reply : ℕ → List UInt8 → List UInt8) (spi : Spi) (s : SpiPort)
    (log : List I2cEvent) (calls : List Spi.Call)
    (hsmall : ∀ c ∈ calls, c.cmd.length < 65536 ∧ c.buffer.length < 65536) :
    (runCalls script i2c calls log = none ↔ ∃ c ∈ calls, ¬ Addressed c) ∧
      ((∀ c ∈ calls, Addressed c) → ∃ s' sent events,
        runCalls script i2c calls log = some ((), log ++ events) ∧
        Spi.runCalls ⟨fun _ => .ok, reply⟩ spi calls s = some ((), s') ∧ s'.log = s.log ++ sent ∧
        (∀ e ∈ events, e.device = (i2c.address <<< 1).toUInt16) ∧
        (events.flatMap I2cEvent.sent = sent.flatMap SpiEvent.sent ↔
          ∀ c ∈ calls, c.size = .byte → c.cmd.length = 1)) := by
  have hbuffers : ∀ c ∈ calls, c.buffer.length < 65536 := fun c hc => (hsmall c hc).2
  constructor
  · constructor
    · intro hnone
      apply Classical.byContradiction
      intro hall
      have haddressed : ∀ c ∈ calls, Addressed c := fun c hc =>
        Classical.byContradiction fun hne => hall ⟨c, hc, hne⟩
      obtain ⟨events, hrun, -, -⟩ := runCalls_addressed script i2c haddressed hbuffers log
      cases hrun.symm.trans hnone
    · exact fun h => runCalls_unaddressed script i2c h hbuffers log
  · intro hall
    obtain ⟨events, hrun, hdevice, hsent⟩ := runCalls_addressed script i2c hall hbuffers log
    obtain ⟨s', sent, hrun', hlog, hsent'⟩ := spi_run_sent reply spi hsmall s
    refine ⟨s', sent, events, hrun, hrun', hlog, hdevice, ?_⟩
    rw [hsent, hsent', flatMap_take_eq_iff]
    exact forall₂_congr fun c hc => cmd_le_iff (hall c hc)

end I2c

end CommonDrivers
