import CommonDrivers.Protocol

/-! # SPI

`SPI` of `include/protocols/spi.h` and `src/protocols/spi.cpp` over one GPIO port. Of the HAL the
model has the output register of the port, which `HAL_GPIO_WritePin` changes in exactly the pins of
its mask, and a record of the calls; the outcome of each transfer is arbitrary.

The chip-select mask passes through the `uint8_t` member of the object, which keeps the pins 0 to 7
only. `framed_iff` says for which pins the calls are framed.
-/

namespace CommonDrivers

inductive PinState
  | reset
  | set
deriving DecidableEq, Repr

/-- A HAL call; a transfer has the output register during it. -/
inductive SpiEvent
  | writePin (mask : UInt16) (level : PinState)
  | transmit (odr : UInt16) (data : List UInt8)
  | receive (odr : UInt16) (size : UInt16)
deriving DecidableEq, Repr

/-- The output register of the port, and the HAL calls so far. -/
structure SpiPort where
  odr : UInt16
  log : List SpiEvent
deriving DecidableEq, Repr

/-- The outcomes of the transfers by their position in the log, and what a receive leaves in its
destination. -/
structure SpiScript where
  status : ℕ → HalStatus
  reply : ℕ → List UInt8 → List UInt8

/-- An `SPI` object. -/
structure Spi where
  pin : UInt8
deriving DecidableEq, Repr

namespace Spi

open Exec

/-- The constructor; the parameter `pin_` is a `uint8_t`, so a mask loses its upper byte. -/
def new (pin_ : UInt16) : Spi := ⟨pin_.toUInt8⟩

def halGpioWritePin (mask : UInt16) (level : PinState) : Exec SpiPort Unit :=
  total fun s => ((), {
    odr := match level with
      | .reset => s.odr &&& ~~~mask
      | .set => s.odr ||| mask
    log := s.log ++ [.writePin mask level] })

variable (script : SpiScript)

/-- The HAL takes the length of a transfer as a `uint16_t`. -/
def halSpiTransmit (data : List UInt8) : Exec SpiPort HalStatus :=
  total fun s => (script.status s.log.length,
    { s with log := s.log ++ [.transmit s.odr (data.take (UInt16.ofNat data.length).toNat)] })

def halSpiReceive (buffer : List UInt8) : Exec SpiPort (HalStatus × List UInt8) :=
  total fun s => ((script.status s.log.length, script.reply s.log.length buffer),
    { s with log := s.log ++ [.receive s.odr (UInt16.ofNat buffer.length)] })

/-- The scope of a `Guard`: the pin is low in it and high after it, whichever way it is left. -/
def guarded {α : Type} (pin : UInt16) (body : Exec SpiPort α) : Exec SpiPort α := do
  halGpioWritePin pin .reset
  let res ← body
  halGpioWritePin pin .set
  return res

variable (spi : Spi)

def read (cmd buffer : List UInt8) (_size : AddressSize) : Exec SpiPort (Bool × List UInt8) := do
  assert (cmd ≠ [])
  guarded spi.pin.toUInt16 do
    let res ← halSpiTransmit script cmd
    if res ≠ .ok then
      return (res.toBool, buffer)
    let res ← halSpiReceive script buffer
    return (res.1.toBool, res.2)

def write (cmd buffer : List UInt8) (_size : AddressSize) : Exec SpiPort Bool := do
  assert (cmd ≠ [])
  guarded spi.pin.toUInt16 do
    let res ← halSpiTransmit script cmd
    if res ≠ .ok then
      return res.toBool
    if !buffer.isEmpty then
      let res ← halSpiTransmit script buffer
      return res.toBool
    return res.toBool

/-- The protocol of an `SPI` object; `configure` and `readDMA` are those of the base class. -/
def bus : Protocol SpiPort where
  type := .spi
  read := read script spi
  write := write script spi
  configure _ := pure false
  readDMA _ := pure true

/-! ## Runs of calls -/

/-- A call of `read` or `write`, with a command. -/
structure Call where
  isRead : Bool
  cmd : List UInt8
  cmd_ne : cmd ≠ []
  buffer : List UInt8
  size : AddressSize

def Call.run (c : Call) : Exec SpiPort Bool :=
  if c.isRead then do
    let res ← read script spi c.cmd c.buffer c.size
    return res.1
  else
    write script spi c.cmd c.buffer c.size

def runCalls : List Call → Exec SpiPort Unit
  | [] => return ()
  | c :: cs => do
    let _ ← c.run script spi
    runCalls cs

/-! ## Framing -/

/-- A transfer while the output register is `odr`. -/
def SpiEvent.DuringOdr (odr : UInt16) : SpiEvent → Prop
  | .writePin _ _ => False
  | .transmit o _ => o = odr
  | .receive o _ => o = odr

/-- A call from `s` to `s'` is one frame of the pins in `mask`: they are driven low, at least one
transfer follows, each with exactly these pins low, then they are driven high again; no other pin
changes and nothing else is written. -/
def CallFramed (mask : UInt16) (s s' : SpiPort) : Prop :=
  ∃ transfers, transfers ≠ [] ∧
    s'.log = s.log ++ .writePin mask .reset :: (transfers ++ [.writePin mask .set]) ∧
    (∀ e ∈ transfers, SpiEvent.DuringOdr (s.odr &&& ~~~mask) e) ∧ s'.odr = s.odr ||| mask

/-- Every call of the run returns and is one frame of the pins in `mask`. -/
def Framed (mask odr : UInt16) (calls : List Call) : Prop :=
  ∀ before c after, calls = before ++ c :: after →
    ∃ s ok s', runCalls script spi before ⟨odr, []⟩ = some ((), s) ∧
      c.run script spi s = some (ok, s') ∧ CallFramed mask s s'

/-! ## The frame of one call -/

/-- Driving pins low and high again is driving them high. -/
theorem clear_or (odr mask : UInt16) : odr &&& ~~~mask ||| mask = odr ||| mask := by
  apply UInt16.toBitVec_inj.mp
  ext i
  simp
  grind

/-- A body that makes transfers only, the first of them as `first` says for the register. -/
def OnlyTransfers {α : Type} (first : UInt16 → SpiEvent) (body : Exec SpiPort α) : Prop :=
  ∀ s, ∃ a rest, body s = some (a, ⟨s.odr, s.log ++ first s.odr :: rest⟩) ∧
    ∀ e ∈ first s.odr :: rest, SpiEvent.DuringOdr s.odr e

variable (script : SpiScript) (spi : Spi)

/-- The event of a transmit. -/
def transmitted (data : List UInt8) (odr : UInt16) : SpiEvent :=
  .transmit odr (data.take (UInt16.ofNat data.length).toNat)

/-- The event of a receive. -/
def received (buffer : List UInt8) (odr : UInt16) : SpiEvent :=
  .receive odr (UInt16.ofNat buffer.length)

theorem onlyTransfers_transmit (data : List UInt8) :
    OnlyTransfers (transmitted data) (halSpiTransmit script data) :=
  fun _ => ⟨_, [], rfl, List.forall_mem_singleton.mpr rfl⟩

theorem onlyTransfers_receive (buffer : List UInt8) :
    OnlyTransfers (received buffer) (halSpiReceive script buffer) :=
  fun _ => ⟨_, [], rfl, List.forall_mem_singleton.mpr rfl⟩

/-- Behind a transfer the body may stop or make more transfers. -/
theorem OnlyTransfers.bind {α β : Type} {body : Exec SpiPort α} {f : α → Exec SpiPort β}
    {first : UInt16 → SpiEvent} (h : OnlyTransfers first body)
    (hf : ∀ a, (∃ next, OnlyTransfers next (f a)) ∨ ∃ b, f a = pure b) :
    OnlyTransfers first (body >>= f) := by
  intro s
  obtain ⟨a, rest, hbody, hodr⟩ := h s
  rcases hf a with ⟨next, hmore⟩ | ⟨b, hstop⟩
  · obtain ⟨b, rest', hnext, hodr'⟩ := hmore ⟨s.odr, s.log ++ first s.odr :: rest⟩
    refine ⟨b, rest ++ next s.odr :: rest', ?_, ?_⟩
    · rw [bind_apply, hbody, Option.bind_some, hnext, List.append_assoc]
      rfl
    · rw [← List.cons_append]
      exact List.forall_mem_append.mpr ⟨hodr, hodr'⟩
  · refine ⟨b, rest, ?_, hodr⟩
    rw [bind_apply, hbody, Option.bind_some, hstop, pure_apply]

/-- A call from `s` to `s'` is one frame, and its first transfer is a transmit of `cmd`. -/
def Transaction (mask : UInt16) (cmd : List UInt8) (s s' : SpiPort) : Prop :=
  CallFramed mask s s' ∧ ∃ tail, s'.log =
    s.log ++ .writePin mask .reset :: transmitted cmd (s.odr &&& ~~~mask) :: tail

theorem guarded_transaction {α : Type} {cmd : List UInt8} {body : Exec SpiPort α}
    (h : OnlyTransfers (transmitted cmd) body) (mask : UInt16) (s : SpiPort) :
    ∃ a s', guarded mask body s = some (a, s') ∧ Transaction mask cmd s s' := by
  obtain ⟨a, rest, hbody, hodr⟩ :=
    h ⟨s.odr &&& ~~~mask, s.log ++ [.writePin mask .reset]⟩
  refine ⟨a, ⟨s.odr ||| mask, s.log ++ .writePin mask .reset ::
    (transmitted cmd (s.odr &&& ~~~mask) :: rest ++ [.writePin mask .set])⟩, ?_,
    ⟨_, List.cons_ne_nil _ _, rfl, hodr, rfl⟩, _, rfl⟩
  simp only [guarded, bind_apply, halGpioWritePin, total_apply, Option.bind_some, hbody, pure_apply,
    clear_or, List.append_assoc, List.cons_append, List.nil_append]

/-- A read is one frame, whether or not its receive is made. -/
theorem read_transaction {cmd : List UInt8} (hcmd : cmd ≠ []) (buffer : List UInt8)
    (size : AddressSize) (s : SpiPort) :
    ∃ res s', read script spi cmd buffer size s = some (res, s') ∧
      Transaction spi.pin.toUInt16 cmd s s' := by
  rw [read, bind_apply, assert_apply hcmd, Option.bind_some]
  refine guarded_transaction ((onlyTransfers_transmit script cmd).bind fun res => ?_) _ s
  by_cases hres : res ≠ .ok
  · exact Or.inr ⟨_, if_pos hres⟩
  · refine Or.inl ⟨received buffer, ?_⟩
    rw [if_neg hres]
    exact (onlyTransfers_receive script buffer).bind fun res => Or.inr ⟨_, rfl⟩

/-- A write is one frame, whether or not its second transmit is made. -/
theorem write_transaction {cmd : List UInt8} (hcmd : cmd ≠ []) (buffer : List UInt8)
    (size : AddressSize) (s : SpiPort) :
    ∃ res s', write script spi cmd buffer size s = some (res, s') ∧
      Transaction spi.pin.toUInt16 cmd s s' := by
  rw [write, bind_apply, assert_apply hcmd, Option.bind_some]
  refine guarded_transaction ((onlyTransfers_transmit script cmd).bind fun res => ?_) _ s
  by_cases hres : res ≠ .ok
  · exact Or.inr ⟨_, if_pos hres⟩
  · rw [if_neg hres]
    by_cases hbuf : (!buffer.isEmpty) = true
    · refine Or.inl ⟨transmitted buffer, ?_⟩
      rw [if_pos hbuf]
      exact (onlyTransfers_transmit script buffer).bind fun res => Or.inr ⟨_, rfl⟩
    · exact Or.inr ⟨_, if_neg hbuf⟩

theorem Call.run_transaction (c : Call) (s : SpiPort) :
    ∃ ok s', c.run script spi s = some (ok, s') ∧ Transaction spi.pin.toUInt16 c.cmd s s' := by
  rw [Call.run]
  split
  · obtain ⟨res, s', hrun, h⟩ := read_transaction script spi c.cmd_ne c.buffer c.size s
    refine ⟨res.1, s', ?_, h⟩
    rw [bind_apply, hrun, Option.bind_some, pure_apply]
  · exact write_transaction script spi c.cmd_ne c.buffer c.size s

theorem runCalls_returns (calls : List Call) (s : SpiPort) :
    ∃ s', runCalls script spi calls s = some ((), s') := by
  induction calls generalizing s with
  | nil => exact ⟨s, rfl⟩
  | cons c cs ih =>
    obtain ⟨ok, s₁, hrun, -⟩ := c.run_transaction script spi s
    obtain ⟨s', hrest⟩ := ih s₁
    exact ⟨s', by rw [runCalls, bind_apply, hrun, Option.bind_some, hrest]⟩

/-- The mask of a frame is the one written first. -/
theorem CallFramed.mask_unique {m m' : UInt16} {s s' : SpiPort} (h : CallFramed m s s')
    (h' : CallFramed m' s s') : m = m' := by
  obtain ⟨ts, -, hlog, -⟩ := h
  obtain ⟨ts', -, hlog', -⟩ := h'
  have := List.append_cancel_left (hlog.symm.trans hlog')
  simp at this
  exact this.1

/-- Every run is framed by the mask that the object has kept. -/
theorem framed_pin (odr : UInt16) (calls : List Call) :
    Framed script spi spi.pin.toUInt16 odr calls := by
  intro before c after _
  obtain ⟨s, hs⟩ := runCalls_returns script spi before ⟨odr, []⟩
  obtain ⟨ok, s', hrun, h⟩ := c.run_transaction script spi s
  exact ⟨s, ok, s', hs, hrun, h.1⟩

/-- A run is framed by no other mask. -/
theorem framed_iff_pin (mask odr : UInt16) (calls : List Call) :
    Framed script spi mask odr calls ↔ calls = [] ∨ spi.pin.toUInt16 = mask := by
  constructor
  · intro h
    cases calls with
    | nil => exact Or.inl rfl
    | cons c cs =>
      obtain ⟨s, ok, s', hs, hrun, hframed⟩ := h [] c cs rfl
      obtain ⟨t, ok', t', ht, hrun', hpin⟩ := framed_pin script spi odr (c :: cs) [] c cs rfl
      obtain ⟨-, rfl⟩ := Prod.mk.inj (Option.some.inj (hs.symm.trans ht))
      obtain ⟨-, rfl⟩ := Prod.mk.inj (Option.some.inj (hrun.symm.trans hrun'))
      exact Or.inr (hpin.mask_unique hframed)
  · rintro (rfl | rfl)
    · intro before c after h
      exact absurd h (by simp)
    · exact framed_pin script spi odr calls

/-! ## The pins of a port -/

/-- `GPIO_PIN_0` to `GPIO_PIN_15`. -/
def gpioPin (k : Fin 16) : UInt16 := 1 <<< UInt16.ofNat k

/-- The member keeps the masks of the lower eight pins only. -/
theorem new_gpioPin (k : Fin 16) : (new (gpioPin k)).pin.toUInt16 = gpioPin k ↔ k.val < 8 := by
  revert k
  decide

/-- **For every initial register and all outcomes of the transfers, the calls on an object of a pin
are framed by it if and only if it is one of the pins 0 to 7, or there is no call.** -/
theorem framed_iff (k : Fin 16) (odr : UInt16) (calls : List Call) :
    Framed script (new (gpioPin k)) (gpioPin k) odr calls ↔ calls = [] ∨ k.val < 8 := by
  rw [framed_iff_pin, new_gpioPin]

/-- One write on an object of `GPIO_PIN_8`. -/
theorem write_pin8_unframed :
    ¬ Framed ⟨fun _ => .ok, fun _ buffer => buffer⟩ (new (gpioPin 8)) (gpioPin 8) 0xFFFF
      [⟨false, [0x06], by simp, [], .none⟩] := by
  rw [framed_iff_pin]
  decide

end Spi

end CommonDrivers
