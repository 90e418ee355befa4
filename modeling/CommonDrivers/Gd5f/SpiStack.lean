import CommonDrivers.Gd5f.Chip

/-! # The whole stack over SPI

The callbacks and `init`, over an `SPI` object, over a port, over the chip. With a pin that the
object can hold, the stack refines the lockable block device from any state of the chip on. With a
pin among the upper eight, every call goes through and the chip never hears of it.
-/

namespace CommonDrivers.Gd5f

open Exec Spi

/-! ## Calls over alike buses -/

section Alike

variable {σ τ δ : Type} {R : σ → τ → Prop} {P : Protocol σ} {Q : Protocol τ}

theorem Call.run_simulates (call : Call) (h : ∀ ops rows, Alike R P Q ops rows) :
    Simulates R (call.run P) (call.run Q) := by
  cases call with
  | init => exact (init_simulates (h initOps fun _ => False)).bind fun _ => Simulates.pure _
  | request q => exact (q.run_simulates (h q.ops q.Rows)).bind fun _ => Simulates.pure _

/-- The relation of a deselected slave to the slave. -/
def Deselected (w : Wire δ) (d : δ) : Prop := w = .idle d

variable (S : Slave δ) {spi : Spi} {cs : UInt16} (floating : UInt8) (ops : List UInt8)
variable (rows : ℕ → Prop)

/-- For the driver, an object with the pin of the slave is a bus of whole frames. -/
theorem alike_wire (hcs : spi.pin.toUInt16 &&& cs ≠ 0) :
    Alike Deselected (busOn (wireHal S cs floating) spi) (slaveBus S) ops rows := by
  refine ⟨rfl, fun _ => Simulates.pure _, ?_, ?_⟩
  · rintro op cmd buffer size - hissued _ d rfl
    obtain ⟨hcmd, hcmdLen, hbufLen⟩ := hissued.size
    have hrun := writeOn_wire S floating hcs hcmd hcmdLen hbufLen size d
    rw [slaveBus_write, show (busOn (wireHal S cs floating) spi).write _ _ _ _ = _ from hrun]
    exact .some ⟨rfl, rfl⟩
  · rintro op cmd buffer size - hissued _ d rfl
    obtain ⟨hcmd, hcmdLen, hbuf, hbufLen⟩ := hissued.size
    have hrun := readOn_wire S floating hcs hcmd hcmdLen hbuf hbufLen size d
    rw [slaveBus_read, show (busOn (wireHal S cs floating) spi).read _ _ _ _ = _ from hrun]
    exact .some ⟨rfl, rfl⟩

/-- For the driver, an object with another pin is a bus on which nobody listens. -/
theorem alike_floating (hcs : spi.pin.toUInt16 &&& cs = 0) :
    Alike Deselected (busOn (wireHal S cs floating) spi) (floatingBus δ floating) ops rows := by
  refine ⟨rfl, fun _ => Simulates.pure _, ?_, ?_⟩
  · rintro op cmd buffer size - hissued _ d rfl
    obtain ⟨hcmd, hcmdLen, hbufLen⟩ := hissued.size
    have hrun := writeOn_floating S floating hcs hcmd hcmdLen hbufLen size d
    rw [floatingBus_write, show (busOn (wireHal S cs floating) spi).write _ _ _ _ = _ from hrun]
    exact .some ⟨rfl, rfl⟩
  · rintro op cmd buffer size - hissued _ d rfl
    obtain ⟨hcmd, hcmdLen, hbuf, hbufLen⟩ := hissued.size
    have hrun := readOn_floating S floating hcs hcmd hcmdLen hbuf hbufLen size d
    rw [floatingBus_read, show (busOn (wireHal S cs floating) spi).read _ _ _ _ = _ from hrun]
    exact .some ⟨rfl, rfl⟩

end Alike

/-! ## The stack -/

/-- The bus of an `SPI` object of pin `k`, on a port to whose pin `k` the chip select of the chip is
connected. -/
def stack (locks : UInt8 → ℕ → Bool) (floating : UInt8) (k : Fin 16) : Protocol (Wire Chip) :=
  busOn (wireHal (Chip.slave locks) (gpioPin k) floating) (new (gpioPin k))

/-- A sequence of calls from the deselected chip on. -/
def session (locks : UInt8 → ℕ → Bool) (floating : UInt8) (k : Fin 16) (calls : List Call)
    (c : Chip) : Option (List Reply × Wire Chip) :=
  each (Call.run (stack locks floating k)) calls (.idle c)

/-- **The stack refines the lockable block device.** For a pin among the lower eight, from any state
of the chip, any sequence of calls returns what the ideal device returns and leaves the chip
deselected with the ideal device's contents and locks. -/
theorem session_refines (locks : UInt8 → ℕ → Bool) (hlocks : ∀ block, locks 0 block = false)
    (floating : UInt8) {k : Fin 16} (hk : k.val < 8) (calls : List Call) (c : Chip) :
    ∃ c', session locks floating k calls c =
        some ((steps LockableDevice.apply calls (c.lockable locks)).1, .idle c') ∧
      c'.lockable locks = (steps LockableDevice.apply calls (c.lockable locks)).2 := by
  have hcs := (new_gpioPin_and k).mpr hk
  have hcall : ∀ call (w : Wire Chip) d, (∃ c, Deselected w c ∧ c.lockable locks = d) →
      ∃ w', call.run (stack locks floating k) w = some ((LockableDevice.apply call d).1, w') ∧
        ∃ c', Deselected w' c' ∧ c'.lockable locks = (LockableDevice.apply call d).2 := by
    rintro call w _ ⟨c, hw, rfl⟩
    -- the call on whole frames, then the same call on the wire
    obtain ⟨c', hrun, hc'⟩ := call.run_chip hlocks c
    obtain ⟨w', hrun', hw'⟩ :=
      (call.run_simulates fun ops rows => alike_wire _ floating ops rows hcs).returns hw hrun
    exact ⟨w', hrun', c', hw', hc'⟩
  obtain ⟨w', hrun, c', rfl, hc'⟩ := each_refines LockableDevice.apply hcall calls ⟨c, rfl, rfl⟩
  exact ⟨c', hrun, hc'⟩

/-- A chip that powers up with every block locked and erased. -/
def freshChip : Chip := ⟨⟨fun _ _ => 0xFF, fun _ => 0xFF, false⟩, 0x38⟩

/-- A program and a read of one byte of the first block, then the same behind an `init`. -/
def probe : List Call :=
  let prog : Call := .request (.prog ⟨0, by decide⟩ 5 [0x5A] (by decide))
  let read : Call := .request (.read ⟨0, by decide⟩ 5 [0] (by decide))
  [prog, read, .init, prog, read]

/-- Over `GPIO_PIN_4` the first program is lost and the second one is not. -/
theorem session_refines_probe :
    ∃ c', session (fun p _ => p != 0) 0xFF 4 probe freshChip =
      some ([.served (.ok, []), .served (.ok, [0xFF]), .started true, .served (.ok, []),
        .served (.ok, [0x5A])], .idle c') := by
  obtain ⟨c', hrun, -⟩ :=
    session_refines (fun p _ => p != 0) (fun _ => rfl) 0xFF (k := 4) (by decide) probe freshChip
  exact ⟨c', hrun⟩

/-! ## The upper pins -/

/-- What a call returns while nobody listens. -/
def Call.unheard (floating : UInt8) : Call → Reply
  | .init => .started (decide (floating = 0xC8 ∨ floating = 0x31))
  | .request (.read _ _ data _) => .served (.ok, List.replicate data.length floating)
  | .request _ => .served (.ok, [])

section Floating

variable {δ : Type} (floating : UInt8)

theorem readPage_floating {block offset : ℕ} (buffer : List UInt8) (d : δ)
    (hb : block < gd5fBlockCount) (ho : offset < gd5fBlockSize) :
    readPage (floatingBus δ floating) block offset buffer d =
      some ((chunk offset buffer.length,
        List.replicate (chunk offset buffer.length) floating), d) := by
  simp only [readPage, bind_apply, assert_apply hb, assert_apply ho, floatingBus_write,
    floatingBus_configure, floatingBus_read, pure_apply, Option.bind_some]
  rw [← chunk, length_take_chunk]

theorem read_floating {block : ℕ} (hb : block < gd5fBlockCount) (offset : ℕ) (buffer : List UInt8)
    (d : δ) (h : offset + buffer.length ≤ gd5fBlockSize) :
    read (floatingBus δ floating) block offset buffer d =
      some ((true, List.replicate buffer.length floating), d) := by
  induction offset, buffer using page_induction with
  | nil offset => exact read_nil _ block offset d
  | page offset buffer hsize ih =>
    have hle := chunk_le offset buffer.length
    rw [List.length_drop] at ih
    rw [read_step hsize (chunk_pos offset hsize)
      (readPage_floating floating buffer d hb (by omega : offset < gd5fBlockSize)),
      ih (by omega), Option.bind_some, List.replicate_append_replicate, Nat.add_sub_cancel' hle]

/-- Every transfer on a floating bus succeeds and does nothing. -/
theorem keeps_floating (d : δ) (ops : List UInt8) (rows : ℕ → Prop) :
    Keeps (· = d) (· = false) (floatingBus δ floating) ops rows := by
  refine ⟨?_, ?_, ?_⟩
  · rintro _ _ rfl
    exact ⟨false, _, rfl, rfl⟩
  · rintro _ _ _ _ - - _ rfl
    exact ⟨false, _, rfl, rfl, rfl⟩
  · rintro _ _ buffer _ - - _ rfl
    exact ⟨(false, List.replicate buffer.length floating), _, rfl, rfl⟩

theorem Request.run_floating {q : Request} (hq : q.isRead = false) (d : δ) :
    q.run (floatingBus δ floating) d = some ((.ok, []), d) := by
  obtain ⟨x, d', hrun, hok, rfl⟩ := q.run_keeps (keeps_floating floating d q.ops q.Rows) d rfl
  have hx : x = (.ok, []) :=
    Prod.ext (hok.resolve_right Bool.noConfusion) (Request.run_data hq hrun)
  rw [hrun, hx]

theorem init_floating (d : δ) :
    init (floatingBus δ floating) d = some (decide (floating = 0xC8 ∨ floating = 0x31), d) := by
  have hspi : ¬ (floatingBus δ floating).type = .qspi := ProtocolType.noConfusion
  have hid : List.replicate [(0 : UInt8), 0].length floating = [floating, floating] := rfl
  simp only [init, writeEnable, bind_apply, floatingBus_configure, floatingBus_read,
    Option.bind_some, hid, List.getElem?_cons_zero, List.getElem?_cons_succ, ne_eq,
    Option.some.injEq, if_neg hspi]
  -- the id is refused only if both bytes of it are wrong
  by_cases hgate : ¬ floating = 0xC8 ∧ ¬ floating = 0x31
  · rw [if_pos hgate, decide_eq_false (not_or.mpr hgate)]
    rfl
  · rw [if_neg hgate, decide_eq_true (by rwa [← not_or, not_not] at hgate)]
    rfl

theorem Call.run_floating (call : Call) (d : δ) :
    call.run (floatingBus δ floating) d = some (call.unheard floating, d) := by
  cases call with
  | init =>
    rw [Call.run, bind_apply, init_floating]
    rfl
  | request q =>
    cases q with
    | read block offset data hbound =>
      rw [Call.run, Request.run, lfsRead, bind_apply, bind_apply,
        read_floating floating block.isLt offset data d hbound]
      rfl
    | prog block offset data hbound =>
      rw [Call.run, bind_apply, Request.run_floating floating rfl]
      rfl
    | erase block =>
      rw [Call.run, bind_apply, Request.run_floating floating rfl]
      rfl

end Floating

/-- **A pin among the upper eight.** Every call of every session goes through: the callbacks report
success, a read returns the floating input. The chip stays as it was. -/
theorem session_unheard (locks : UInt8 → ℕ → Bool) (floating : UInt8) {k : Fin 16}
    (hk : 8 ≤ k.val) (calls : List Call) (c : Chip) :
    session locks floating k calls c = some (calls.map (Call.unheard floating), .idle c) := by
  have hcs : (new (gpioPin k)).pin.toUInt16 &&& gpioPin k = 0 :=
    not_not.mp fun h => absurd ((new_gpioPin_and k).mp h) (by omega)
  have hcall : ∀ (call : Call) (w : Wire Chip) d, Deselected w d →
      ∃ w', call.run (stack locks floating k) w = some (call.unheard floating, w') ∧
        Deselected w' d := by
    intro call w d hw
    exact (call.run_simulates fun ops rows => alike_floating _ floating ops rows hcs).returns hw
      (call.run_floating floating d)
  have hstart : Deselected (.idle c) c := rfl
  obtain ⟨w', hrun, hw'⟩ :=
    each_refines (fun call d => (Call.unheard floating call, d)) hcall calls hstart
  rw [steps_stateless] at hrun hw'
  rw [session, hrun, show w' = .idle c from hw']

/-- Over `GPIO_PIN_12` both programs are lost and report success. -/
theorem session_unheard_probe :
    session (fun _ _ => false) 0xFF 12 probe freshChip =
      some ([.served (.ok, []), .served (.ok, [0xFF]), .started false, .served (.ok, []),
        .served (.ok, [0xFF])], .idle freshChip) :=
  session_unheard _ _ (by decide) _ _

end CommonDrivers.Gd5f
