import CommonDrivers.Gd5f.Driver
import CommonDrivers.Protocols.Qspi

/-! # The line modes of the QSPI object

The driver switches the line modes of the `QSPI` object around single commands. `Holds` is what
every call relies on and restores; each call is a Hoare triple over the recording bus, and the
triples add up to the invariant of every run. A call whose range runs past its block sends the
commands of the pages before the end and then fails an assertion, so the bus keeps its record when
a call aborts.
-/

namespace CommonDrivers.Gd5f

open Kept

variable {ρ : Type}

/-- A QSPI bus with its record. -/
abbrev QspiTrace (ρ : Type) := (Qspi × ρ) × List (Sent (Qspi × ρ))

/-- The modes in which the command of a transfer has to be sent. -/
structure Disciplined (hal : QspiHal) (e : Sent (Qspi × ρ)) : Prop where
  readId : e.opcode = some gd5fReadId → e.before.1.dataMode = hal.data1Line
  readFromCache : e.opcode = some gd5fReadFromCacheQuadIo →
    e.before.1.addressMode = hal.address4Lines ∧ e.before.1.dataMode = hal.data4Lines
  programLoad : e.opcode = some gd5fProgramLoadQuad →
    e.before.1.addressMode = hal.address1Line ∧ e.before.1.dataMode = hal.data4Lines
  oneLine : ∀ opcode ∈ [gd5fReadToCache, gd5fProgramExecute, gd5fErase, gd5fSetFeature],
    e.opcode = some opcode → e.before.1.addressMode = hal.address1Line

/-- Every transfer so far was disciplined. -/
def AllDisciplined (hal : QspiHal) (s : QspiTrace ρ) : Prop := ∀ e ∈ s.2, Disciplined hal e

/-- The object is in the given modes, and every transfer so far was disciplined. -/
structure Holds (hal : QspiHal) (address data : UInt32) (s : QspiTrace ρ) : Prop where
  address_eq : s.1.1.addressMode = address
  data_eq : s.1.1.dataMode = data
  sent : AllDisciplined hal s

/-- A transfer of `opcode` in the given modes is disciplined. -/
def Allowed (ρ : Type) (hal : QspiHal) (address data : UInt32) (opcode : UInt8) : Prop :=
  ∀ (r : ρ) cmd failed, Disciplined hal ⟨(⟨data, address⟩, r), opcode :: cmd, failed⟩

section Allowed

variable {hal : QspiHal} {opcode : UInt8}

/-- Between the calls everything but the id and the quad read can be sent. -/
theorem allowed_rest (hid : opcode ≠ gd5fReadId) (hquad : opcode ≠ gd5fReadFromCacheQuadIo) :
    Allowed ρ hal hal.address1Line hal.data4Lines opcode := by
  intro r cmd failed
  refine ⟨fun h => ?_, fun h => ?_, fun _ => ⟨rfl, rfl⟩, fun _ _ _ => rfl⟩
  · exact absurd (Option.some.inj h) hid
  · exact absurd (Option.some.inj h) hquad

/-- During initialisation everything but the two quad transfers can be sent. -/
theorem allowed_init (hread : opcode ≠ gd5fReadFromCacheQuadIo)
    (hload : opcode ≠ gd5fProgramLoadQuad) :
    Allowed ρ hal hal.address1Line hal.data1Line opcode := by
  intro r cmd failed
  refine ⟨fun _ => rfl, fun h => ?_, fun h => ?_, fun _ _ _ => rfl⟩
  · exact absurd (Option.some.inj h) hread
  · exact absurd (Option.some.inj h) hload

/-- With four address lines the quad read can be sent. -/
theorem allowed_quad :
    Allowed ρ hal hal.address4Lines hal.data4Lines gd5fReadFromCacheQuadIo := by
  intro r cmd failed
  refine ⟨fun h => ?_, fun _ => ⟨rfl, rfl⟩, fun h => ?_, fun opcode hmem h => ?_⟩
  · exact absurd (Option.some.inj h) (by decide)
  · exact absurd (Option.some.inj h) (by decide)
  · rw [← Option.some.inj h] at hmem
    exact absurd hmem (by decide)

end Allowed

/-! ## Rules for the recording bus -/

/-- The bus with its record, which it keeps when a call aborts. -/
abbrev recordingBus (hal : QspiHal) (T : Qspi.Transfers ρ) :
    ProtocolOver (OptionT (StateM (QspiTrace ρ))) :=
  (Qspi.bus hal T).traced.kept

section Rules

variable {hal : QspiHal} {T : Qspi.Transfers ρ} {address data : UInt32} {opcode : UInt8}

theorem Holds.snoc {s : QspiTrace ρ} (h : Holds hal address data s)
    (hok : Allowed ρ hal address data opcode) (r : ρ) (cmd : List UInt8) (failed : Bool) :
    Holds hal address data ((s.1.1, r), s.2 ++ [⟨s.1, opcode :: cmd, failed⟩]) := by
  refine ⟨h.address_eq, h.data_eq, ?_⟩
  have hmodes : s.1 = (⟨data, address⟩, s.1.2) := by
    rw [← h.address_eq, ← h.data_eq]
  rw [AllDisciplined, List.forall_mem_append, List.forall_mem_singleton, hmodes]
  exact ⟨h.sent, hok s.1.2 cmd failed⟩

theorem triple_write (hok : Allowed ρ hal address data opcode) (cmd buffer : List UInt8)
    (size : AddressSize) :
    Triple (Holds hal address data) ((recordingBus hal T).write (opcode :: cmd) buffer size)
      (fun _ => Holds hal address data) (AllDisciplined hal) := by
  refine Triple.atomic (fun _ h => h.sent) fun s failed s' h hrun => ?_
  rw [Protocol.traced_write, Qspi.bus, Option.map_map] at hrun
  obtain ⟨r, -, hr⟩ := Option.map_eq_some_iff.mp hrun
  obtain ⟨-, rfl⟩ := Prod.mk.inj hr
  exact h.snoc hok _ _ _

theorem triple_read (hok : Allowed ρ hal address data opcode) (cmd buffer : List UInt8)
    (size : AddressSize) :
    Triple (Holds hal address data) ((recordingBus hal T).read (opcode :: cmd) buffer size)
      (fun _ => Holds hal address data) (AllDisciplined hal) := by
  refine Triple.atomic (fun _ h => h.sent) fun s res s' h hrun => ?_
  rw [Protocol.traced_read, Qspi.bus, Option.map_map] at hrun
  obtain ⟨r, -, hr⟩ := Option.map_eq_some_iff.mp hrun
  obtain ⟨-, rfl⟩ := Prod.mk.inj hr
  exact h.snoc hok _ _ _

/-- `configure` sets one of the modes and sends nothing. -/
theorem triple_configure (config : Config) :
    Triple (Holds (ρ := ρ) hal address data) ((recordingBus hal T).configure config)
      (fun _ => Holds hal ((⟨data, address⟩ : Qspi).configure hal config).2.addressMode
        ((⟨data, address⟩ : Qspi).configure hal config).2.dataMode) (AllDisciplined hal) := by
  refine Triple.atomic (m := (Qspi.bus hal T).traced.configure config) (fun _ h => h.sent)
    fun s failed s' h hrun => ?_
  obtain ⟨-, rfl⟩ := Prod.mk.inj (Option.some.inj hrun)
  have hmodes : s.1.1 = ⟨data, address⟩ := by
    rw [← h.address_eq, ← h.data_eq]
  exact ⟨by rw [← hmodes], by rw [← hmodes], h.sent⟩

end Rules

/-! ## The calls of the driver -/

section Calls

variable (hal : QspiHal) (T : Qspi.Transfers ρ) (block offset : ℕ) (buffer : List UInt8)

/-- The modes between the calls. -/
abbrev AtRest (hal : QspiHal) : QspiTrace ρ → Prop := Holds hal hal.address1Line hal.data4Lines

theorem AtRest.sent {hal : QspiHal} (s : QspiTrace ρ) (h : AtRest hal s) : AllDisciplined hal s :=
  Holds.sent h

theorem triple_writeEnable {data : UInt32}
    (hok : Allowed ρ hal hal.address1Line data gd5fWriteEnable) :
    Triple (Holds hal hal.address1Line data) (writeEnable (recordingBus hal T))
      (fun _ => Holds hal hal.address1Line data) (AllDisciplined hal) :=
  triple_write hok _ _ _

/-- A page read switches to four address lines for its second command only. -/
theorem triple_readPage :
    Triple (AtRest hal) (readPage (recordingBus hal T) block offset buffer) (fun _ => AtRest hal)
      (AllDisciplined hal) := by
  refine Triple.assert_bind AtRest.sent fun _ => Triple.assert_bind AtRest.sent fun _ => ?_
  refine (triple_write (allowed_rest (by decide) (by decide)) _ _ _).bind _ fun _ => ?_
  refine (triple_configure .qspiAddress4).bind _ fun _ => ?_
  refine (triple_read allowed_quad _ _ _).bind _ fun _ => ?_
  refine (triple_configure .qspiAddress1).bind _ fun _ => ?_
  exact Triple.pure fun _ h => h

theorem triple_writePage :
    Triple (AtRest hal) (writePage (recordingBus hal T) block offset buffer) (fun _ => AtRest hal)
      (AllDisciplined hal) := by
  have hload : Allowed ρ hal hal.address1Line hal.data4Lines gd5fProgramLoadQuad :=
    allowed_rest (by decide) (by decide)
  refine Triple.assert_bind AtRest.sent fun _ => Triple.assert_bind AtRest.sent fun _ => ?_
  refine (triple_write hload _ _ _).bind _ fun _ => ?_
  refine (triple_writeEnable hal T (allowed_rest (by decide) (by decide))).bind _ fun err => ?_
  refine Triple.ite (fun _ => Triple.pure fun _ h => h) fun _ => ?_
  refine (triple_write (allowed_rest (by decide) (by decide)) _ _ _).bind _ fun _ => ?_
  exact Triple.pure fun _ h => h

theorem triple_readLoop :
    Triple (AtRest hal) (read (recordingBus hal T) block offset buffer) (fun _ => AtRest hal)
      (AllDisciplined hal) := by
  induction hn : buffer.length using Nat.strongRecOn generalizing offset buffer with
  | ind n ih =>
    subst hn
    rw [read]
    split
    · next hsize =>
      refine (triple_readPage hal T block offset buffer).bind _ fun s => ?_
      split
      · exact Triple.pure fun _ h => h
      · next hs =>
        have hdrop : (buffer.drop s.1).length = buffer.length - s.1 := List.length_drop
        refine (ih (buffer.drop s.1).length (by omega) _ _ rfl).bind _ fun rest => ?_
        exact Triple.pure fun _ h => h
    · exact Triple.pure fun _ h => h

theorem triple_writeLoop :
    Triple (AtRest hal) (write (recordingBus hal T) block offset buffer) (fun _ => AtRest hal)
      (AllDisciplined hal) := by
  induction hn : buffer.length using Nat.strongRecOn generalizing offset buffer with
  | ind n ih =>
    subst hn
    rw [write]
    split
    · next hsize =>
      refine (triple_writePage hal T block offset buffer).bind _ fun s => ?_
      split
      · exact Triple.pure fun _ h => h
      · next hs =>
        have hdrop : (buffer.drop s).length = buffer.length - s := List.length_drop
        exact ih (buffer.drop s).length (by omega) _ _ rfl
    · exact Triple.pure fun _ h => h

theorem triple_lfsRead :
    Triple (AtRest hal) (lfsRead (recordingBus hal T) block offset buffer) (fun _ => AtRest hal)
      (AllDisciplined hal) :=
  (triple_readLoop hal T block offset buffer).bind _ fun _ => Triple.pure fun _ h => h

theorem triple_lfsProg :
    Triple (AtRest hal) (lfsProg (recordingBus hal T) block offset buffer) (fun _ => AtRest hal)
      (AllDisciplined hal) :=
  (triple_writeLoop hal T block offset buffer).bind _ fun _ => Triple.pure fun _ h => h

theorem triple_lfsErase :
    Triple (AtRest hal) (lfsErase (recordingBus hal T) block) (fun _ => AtRest hal)
      (AllDisciplined hal) := by
  refine Triple.bind _ ?_ fun _ => Triple.pure fun _ h => h
  refine (triple_writeEnable hal T (allowed_rest (by decide) (by decide))).bind _ fun err => ?_
  refine Triple.ite (fun _ => Triple.pure fun _ h => h) fun _ => ?_
  refine (triple_write (allowed_rest (by decide) (by decide)) _ _ _).bind _ fun _ => ?_
  exact Triple.pure fun _ h => h

/-- The data mode between the calls, by the result of the last `init`. -/
def restData (hal : QspiHal) (last : Option Bool) : UInt32 :=
  if last = some false then hal.data1Line else hal.data4Lines

/-- `init` leaves one data line if it gives up; the data mode it finds does not matter. -/
theorem triple_init (data : UInt32) :
    Triple (Holds hal hal.address1Line data) (init (recordingBus hal T))
      (fun ok => Holds hal hal.address1Line (restData hal (some ok))) (AllDisciplined hal) := by
  refine (triple_configure .qspiData1).bind _ fun _ => ?_
  refine (triple_read (allowed_init (by decide) (by decide)) _ _ _).bind _ fun _ => ?_
  refine Triple.ite (fun _ => Triple.pure fun _ h => h) fun _ => ?_
  refine (triple_writeEnable hal T (allowed_init (by decide) (by decide))).bind _ fun err => ?_
  refine Triple.ite (fun _ => Triple.pure fun _ h => h) fun _ => ?_
  refine (triple_write (allowed_init (by decide) (by decide)) _ _ _).bind _ fun _ => ?_
  refine Triple.ite (fun _ => ?_) fun h => absurd rfl h
  refine (triple_write (allowed_init (by decide) (by decide)) _ _ _).bind _ fun _ => ?_
  refine (triple_configure .qspiData4).bind _ fun _ => ?_
  exact Triple.pure fun _ h => h

end Calls

/-! ## Runs -/

/-- A call of the driver, with a range of any size. -/
inductive LfsCall
  | init
  | lfsRead (block offset : ℕ) (data : List UInt8)
  | lfsProg (block offset : ℕ) (data : List UInt8)
  | lfsErase (block : ℕ)

namespace LfsCall

/-- The littlefs callbacks are called only while the last `init` has returned `true`. -/
def Ready (last : Option Bool) : LfsCall → Prop
  | .init => True
  | _ => last = some true

/-- The call; its result is that of the last `init` then. -/
def run {m : Type → Type} [Monad m] [MonadAssert m] (P : ProtocolOver m) (last : Option Bool) :
    LfsCall → m (Option Bool)
  | .init => do
    let ok ← Gd5f.init P
    return some ok
  | .lfsRead block offset data => do
    let _ ← Gd5f.lfsRead P block offset data
    return last
  | .lfsProg block offset data => do
    let _ ← Gd5f.lfsProg P block offset data
    return last
  | .lfsErase block => do
    let _ ← Gd5f.lfsErase P block
    return last

/-- Every call starts and returns in the modes between the calls. -/
theorem triple_run (hal : QspiHal) (T : Qspi.Transfers ρ) {c : LfsCall} {last : Option Bool}
    (hready : c.Ready last) :
    Triple (Holds hal hal.address1Line (restData hal last)) (c.run (recordingBus hal T) last)
      (fun last' => Holds hal hal.address1Line (restData hal last')) (AllDisciplined hal) := by
  cases c with
  | init => exact (triple_init hal T _).bind _ fun ok => Triple.pure fun _ h => h
  | lfsRead block offset data =>
    obtain rfl : last = some true := hready
    exact (triple_lfsRead hal T block offset data).bind _ fun _ => Triple.pure fun _ h => h
  | lfsProg block offset data =>
    obtain rfl : last = some true := hready
    exact (triple_lfsProg hal T block offset data).bind _ fun _ => Triple.pure fun _ h => h
  | lfsErase block =>
    obtain rfl : last = some true := hready
    exact (triple_lfsErase hal T block).bind _ fun _ => Triple.pure fun _ h => h

end LfsCall

/-- A run from a fresh object: the states in which a call has returned, with the result of the last
`init`. -/
inductive LfsRun (hal : QspiHal) (T : Qspi.Transfers ρ) (r : ρ) :
    Option Bool → QspiTrace ρ → Prop
  | fresh : LfsRun hal T r none ((Qspi.fresh hal, r), [])
  | call {last last' s s'} (run : LfsRun hal T r last s) (c : LfsCall) (ready : c.Ready last)
      (returned : exec (c.run (recordingBus hal T) last) s = (some last', s')) :
      LfsRun hal T r last' s'

theorem LfsRun.holds {hal : QspiHal} {T : Qspi.Transfers ρ} {r : ρ} {last : Option Bool}
    {s : QspiTrace ρ} (run : LfsRun hal T r last s) :
    Holds hal hal.address1Line (restData hal last) s := by
  induction run with
  | fresh => exact ⟨rfl, rfl, fun _ h => absurd h List.not_mem_nil⟩
  | call run c ready returned ih => exact (LfsCall.triple_run hal T ready).returns ih returned

/-- **On every run, whatever the transfers do, every command is sent in its line modes, also those
of a call that aborts, and whenever a call returns the modes are restored: one address line, and
four data lines unless the last `init` gave up.** -/
theorem lfsRun_holds {hal : QspiHal} {T : Qspi.Transfers ρ} {r : ρ} {last : Option Bool}
    {s : QspiTrace ρ} (run : LfsRun hal T r last s) :
    s.1.1.addressMode = hal.address1Line ∧
      (last ≠ some false → s.1.1.dataMode = hal.data4Lines) ∧ (∀ e ∈ s.2, Disciplined hal e) ∧
      ∀ c : LfsCall, c.Ready last →
        ∀ e ∈ (exec (c.run (recordingBus hal T) last) s).2.2, Disciplined hal e :=
  ⟨run.holds.address_eq, fun hlast => run.holds.data_eq.trans (if_neg hlast), run.holds.sent,
    fun _ ready => (LfsCall.triple_run hal T ready).ends (fun _ _ h => h.sent) run.holds⟩

/-! ## A run with a call that aborts -/

section Rounds

variable {σ : Type} {P : ProtocolOver (OptionT (StateM σ))} {block offset n : ℕ}
variable {buffer data : List UInt8} {s s' : σ}

/-- A round of the read loop whose page call makes progress. -/
theorem exec_read_step (hsize : 0 < buffer.length) (hn : n ≠ 0)
    (hpage : exec (readPage P block offset buffer) s = (some (n, data), s')) :
    exec (read P block offset buffer) s =
      exec (do
        let rest ← read P block (offset + n) (buffer.drop n)
        return (rest.1, data ++ rest.2)) s' := by
  rw [read, dif_pos hsize, exec_bind_some _ hpage, dif_neg hn]

/-- A round of the write loop whose page call makes progress. -/
theorem exec_write_step (hsize : 0 < buffer.length) (hn : n ≠ 0)
    (hpage : exec (writePage P block offset buffer) s = (some n, s')) :
    exec (write P block offset buffer) s =
      exec (write P block (offset + n) (buffer.drop n)) s' := by
  rw [write, dif_pos hsize, exec_bind_some _ hpage, dif_neg hn]

/-- A read within one page. -/
theorem exec_lfsRead_page {last : Option Bool} (hsize : 0 < buffer.length)
    (hpage : exec (readPage P block offset buffer) s = (some (buffer.length, data), s')) :
    exec (LfsCall.run P last (.lfsRead block offset buffer)) s = (some last, s') := by
  have hloop := exec_read_step hsize (Nat.pos_iff_ne_zero.mp hsize) hpage
  have hrest : exec (read P block (offset + buffer.length) (buffer.drop buffer.length)) s' =
      (some (true, []), s') := by
    rw [read, dif_neg (by simp), exec_pure]
  rw [exec_bind_some _ hrest, exec_pure] at hloop
  have hcall : exec (lfsRead P block offset buffer) s = (some (.ok, data ++ []), s') :=
    exec_bind_some _ hloop
  exact exec_bind_some _ hcall

/-- A program within one page. -/
theorem exec_lfsProg_page {last : Option Bool} (hsize : 0 < buffer.length)
    (hpage : exec (writePage P block offset buffer) s = (some buffer.length, s')) :
    exec (LfsCall.run P last (.lfsProg block offset buffer)) s = (some last, s') := by
  have hrest : exec (write P block (offset + buffer.length) (buffer.drop buffer.length)) s' =
      (some true, s') := by
    rw [write, dif_neg (by simp), exec_pure]
  have hloop := exec_write_step hsize (Nat.pos_iff_ne_zero.mp hsize) hpage
  rw [hrest] at hloop
  have hcall : exec (lfsProg P block offset buffer) s = (some .ok, s') := exec_bind_some _ hloop
  exact exec_bind_some _ hcall

/-- A read that runs past its block stops behind the page before the end. -/
theorem exec_lfsRead_overrun {last : Option Bool} (hsize : n < buffer.length) (hn : n ≠ 0)
    (hend : gd5fBlockSize ≤ offset + n)
    (hpage : exec (readPage P block offset buffer) s = (some (n, data), s')) :
    exec (LfsCall.run P last (.lfsRead block offset buffer)) s = (none, s') := by
  have hloop := exec_read_step (Nat.zero_lt_of_lt hsize) hn hpage
  have hrest : exec (read P block (offset + n) (buffer.drop n)) s' = (none, s') := by
    rw [read, dif_pos (by rw [List.length_drop]; omega)]
    refine exec_bind_none _ ?_
    rw [readPage]
    by_cases hblock : block < gd5fBlockCount
    · rw [exec_bind_some _ (exec_assert hblock s')]
      exact exec_bind_none _ (exec_assert_fail (Nat.not_lt.mpr hend) s')
    · exact exec_bind_none _ (exec_assert_fail hblock s')
  rw [exec_bind_none _ hrest] at hloop
  exact exec_bind_none _ (exec_bind_none _ hloop)

end Rounds

/-- An `init` that unlocks the chip, a read and a program of one byte and an erase; behind them a
read of two bytes from the last one of a block, which has sent the two commands of its first page
when it aborts. -/
theorem lfsRun_holds_overrun :
    let T := Qspi.scripted (fun _ => false) fun _ _ => [0xC8, 0x31]
    let overrun : LfsCall := .lfsRead 3 131071 [0, 0]
    ∃ s s' sent, LfsRun Qspi.stm32 T 0 (some true) s ∧
      exec (overrun.run (recordingBus Qspi.stm32 T) (some true)) s = (none, s') ∧
      s'.2 = s.2 ++ sent ∧ sent.length = 2 ∧
      (s.1.1.addressMode = Qspi.stm32.address1Line ∧
        (some true ≠ some false → s.1.1.dataMode = Qspi.stm32.data4Lines) ∧
        (∀ e ∈ s.2, Disciplined Qspi.stm32 e) ∧
        ∀ c : LfsCall, c.Ready (some true) →
          ∀ e ∈ (exec (c.run (recordingBus Qspi.stm32 T) (some true)) s).2.2,
            Disciplined Qspi.stm32 e) := by
  intro T overrun
  -- in any state, each call returns or aborts as its first page does
  have hread : ∀ s, ∃ s', exec (LfsCall.run (recordingBus Qspi.stm32 T) (some true)
      (.lfsRead 3 0 [0])) s = (some (some true), s') :=
    fun s => ⟨_, exec_lfsRead_page (by decide) rfl⟩
  have hprog : ∀ s, ∃ s', exec (LfsCall.run (recordingBus Qspi.stm32 T) (some true)
      (.lfsProg 3 0 [0x5A])) s = (some (some true), s') :=
    fun s => ⟨_, exec_lfsProg_page (by decide) rfl⟩
  have herase : ∀ s, ∃ s', exec (LfsCall.run (recordingBus Qspi.stm32 T) (some true)
      (.lfsErase 3)) s = (some (some true), s') := fun s => ⟨_, rfl⟩
  have hstop : ∀ s, ∃ s' sent, exec (overrun.run (recordingBus Qspi.stm32 T) (some true)) s =
      (none, s') ∧ s'.2 = s.2 ++ sent ∧ sent.length = 2 := fun s =>
    ⟨_, _, exec_lfsRead_overrun (n := 1) (by decide) (by decide) (by decide) rfl,
      List.append_assoc .., rfl⟩
  have hinit : LfsRun Qspi.stm32 T 0 (some true) _ := LfsRun.fresh.call .init trivial rfl
  obtain ⟨s₁, hs₁⟩ := hread _
  obtain ⟨s₂, hs₂⟩ := hprog s₁
  obtain ⟨s₃, hs₃⟩ := herase s₂
  obtain ⟨s', sent, habort, hsent, hlen⟩ := hstop s₃
  have hrun : LfsRun Qspi.stm32 T 0 (some true) s₃ :=
    ((hinit.call (.lfsRead 3 0 [0]) rfl hs₁).call (.lfsProg 3 0 [0x5A]) rfl hs₂).call (.lfsErase 3)
      rfl hs₃
  exact ⟨s₃, s', sent, hrun, habort, hsent, hlen, lfsRun_holds hrun⟩

end CommonDrivers.Gd5f
