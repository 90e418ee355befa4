import CommonDrivers.Gd5f.Issued
import CommonDrivers.Protocols.SpiWire

/-! # The chip on the wire

The flash chip as an SPI slave, with its id and the register that locks its blocks. `LockableDevice`
says what `init` and the callbacks make of it: on the bus of its frames they refine a block device
whose locks `init` removes.
-/

namespace CommonDrivers.Gd5f

open Exec Spi

/-! ## The chip as a slave -/

/-- The chip and its protection register. -/
structure Chip where
  nand : Nand
  protection : UInt8

namespace Chip

-- which blocks each value of the protection register locks
variable (locks : UInt8 → ℕ → Bool)

/-- A command that addresses a row. The chip refuses to change a locked block. -/
def addressed (op : UInt8) (row : ℕ) (d : Chip) : Chip :=
  let refused := locks d.protection (row / gd5fPagesPerBlock)
  if op = gd5fReadToCache then { d with nand := d.nand.fetch row }
  else if op = gd5fProgramExecute then
    { d with nand := if refused then { d.nand with writeEnabled := false } else d.nand.execute row }
  else if op = gd5fErase then
    { d with
      nand := if refused then { d.nand with writeEnabled := false } else d.nand.eraseBlock row }
  else d

/-- What a frame has done when the chip is deselected. Frames it does not know are ignored. -/
def finish (d : Chip) : List UInt8 → Chip
  | [] => d
  | op :: args =>
    if op = gd5fWriteEnable then { d with nand := { d.nand with writeEnabled := true } }
    else if op = gd5fProgramLoad then
      match args with
      | c1 :: c0 :: data => { d with nand := d.nand.load (colOf c1 c0) data }
      | _ => d
    else if op = gd5fSetFeature then
      match args with
      | [register, value] => if register = 0xA0 then { d with protection := value } else d
      | _ => d
    else
      match args with
      | [r2, r1, r0] => d.addressed locks op (rowOf r2 r1 r0)
      | _ => d

/-- The byte that the chip shifts out: the cache behind one dummy byte, or its id behind one. -/
def output (d : Chip) : List UInt8 → UInt8
  | [] => 0xFF
  | op :: args =>
    if op = gd5fReadFromCache then
      match args with
      | c1 :: c0 :: _ :: sent => d.nand.cache (colOf c1 c0 + sent.length)
      | _ => 0xFF
    else if op = gd5fReadId then
      match args with
      | [_] => 0xC8
      | [_, _] => 0x31
      | _ => 0xFF
    else 0xFF

/-- The chip at the end of the wire. -/
def slave : Slave Chip := ⟨output, finish locks⟩

/-! ### The frames of the driver -/

variable (d : Chip)

theorem finish_load {col : ℕ} (h : col < 2048) (data : List UInt8) :
    d.finish locks (gd5fProgramLoad :: colBytes col ++ data) =
      { d with nand := d.nand.load col data } := by
  rw [colBytes_eq h]
  simp only [finish, List.cons_append, List.nil_append]
  rw [if_neg (by decide), if_pos trivial, colOf_colBytes h]

theorem finish_row {op : UInt8} (hop : op ∈ [gd5fReadToCache, gd5fProgramExecute, gd5fErase])
    {row : ℕ} (h : row < 2 ^ 24) :
    d.finish locks (op :: rowBytes row) = d.addressed locks op row := by
  have hne : op ≠ gd5fWriteEnable ∧ op ≠ gd5fProgramLoad ∧ op ≠ gd5fSetFeature := by
    rcases List.mem_cons.mp hop with rfl | hop
    · decide
    · rcases List.mem_cons.mp hop with rfl | hop
      · decide
      · obtain rfl := List.mem_singleton.mp hop
        decide
  rw [rowBytes_eq]
  simp only [finish]
  rw [if_neg hne.1, if_neg hne.2.1, if_neg hne.2.2, rowOf_rowBytes h]

/-- A frame that reads changes nothing. -/
theorem finish_cache {col : ℕ} (h : col < 2048) (buffer : List UInt8) :
    d.finish locks (gd5fReadFromCache :: (colBytes col ++ [0x00]) ++ buffer) = d := by
  rw [colBytes_eq h]
  simp only [finish, List.cons_append, List.nil_append]
  rw [if_neg (by decide), if_neg (by decide), if_neg (by decide)]
  cases buffer with
  | nil => rfl
  | cons b rest => rfl

theorem reply_cache {col : ℕ} (h : col < 2048) (buffer : List UInt8) :
    (slave locks).reply d (gd5fReadFromCache :: (colBytes col ++ [0x00])) buffer =
      (List.range buffer.length).map fun k => d.nand.cache (col + k) := by
  rw [colBytes_eq h]
  refine List.map_congr_left fun k hk => ?_
  simp only [slave, output, List.cons_append, List.nil_append]
  rw [if_pos trivial, colOf_colBytes h, List.length_take,
    Nat.min_eq_left (List.mem_range.mp hk).le]

end Chip

/-! ## The ideal lockable device -/

/-- A block device with a lock on each block. -/
structure LockableDevice where
  data : BlockDevice
  locked : Fin gd5fBlockCount → Bool

/-- A call of `init` or of a callback. -/
inductive Call
  | init
  | request (q : Request)

inductive Reply
  | started (ok : Bool)
  | served (x : Response)

/-- The call of the driver. -/
def Call.run {σ : Type} (P : Protocol σ) : Call → Exec σ Reply
  | .init => do
    let ok ← Gd5f.init P
    return .started ok
  | .request q => do
    let x ← q.run P
    return .served x

/-- The meaning of a call: `init` removes all locks, a request on a locked block returns what it
would return on an open one and changes nothing. -/
def LockableDevice.apply : Call → LockableDevice → Reply × LockableDevice
  | .init, d => (.started true, { d with locked := fun _ => false })
  | .request q, d =>
    (.served (BlockDevice.apply q d.data).1,
      if d.locked q.block then d else { d with data := (BlockDevice.apply q d.data).2 })

/-- The abstraction function. -/
def Chip.lockable (locks : UInt8 → ℕ → Bool) (d : Chip) : LockableDevice :=
  ⟨contents d.nand, fun block => locks d.protection block⟩

/-! ## Requests on the chip -/

section Requests

variable {locks : UInt8 → ℕ → Bool}

/-- The chip with the content `n` of its array and the value `p` of its protection register. -/
def Holding (p : UInt8) (c : Chip) (n : Nand) : Prop := c.nand = n ∧ c.protection = p

theorem row_lt_address {r : ℕ} (h : r < gd5fBlockCount * gd5fPagesPerBlock) : r < 2 ^ 24 :=
  h.trans (by decide)

/-- On the SPI a callback reads from the cache behind one dummy byte. -/
theorem IssuedRead.spi {op : UInt8} {cmd buffer : List UInt8} {size : AddressSize}
    (h : IssuedRead .spi (op :: cmd) buffer size) (hop : op ≠ gd5fReadId) :
    ∃ col, col < gd5fPageSize ∧ op :: cmd = gd5fReadFromCache :: (colBytes col ++ [0x00]) := by
  generalize hcmd : op :: cmd = full at h
  cases h with
  | id => exact absurd (List.cons.inj hcmd).1 hop
  | @cache col _ hcol hpos hlen => exact ⟨col, hcol, rfl⟩

/-- On rows that are not locked the chip is the plain device. -/
theorem alike_chip {p : UInt8} {ops : List UInt8} {rows : ℕ → Prop}
    (hops : gd5fReadId ∉ ops ∧ gd5fSetFeature ∉ ops)
    (hopen : ∀ r, rows r → gd5fProgramExecute ∈ ops ∨ gd5fErase ∈ ops →
      locks p (r / gd5fPagesPerBlock) = false) :
    Alike (Holding p) (slaveBus (Chip.slave locks)) (nandBus .spi) ops rows := by
  refine ⟨rfl, fun _ => Simulates.pure _, ?_, ?_⟩
  · rintro op cmd buffer size hop hissued ⟨n, _⟩ _ ⟨rfl, rfl⟩
    rw [slaveBus_write, nandBus_write]
    refine .some ⟨rfl, ?_⟩
    cases hissued with
    | enable => exact ⟨rfl, rfl⟩
    | row hmem hr hlt =>
      have hrow := row_lt_address hlt
      rw [List.append_nil]
      simp only [Chip.slave, Chip.finish_row locks _ hmem hrow]
      rcases List.mem_cons.mp hmem with rfl | hmem
      · rw [Nand.command_fetch _ hrow]
        exact ⟨rfl, rfl⟩
      · rcases List.mem_cons.mp hmem with rfl | hmem
        · rw [Nand.command_execute _ hrow]
          simp only [Chip.addressed, hopen _ hr (Or.inl hop)]
          exact ⟨rfl, rfl⟩
        · obtain rfl := List.mem_singleton.mp hmem
          rw [Nand.command_erase _ hrow]
          simp only [Chip.addressed, hopen _ hr (Or.inr hop)]
          exact ⟨rfl, rfl⟩
    | load hcol hdata =>
      have hload : (if (nandBus .spi).type = .qspi then gd5fProgramLoadQuad else gd5fProgramLoad) =
          gd5fProgramLoad := rfl
      rw [hload, Nand.command_load _ (Or.inl rfl) hcol]
      simp only [Chip.slave, Chip.finish_load locks _ hcol]
      exact ⟨rfl, rfl⟩
    | unlock => exact absurd hop hops.2
    | quad ht => exact absurd ht (by decide)
  · rintro op cmd buffer size hop hissued ⟨n, _⟩ _ ⟨rfl, rfl⟩
    obtain ⟨col, hcol, hcmd⟩ := IssuedRead.spi hissued fun h => hops.1 (h ▸ hop)
    have hreply := @Nand.reply_readFromCache n False _ col hcol buffer
    rw [hcmd, slaveBus_read, nandBus_read]
    refine .some ⟨?_, ?_⟩
    · rw [Chip.reply_cache locks _ hcol]
      exact congrArg (Prod.mk false) hreply.symm
    · simp only [Chip.slave, Chip.finish_cache locks _ hcol]
      exact ⟨rfl, rfl⟩

/-- A refused command leaves every page and the register as they are. -/
theorem keeps_locked {p : UInt8} {pages : ℕ → ℕ → UInt8} {ops : List UInt8} {rows : ℕ → Prop}
    (hops : gd5fReadId ∉ ops ∧ gd5fSetFeature ∉ ops)
    (hlocked : ∀ r, rows r → locks p (r / gd5fPagesPerBlock) = true) :
    Keeps (fun c => c.nand.pages = pages ∧ c.protection = p) (· = false)
      (slaveBus (Chip.slave locks)) ops rows := by
  refine ⟨fun _ c hc => ⟨false, c, rfl, hc⟩, ?_, ?_⟩
  · rintro op cmd buffer size hop hissued ⟨n, _⟩ ⟨rfl, rfl⟩
    refine ⟨_, _, slaveBus_write _ _ _ size _, rfl, ?_⟩
    cases hissued with
    | enable => exact ⟨rfl, rfl⟩
    | row hmem hr hlt =>
      rw [List.append_nil]
      simp only [Chip.slave, Chip.finish_row locks _ hmem (row_lt_address hlt), Chip.addressed,
        hlocked _ hr, if_true]
      split
      · exact ⟨rfl, rfl⟩
      · split
        · exact ⟨rfl, rfl⟩
        · split <;> exact ⟨rfl, rfl⟩
    | load hcol hdata =>
      have hload : (if (slaveBus (Chip.slave locks)).type = .qspi then gd5fProgramLoadQuad
          else gd5fProgramLoad) = gd5fProgramLoad := rfl
      rw [hload]
      simp only [Chip.slave, Chip.finish_load locks _ hcol]
      exact ⟨rfl, trivial⟩
    | unlock => exact absurd hop hops.2
    | quad ht => exact ProtocolType.noConfusion ht
  · rintro op cmd buffer size hop hissued ⟨n, _⟩ ⟨rfl, rfl⟩
    obtain ⟨col, hcol, hcmd⟩ := IssuedRead.spi hissued fun h => hops.1 (h ▸ hop)
    rw [hcmd]
    refine ⟨_, _, slaveBus_read _ _ _ size _, ?_⟩
    simp only [Chip.slave, Chip.finish_cache locks _ hcol]
    exact ⟨trivial, trivial⟩

/-- `init` finds the id it expects and unlocks the chip. -/
theorem init_chip (c : Chip) :
    init (slaveBus (Chip.slave locks)) c =
      some (true, { nand := { c.nand with writeEnabled := true }, protection := 0 }) := by
  have hid : (Chip.slave locks).reply c [gd5fReadId, 0x00] [0, 0] = [0xC8, 0x31] := rfl
  have hread : (Chip.slave locks).finish c ([gd5fReadId, 0x00] ++ [0, 0]) = c := rfl
  have hspi : ¬ (slaveBus (Chip.slave locks)).type = .qspi := ProtocolType.noConfusion
  simp only [init, writeEnable, bind_apply, slaveBus_configure, slaveBus_read, Option.bind_some,
    hid, hread, if_neg hspi]
  rfl

/-- A read changes nothing. -/
theorem BlockDevice.apply_read {q : Request} (hq : q.isRead = true) (d : BlockDevice) :
    (BlockDevice.apply q d).2 = d := by
  cases q with
  | read block offset data hbound => rfl
  | prog block offset data hbound => exact Bool.noConfusion hq
  | erase block => exact Bool.noConfusion hq

theorem Request.ops_callback (q : Request) : gd5fReadId ∉ q.ops ∧ gd5fSetFeature ∉ q.ops := by
  cases q <;> simp only [Request.ops] <;> decide

theorem Request.ops_read {q : Request} (hq : q.isRead = true) :
    gd5fProgramExecute ∉ q.ops ∧ gd5fErase ∉ q.ops := by
  cases q with
  | read block offset data hbound =>
    have h : gd5fProgramExecute ∉ readOps ∧ gd5fErase ∉ readOps := by decide
    exact h
  | prog block offset data hbound => exact Bool.noConfusion hq
  | erase block => exact Bool.noConfusion hq

/-- A request of which nothing is refused does what it does on the plain device. -/
theorem request_open {q : Request} {c : Chip}
    (h : q.isRead = true ∨ locks c.protection q.block = false) :
    ∃ c', q.run (slaveBus (Chip.slave locks)) c =
        some ((BlockDevice.apply q (contents c.nand)).1, c') ∧
      contents c'.nand = (BlockDevice.apply q (contents c.nand)).2 ∧
      c'.protection = c.protection := by
  have halike : Alike (Holding c.protection) (slaveBus (Chip.slave locks)) (nandBus .spi) q.ops
      q.Rows := by
    refine alike_chip q.ops_callback fun r hr hmem => ?_
    rcases h with hread | hopen
    · rcases hmem with hmem | hmem
      · exact absurd hmem (Request.ops_read hread).1
      · exact absurd hmem (Request.ops_read hread).2
    · rw [hr.div_eq]
      exact hopen
  obtain ⟨n, hrun, hcont⟩ := run_refines .spi q c.nand
  obtain ⟨c', hrun', hnand, hprot⟩ := (q.run_simulates halike).returns ⟨rfl, rfl⟩ hrun
  exact ⟨c', hrun', by rw [hnand, hcont], hprot⟩

/-- A refused request goes through all its transfers, reports success and changes nothing. -/
theorem request_refused {q : Request} {c : Chip} (hread : q.isRead = false)
    (hlocked : locks c.protection q.block = true) :
    ∃ c', q.run (slaveBus (Chip.slave locks)) c =
        some ((BlockDevice.apply q (contents c.nand)).1, c') ∧
      contents c'.nand = contents c.nand ∧ c'.protection = c.protection := by
  have hkeeps : Keeps (fun c' : Chip => c'.nand.pages = c.nand.pages ∧
      c'.protection = c.protection) (· = false) (slaveBus (Chip.slave locks)) q.ops q.Rows := by
    refine keeps_locked q.ops_callback fun r hr => ?_
    rw [hr.div_eq]
    exact hlocked
  obtain ⟨x, c', hrun, hok, hpages, hprot⟩ := q.run_keeps hkeeps c ⟨rfl, rfl⟩
  have hx : x = (BlockDevice.apply q (contents c.nand)).1 := by
    have hcode : x.1 = .ok := hok.resolve_right (by decide)
    refine (Prod.ext hcode (Request.run_data hread hrun) : x = (.ok, [])).trans ?_
    cases q with
    | read block offset data hbound => exact Bool.noConfusion hread
    | prog block offset data hbound => rfl
    | erase block => rfl
  refine ⟨c', by rw [hrun, hx], ?_, hprot⟩
  funext block offset
  rw [contents, contents, byteAt_congr hpages]

/-- **One call.** If the value that `init` writes locks nothing, every call returns what the ideal
device returns and leaves the chip as the ideal device. -/
theorem Call.run_chip (hlocks : ∀ block, locks 0 block = false) (call : Call) (c : Chip) :
    ∃ c', call.run (slaveBus (Chip.slave locks)) c =
        some ((LockableDevice.apply call (c.lockable locks)).1, c') ∧
      c'.lockable locks = (LockableDevice.apply call (c.lockable locks)).2 := by
  cases call with
  | init =>
    refine ⟨_, by rw [Call.run, bind_apply, init_chip, Option.bind_some]; rfl, ?_⟩
    rw [Chip.lockable, LockableDevice.apply]
    exact congrArg₂ _ rfl (funext fun block => hlocks block)
  | request q =>
    have hresponse : (LockableDevice.apply (.request q) (c.lockable locks)).1 =
        .served (BlockDevice.apply q (contents c.nand)).1 := rfl
    have hafter : (LockableDevice.apply (.request q) (c.lockable locks)).2 =
        ⟨if locks c.protection q.block then contents c.nand
          else (BlockDevice.apply q (contents c.nand)).2, (c.lockable locks).locked⟩ := by
      rw [LockableDevice.apply, Chip.lockable]
      exact (apply_ite (fun d => (⟨d, _⟩ : LockableDevice)) _ _ _).symm
    by_cases hplain : q.isRead = true ∨ locks c.protection q.block = false
    · obtain ⟨c', hrun, hcont, hprot⟩ := request_open hplain
      refine ⟨c', by rw [Call.run, bind_apply, hrun, Option.bind_some, hresponse]; rfl, ?_⟩
      rw [hafter, Chip.lockable, hcont, hprot]
      rcases hplain with hread | hopen
      · rw [BlockDevice.apply_read hread, ite_self]
        rfl
      · rw [if_neg (by rw [hopen]; decide)]
        rfl
    · obtain ⟨hread, hlocked⟩ := not_or.mp hplain
      have hlocked' := Bool.eq_true_of_not_eq_false hlocked
      obtain ⟨c', hrun, hcont, hprot⟩ :=
        request_refused (Bool.eq_false_of_not_eq_true hread) hlocked'
      refine ⟨c', by rw [Call.run, bind_apply, hrun, Option.bind_some, hresponse]; rfl, ?_⟩
      rw [hafter, Chip.lockable, hcont, hprot, if_pos hlocked']
      rfl

end Requests

end CommonDrivers.Gd5f
