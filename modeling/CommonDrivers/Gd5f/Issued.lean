import CommonDrivers.Gd5f.BlockDevice
import CommonDrivers.Lib.Simulation

/-! # What the driver puts on its bus

`IssuedRead` and `IssuedWrite` list the transfers that the driver makes, with the addresses and
sizes that they can have. Two buses that are alike on these transfers are alike for the whole
driver, which is one simulation for each of its functions; and what each of these transfers keeps,
every request keeps.
-/

namespace CommonDrivers.Gd5f

open Exec

/-! ## The transfers -/

/-- The writes that the driver makes over a bus of type `t` when it addresses `rows`. -/
inductive IssuedWrite (t : ProtocolType) (rows : ℕ → Prop) :
    List UInt8 → List UInt8 → AddressSize → Prop
  | enable : IssuedWrite t rows [gd5fWriteEnable] [] .none
  | row {op : UInt8} {r : ℕ} (hop : op ∈ [gd5fReadToCache, gd5fProgramExecute, gd5fErase])
      (hr : rows r) (hlt : r < gd5fBlockCount * gd5fPagesPerBlock) :
      IssuedWrite t rows (op :: rowBytes r) [] .byte3
  | load {col : ℕ} {data : List UInt8} (hcol : col < gd5fPageSize)
      (hdata : data.length ≤ gd5fPageSize - col) :
      IssuedWrite t rows
        ((if t = .qspi then gd5fProgramLoadQuad else gd5fProgramLoad) :: colBytes col) data .byte2
  | unlock : IssuedWrite t rows [gd5fSetFeature, 0xA0, 0x00] [] .byte2
  | quad (ht : t = .qspi) : IssuedWrite t rows [gd5fSetFeature, 0xB0, 0x01] [] .byte2

/-- The reads that the driver makes over a bus of type `t`. -/
inductive IssuedRead (t : ProtocolType) : List UInt8 → List UInt8 → AddressSize → Prop
  | id : IssuedRead t [gd5fReadId, 0x00] [0, 0] .none
  | cache {col : ℕ} {buffer : List UInt8} (hcol : col < gd5fPageSize) (hpos : 0 < buffer.length)
      (hlen : buffer.length ≤ gd5fPageSize - col) :
      IssuedRead t
        (((if t = .qspi then gd5fReadFromCacheQuadIo else gd5fReadFromCache) ::
          (colBytes col ++ [0x00, 0x00])).take (if t = .qspi then 5 else 4)) buffer .byte2

/-- The command of a write has an opcode, and both parts of the transfer are short. -/
theorem IssuedWrite.size {t : ProtocolType} {rows : ℕ → Prop} {cmd buffer : List UInt8}
    {size : AddressSize} (h : IssuedWrite t rows cmd buffer size) :
    cmd ≠ [] ∧ cmd.length < 65536 ∧ buffer.length < 65536 := by
  cases h with
  | enable => decide
  | row => simp [rowBytes]
  | load hcol hdata =>
    refine ⟨List.cons_ne_nil _ _, by simp [colBytes], hdata.trans_lt ?_⟩
    exact (Nat.sub_le _ _).trans_lt (by decide)
  | unlock => decide
  | quad => decide

/-- The command of a read has an opcode, the destination is not empty, and both are short. -/
theorem IssuedRead.size {t : ProtocolType} {cmd buffer : List UInt8} {size : AddressSize}
    (h : IssuedRead t cmd buffer size) :
    cmd ≠ [] ∧ cmd.length < 65536 ∧ buffer ≠ [] ∧ buffer.length < 65536 := by
  cases h with
  | id => decide
  | cache hcol hpos hlen =>
    refine ⟨?_, ?_, List.ne_nil_of_length_pos hpos, hlen.trans_lt ?_⟩
    · split <;> simp
    · split <;> simp [colBytes]
    · exact (Nat.sub_le _ _).trans_lt (by decide)

/-! ## Buses that are alike for the driver -/

variable {σ τ : Type} {R : σ → τ → Prop} {P : Protocol σ} {Q : Protocol τ}

/-- The two buses are alike on the transfers that the driver makes with an opcode in `ops` when it
addresses `rows`. -/
structure Alike (R : σ → τ → Prop) (P : Protocol σ) (Q : Protocol τ) (ops : List UInt8)
    (rows : ℕ → Prop) : Prop where
  type_eq : P.type = Q.type
  configure : ∀ c, Simulates R (P.configure c) (Q.configure c)
  write : ∀ op cmd buffer size, op ∈ ops → IssuedWrite Q.type rows (op :: cmd) buffer size →
    Simulates R (P.write (op :: cmd) buffer size) (Q.write (op :: cmd) buffer size)
  read : ∀ op cmd buffer size, op ∈ ops → IssuedRead Q.type (op :: cmd) buffer size →
    Simulates R (P.read (op :: cmd) buffer size) (Q.read (op :: cmd) buffer size)

/-- The opcodes of a read request. -/
def readOps : List UInt8 := [gd5fReadToCache, gd5fReadFromCache, gd5fReadFromCacheQuadIo]

/-- The opcodes of a program request. -/
def progOps : List UInt8 :=
  [gd5fProgramLoad, gd5fProgramLoadQuad, gd5fWriteEnable, gd5fProgramExecute]

/-- The opcodes of an erase request. -/
def eraseOps : List UInt8 := [gd5fWriteEnable, gd5fErase]

/-- The opcodes of the initialisation. -/
def initOps : List UInt8 := [gd5fReadId, gd5fWriteEnable, gd5fSetFeature]

/-- The row of an offset in a block. -/
def rowAt (block offset : ℕ) : ℕ := block * gd5fPagesPerBlock + offset / gd5fPageSize

theorem rowAt_lt {block offset : ℕ} (hb : block < gd5fBlockCount) (ho : offset < gd5fBlockSize) :
    rowAt block offset < gd5fBlockCount * gd5fPagesPerBlock := by
  simp only [rowAt, gd5fBlockCount, gd5fBlockSize, gd5fPagesPerBlock, gd5fPageSize] at *
  omega

/-- The block of a row. -/
theorem rowAt_div (block : ℕ) {offset : ℕ} (ho : offset < gd5fBlockSize) :
    rowAt block offset / gd5fPagesPerBlock = block := by
  simp only [rowAt, gd5fBlockSize, gd5fPagesPerBlock, gd5fPageSize] at *
  omega

/-- The rows of the bytes from `offset` on. -/
def RowsOf (block offset size r : ℕ) : Prop :=
  ∃ o, offset ≤ o ∧ o < offset + size ∧ r = rowAt block o

theorem rowsOf_first (block offset : ℕ) {size : ℕ} (h : 0 < size) :
    RowsOf block offset size (rowAt block offset) :=
  ⟨offset, le_rfl, Nat.lt_add_of_pos_right h, rfl⟩

/-- The rows behind the first `n` bytes. -/
theorem RowsOf.of_drop {block offset n r : ℕ} {buffer : List UInt8}
    (h : RowsOf block (offset + n) (buffer.drop n).length r) :
    RowsOf block offset buffer.length r := by
  obtain ⟨o, hlo, hhi, hr⟩ := h
  rw [List.length_drop] at hhi
  exact ⟨o, by omega, by omega, hr⟩

theorem col_lt_pageSize (offset : ℕ) : offset % gd5fPageSize < gd5fPageSize :=
  Nat.mod_lt _ (by decide)

theorem chunk_le_pageSize (offset size : ℕ) :
    chunk offset size ≤ gd5fPageSize - offset % gd5fPageSize := Nat.min_le_right _ _

theorem length_take_chunk (offset : ℕ) (buffer : List UInt8) :
    (buffer.take (chunk offset buffer.length)).length = chunk offset buffer.length := by
  rw [List.length_take, Nat.min_eq_left (chunk_le _ _)]

section Functions

variable {rows : ℕ → Prop}

theorem readPage_simulates (h : Alike R P Q readOps rows) {block offset : ℕ} {buffer : List UInt8}
    (hrow : rows (rowAt block offset)) (hbuffer : 0 < buffer.length) :
    Simulates R (readPage P block offset buffer) (readPage Q block offset buffer) := by
  refine Simulates.assert_bind fun hblock => Simulates.assert_bind fun hoffset => ?_
  refine (h.write _ _ _ _ (by decide)
    (.row (by decide) hrow (rowAt_lt hblock hoffset))).bind fun _ => ?_
  refine (h.configure .qspiAddress4).bind fun _ => ?_
  refine Simulates.bind ?_ fun res => ?_
  · have htake := length_take_chunk offset buffer
    have hissued : IssuedRead Q.type _ (buffer.take (chunk offset buffer.length)) .byte2 :=
      .cache (col_lt_pageSize offset) ((chunk_pos offset hbuffer).trans_eq htake.symm)
        (htake.trans_le (chunk_le_pageSize offset buffer.length))
    rw [h.type_eq]
    by_cases ht : Q.type = .qspi
    · simp only [if_pos ht] at hissued ⊢
      exact h.read _ _ _ _ (by decide) hissued
    · simp only [if_neg ht] at hissued ⊢
      exact h.read _ _ _ _ (by decide) hissued
  · refine (h.configure .qspiAddress1).bind fun _ => ?_
    exact Simulates.pure _

theorem writePage_simulates (h : Alike R P Q progOps rows) {block offset : ℕ}
    (buffer : List UInt8) (hrow : rows (rowAt block offset)) :
    Simulates R (writePage P block offset buffer) (writePage Q block offset buffer) := by
  refine Simulates.assert_bind fun hblock => Simulates.assert_bind fun hoffset => ?_
  refine Simulates.bind ?_ fun _ => ?_
  · rw [h.type_eq]
    refine h.write _ _ _ _ ?_ (.load (col_lt_pageSize offset) ?_)
    · split <;> decide
    · rw [List.length_take]
      exact (Nat.min_le_left _ _).trans (Nat.min_le_right _ _)
  refine (h.write _ _ _ _ (by decide) .enable).bind fun err => ?_
  refine Simulates.ite (fun _ => Simulates.pure _) fun _ => ?_
  refine (h.write _ _ _ _ (by decide)
    (.row (by decide) hrow (rowAt_lt hblock hoffset))).bind fun _ => ?_
  exact Simulates.pure _

theorem read_simulates (h : Alike R P Q readOps rows) {block offset : ℕ} {buffer : List UInt8}
    (hrows : ∀ r, RowsOf block offset buffer.length r → rows r) :
    Simulates R (read P block offset buffer) (read Q block offset buffer) := by
  induction hn : buffer.length using Nat.strongRecOn generalizing offset buffer with
  | ind n ih =>
    subst hn
    rw [read, read]
    split
    · next hsize =>
      refine (readPage_simulates h (hrows _ (rowsOf_first _ _ hsize)) hsize).bind fun s => ?_
      split
      · exact Simulates.pure _
      · next hs =>
        have hdrop : (buffer.drop s.1).length = buffer.length - s.1 := List.length_drop
        refine (ih (buffer.drop s.1).length (by omega) (fun r hr => hrows r hr.of_drop) rfl).bind
          fun rest => ?_
        exact Simulates.pure _
    · exact Simulates.pure _

theorem write_simulates (h : Alike R P Q progOps rows) {block offset : ℕ} {buffer : List UInt8}
    (hrows : ∀ r, RowsOf block offset buffer.length r → rows r) :
    Simulates R (write P block offset buffer) (write Q block offset buffer) := by
  induction hn : buffer.length using Nat.strongRecOn generalizing offset buffer with
  | ind n ih =>
    subst hn
    rw [write, write]
    split
    · next hsize =>
      refine (writePage_simulates h buffer (hrows _ (rowsOf_first _ _ hsize))).bind fun s => ?_
      split
      · exact Simulates.pure _
      · next hs =>
        have hdrop : (buffer.drop s).length = buffer.length - s := List.length_drop
        exact ih (buffer.drop s).length (by omega) (fun r hr => hrows r hr.of_drop) rfl
    · exact Simulates.pure _

theorem erase_simulates (h : Alike R P Q eraseOps rows) {block : ℕ}
    (hblock : block < gd5fBlockCount) (hrow : rows (rowAt block 0)) :
    Simulates R (erase P block) (erase Q block) := by
  refine (h.write _ _ _ _ (by decide) .enable).bind fun err => ?_
  refine Simulates.ite (fun _ => Simulates.pure _) fun _ => ?_
  refine (h.write _ _ _ _ (by decide)
    (.row (by decide) hrow (rowAt_lt hblock (by decide)))).bind fun _ => ?_
  exact Simulates.pure _

theorem init_simulates (h : Alike R P Q initOps rows) : Simulates R (init P) (init Q) := by
  refine (h.configure .qspiData1).bind fun _ => ?_
  refine (h.read _ _ _ _ (by decide) .id).bind fun _ => ?_
  refine Simulates.ite (fun _ => Simulates.pure _) fun _ => ?_
  refine (h.write _ _ _ _ (by decide) .enable).bind fun err => ?_
  refine Simulates.ite (fun _ => Simulates.pure _) fun _ => ?_
  refine (h.write _ _ _ _ (by decide) .unlock).bind fun _ => ?_
  rw [h.type_eq]
  refine Simulates.ite (fun ht => ?_) fun _ => Simulates.pure _
  refine (h.write _ _ _ _ (by decide) (.quad ht)).bind fun _ => ?_
  refine (h.configure .qspiData4).bind fun _ => ?_
  exact Simulates.pure _

end Functions

/-! ## Requests -/

/-- The block that a request is about. -/
def Request.block : Request → Fin gd5fBlockCount
  | .read block _ _ _ => block
  | .prog block _ _ _ => block
  | .erase block => block

/-- Whether a request is a read. -/
def Request.isRead : Request → Bool
  | .read _ _ _ _ => true
  | _ => false

/-- The opcodes of a request. -/
def Request.ops : Request → List UInt8
  | .read _ _ _ _ => readOps
  | .prog _ _ _ _ => progOps
  | .erase _ => eraseOps

/-- The rows that a request addresses; an erase addresses its block by the first one. -/
def Request.Rows : Request → ℕ → Prop
  | .read block offset data _ => RowsOf block offset data.length
  | .prog block offset data _ => RowsOf block offset data.length
  | .erase block => fun r => r = rowAt block 0

/-- All of them lie in the block of the request. -/
theorem Request.Rows.div_eq {q : Request} {r : ℕ} (h : q.Rows r) :
    r / gd5fPagesPerBlock = q.block := by
  cases q with
  | read block offset data hbound =>
    obtain ⟨o, -, hhi, rfl⟩ := h
    exact rowAt_div block (by omega)
  | prog block offset data hbound =>
    obtain ⟨o, -, hhi, rfl⟩ := h
    exact rowAt_div block (by omega)
  | erase block =>
    rw [show r = rowAt block 0 from h]
    exact rowAt_div block (by decide)

/-- **Buses that are alike on what a request puts on them serve it alike.** -/
theorem Request.run_simulates (q : Request) (h : Alike R P Q q.ops q.Rows) :
    Simulates R (q.run P) (q.run Q) := by
  cases q with
  | read block offset data hbound =>
    exact (read_simulates h fun _ hr => hr).bind fun _ => Simulates.pure _
  | prog block offset data hbound =>
    refine Simulates.bind ?_ fun _ => Simulates.pure _
    exact (write_simulates h fun _ hr => hr).bind fun _ => Simulates.pure _
  | erase block =>
    refine Simulates.bind ?_ fun _ => Simulates.pure _
    exact (erase_simulates h block.isLt rfl).bind fun _ => Simulates.pure _

/-- Only reads hand back data. -/
theorem Request.run_data {q : Request} (hq : q.isRead = false) {s s' : σ} {x : Response}
    (hrun : q.run P s = some (x, s')) : x.2 = [] := by
  cases q with
  | read block offset data hbound => exact Bool.noConfusion hq
  | prog block offset data hbound =>
    obtain ⟨y, -, hy⟩ := Option.bind_eq_some_iff.mp hrun
    rw [← (Prod.mk.inj (Option.some.inj hy)).1]
  | erase block =>
    obtain ⟨y, -, hy⟩ := Option.bind_eq_some_iff.mp hrun
    rw [← (Prod.mk.inj (Option.some.inj hy)).1]

/-- A sequence of callbacks is a sequence of calls. -/
theorem serve_eq_each (P : Protocol σ) : serve P = each (Request.run P) := by
  funext qs
  induction qs with
  | nil => rfl
  | cons q qs ih => rw [serve, each, ih]

theorem BlockDevice.applyAll_eq_steps : BlockDevice.applyAll = steps BlockDevice.apply := by
  funext qs
  induction qs with
  | nil => rfl
  | cons q qs ih => funext d; rw [BlockDevice.applyAll, steps, ih]

/-! ## A device that knows its bus

The driver issues the quad commands on a QSPI bus and the single-line ones elsewhere, each with the
width of its address. So a device that takes no other commands serves it just as well.
-/

/-- The commands that the device takes on a bus of type `t`, with the widths of their addresses. -/
def commandSet (t : ProtocolType) : List (UInt8 × AddressSize) :=
  [(gd5fWriteEnable, .none), (gd5fReadToCache, .byte3), (gd5fProgramExecute, .byte3),
    (gd5fErase, .byte3)] ++
  if t = .qspi then [(gd5fReadFromCacheQuadIo, .byte2), (gd5fProgramLoadQuad, .byte2)]
  else [(gd5fReadFromCache, .byte2), (gd5fProgramLoad, .byte2)]

/-- The transfer is one of a command of the set. -/
def Takes (t : ProtocolType) (cmd : List UInt8) (size : AddressSize) : Prop :=
  ∃ op ∈ cmd.head?, (op, size) ∈ commandSet t

instance (t : ProtocolType) (cmd : List UInt8) (size : AddressSize) :
    Decidable (Takes t cmd size) :=
  match cmd with
  | [] => isFalse (by simp [Takes])
  | op :: _ => decidable_of_iff ((op, size) ∈ commandSet t) (by simp [Takes])

/-- A bus of type `t` with a chip that ignores all commands but those of the bus. -/
def strictBus (t : ProtocolType) : Protocol Nand where
  type := t
  read cmd buffer size := total fun d =>
    ((false, if Takes t cmd size then d.reply cmd buffer else buffer), d)
  write cmd buffer size := total fun d =>
    (false, if Takes t cmd size then d.command cmd buffer else d)
  configure _ := pure false
  readDMA _ := pure true

/-- A command of the set. -/
theorem takes_of_mem {t : ProtocolType} {op : UInt8} {size : AddressSize}
    (h : (op, size) ∈ commandSet t) (cmd : List UInt8) : Takes t (op :: cmd) size := ⟨op, rfl, h⟩

/-- Of the writes that the driver makes, those that the device does not take would do nothing. -/
theorem IssuedWrite.taken {t : ProtocolType} {rows : ℕ → Prop} {cmd buffer : List UInt8}
    {size : AddressSize} (h : IssuedWrite t rows cmd buffer size) (d : Nand) :
    (if Takes t cmd size then d.command cmd buffer else d) = d.command cmd buffer := by
  cases h with
  | enable => exact if_pos (takes_of_mem (by simp [commandSet]) [])
  | @row op r hop =>
    refine if_pos (takes_of_mem ?_ _)
    simp only [List.mem_cons, List.not_mem_nil, or_false] at hop
    rcases hop with rfl | rfl | rfl <;> simp [commandSet]
  | load =>
    refine if_pos (takes_of_mem ?_ _)
    by_cases ht : t = .qspi <;> simp [commandSet, ht]
  | unlock => exact ite_self d
  | quad => exact ite_self d

theorem IssuedRead.taken {t : ProtocolType} {cmd buffer : List UInt8} {size : AddressSize}
    (h : IssuedRead t cmd buffer size) (d : Nand) :
    (if Takes t cmd size then d.reply cmd buffer else buffer) = d.reply cmd buffer := by
  cases h with
  | id => exact ite_self _
  | @cache col buffer hcol =>
    by_cases ht : t = .qspi
    · rw [if_pos ht, if_pos ht]
      exact if_pos (takes_of_mem (by simp [commandSet, ht]) _)
    · rw [if_neg ht, if_neg ht]
      exact if_pos (takes_of_mem (by simp [commandSet, ht]) _)

/-- For the driver the two devices are alike. -/
theorem alike_strict (t : ProtocolType) (ops : List UInt8) (rows : ℕ → Prop) :
    Alike Eq (strictBus t) (nandBus t) ops rows := by
  refine ⟨rfl, fun _ => Simulates.pure _, ?_, ?_⟩
  · rintro op cmd buffer size - hissued d _ rfl
    rw [nandBus_write, ← hissued.taken d]
    exact .some ⟨rfl, rfl⟩
  · rintro op cmd buffer size - hissued d _ rfl
    rw [nandBus_read, ← hissued.taken d]
    exact .some ⟨rfl, rfl⟩

/-- What the one serves, the other serves with the same data. -/
theorem serve_strict {t : ProtocolType} {qs : List Request} {d d' : Nand} {xs : List Response}
    (h : serve (nandBus t) qs d = some (xs, d')) : serve (strictBus t) qs d = some (xs, d') := by
  induction qs generalizing d xs with
  | nil => exact h
  | cons q qs ih =>
    obtain ⟨⟨x, d₁⟩, hrun, hrest⟩ := Option.bind_eq_some_iff.mp h
    obtain ⟨⟨rest, d₂⟩, htail, hend⟩ := Option.bind_eq_some_iff.mp hrest
    obtain ⟨rfl, rfl⟩ := Prod.mk.inj (Option.some.inj hend)
    obtain ⟨_, hrun', rfl⟩ := (q.run_simulates (alike_strict t q.ops q.Rows)).returns rfl hrun
    rw [serve, bind_apply, hrun', Option.bind_some, bind_apply, ih htail]
    rfl

/-! ## Invariants of a request -/

/-- Each transfer that the driver makes with an opcode in `ops` when it addresses `rows` returns,
keeps `I`, and, if it is a write, has one of the results `errs`. -/
structure Keeps (I : σ → Prop) (errs : Bool → Prop) (P : Protocol σ) (ops : List UInt8)
    (rows : ℕ → Prop) : Prop where
  configure : ∀ c, Returns I (P.configure c) fun _ => I
  write : ∀ op cmd buffer size, op ∈ ops → IssuedWrite P.type rows (op :: cmd) buffer size →
    Returns I (P.write (op :: cmd) buffer size) fun err s => errs err ∧ I s
  read : ∀ op cmd buffer size, op ∈ ops → IssuedRead P.type (op :: cmd) buffer size →
    Returns I (P.read (op :: cmd) buffer size) fun _ => I

section Keeps

variable {I : σ → Prop} {errs : Bool → Prop} {rows : ℕ → Prop} {block : ℕ}

theorem readPage_keeps (h : Keeps I errs P readOps rows) (hb : block < gd5fBlockCount) {offset : ℕ}
    {buffer : List UInt8} (ho : offset < gd5fBlockSize) (hrow : rows (rowAt block offset))
    (hbuffer : 0 < buffer.length) :
    Returns I (readPage P block offset buffer) fun res s =>
      res.1 = chunk offset buffer.length ∧ I s := by
  refine Returns.assert_bind hb (Returns.assert_bind ho ?_)
  refine (h.write _ _ _ _ (by decide) (.row (by decide) hrow (rowAt_lt hb ho))).bind _ fun _ => ?_
  refine Returns.bind (fun _ => I) (fun s hs => h.configure .qspiAddress4 s hs.2) fun _ => ?_
  refine Returns.bind (fun _ => I) ?_ fun res => ?_
  · have htake := length_take_chunk offset buffer
    have hissued : IssuedRead P.type _ (buffer.take (chunk offset buffer.length)) .byte2 :=
      .cache (col_lt_pageSize offset) ((chunk_pos offset hbuffer).trans_eq htake.symm)
        (htake.trans_le (chunk_le_pageSize offset buffer.length))
    by_cases ht : P.type = .qspi
    · simp only [if_pos ht] at hissued ⊢
      exact h.read _ _ _ _ (by decide) hissued
    · simp only [if_neg ht] at hissued ⊢
      exact h.read _ _ _ _ (by decide) hissued
  · refine (h.configure .qspiAddress1).bind _ fun _ => ?_
    exact Returns.pure fun _ hs => ⟨rfl, hs⟩

/-- A page write that gives up has been told so by the write enable. -/
theorem writePage_keeps (h : Keeps I errs P progOps rows) (hb : block < gd5fBlockCount) {offset : ℕ}
    (buffer : List UInt8) (ho : offset < gd5fBlockSize) (hrow : rows (rowAt block offset)) :
    Returns I (writePage P block offset buffer) fun n s =>
      (n = chunk offset buffer.length ∨ n = 0 ∧ errs true) ∧ I s := by
  refine Returns.assert_bind hb (Returns.assert_bind ho ?_)
  refine Returns.bind (fun _ => I) ?_ fun _ => ?_
  · refine (h.write _ _ _ _ ?_ (.load (col_lt_pageSize offset) ?_)).weaken fun _ _ hs => hs.2
    · split <;> decide
    · rw [List.length_take]
      exact (Nat.min_le_left _ _).trans (Nat.min_le_right _ _)
  refine (h.write _ _ _ _ (by decide) .enable).bind _ fun err => ?_
  refine Returns.ite (fun herr => Returns.pure fun s hs => ?_) fun _ => ?_
  · exact ⟨Or.inr ⟨rfl, herr ▸ hs.1⟩, hs.2⟩
  refine Returns.bind (fun _ => I) (fun s hs => ?_) fun _ =>
    Returns.pure fun _ hs => ⟨Or.inl rfl, hs⟩
  exact ((h.write _ _ _ _ (by decide) (.row (by decide) hrow (rowAt_lt hb ho))).weaken
    fun _ _ hs => hs.2) s hs.2

theorem read_keeps (h : Keeps I errs P readOps rows) (hb : block < gd5fBlockCount) (offset : ℕ)
    (buffer : List UInt8) (hbound : offset + buffer.length ≤ gd5fBlockSize)
    (hrows : ∀ r, RowsOf block offset buffer.length r → rows r) :
    Returns I (read P block offset buffer) fun res s => res.1 = true ∧ I s := by
  induction offset, buffer using page_induction with
  | nil offset => exact fun s hs => ⟨_, s, read_nil P block offset s, rfl, hs⟩
  | page offset buffer hsize ih =>
    have hle := chunk_le offset buffer.length
    have hdrop : (buffer.drop (chunk offset buffer.length)).length =
        buffer.length - chunk offset buffer.length := List.length_drop
    intro s hs
    obtain ⟨⟨n, data⟩, s₁, hpage, rfl, hs₁⟩ :=
      readPage_keeps h hb (by omega) (hrows _ (rowsOf_first _ _ hsize)) hsize s hs
    obtain ⟨res, s₂, hrest, hres, hs₂⟩ := ih (by omega) (fun r hr => hrows r hr.of_drop) s₁ hs₁
    refine ⟨(res.1, data ++ res.2), s₂, ?_, hres, hs₂⟩
    rw [read_step hsize (chunk_pos offset hsize) hpage, hrest, Option.bind_some]

theorem write_keeps (h : Keeps I errs P progOps rows) (hb : block < gd5fBlockCount) (offset : ℕ)
    (buffer : List UInt8) (hbound : offset + buffer.length ≤ gd5fBlockSize)
    (hrows : ∀ r, RowsOf block offset buffer.length r → rows r) :
    Returns I (write P block offset buffer) fun ok s => (ok = true ∨ errs true) ∧ I s := by
  induction offset, buffer using page_induction with
  | nil offset => exact fun s hs => ⟨true, s, write_nil P block offset s, Or.inl rfl, hs⟩
  | page offset buffer hsize ih =>
    have hle := chunk_le offset buffer.length
    have hdrop : (buffer.drop (chunk offset buffer.length)).length =
        buffer.length - chunk offset buffer.length := List.length_drop
    intro s hs
    obtain ⟨n, s₁, hpage, hn, hs₁⟩ :=
      writePage_keeps h hb buffer (by omega) (hrows _ (rowsOf_first _ _ hsize)) s hs
    rcases hn with rfl | ⟨rfl, herr⟩
    · obtain ⟨ok, s₂, hrest, hok, hs₂⟩ := ih (by omega) (fun r hr => hrows r hr.of_drop) s₁ hs₁
      exact ⟨ok, s₂, by rw [write_step hsize (chunk_pos offset hsize) hpage, hrest], hok, hs₂⟩
    · exact ⟨false, s₁, write_fail hsize hpage, Or.inr herr, hs₁⟩

theorem erase_keeps (h : Keeps I errs P eraseOps rows) (hb : block < gd5fBlockCount)
    (hrow : rows (rowAt block 0)) :
    Returns I (erase P block) fun ok s => (ok = true ∨ errs true) ∧ I s := by
  refine (h.write _ _ _ _ (by decide) .enable).bind _ fun err => ?_
  refine Returns.ite (fun herr => Returns.pure fun s hs => ?_) fun _ => ?_
  · exact ⟨Or.inr (herr ▸ hs.1), hs.2⟩
  refine Returns.bind (fun _ => I) (fun s hs => ?_) fun _ =>
    Returns.pure fun _ hs => ⟨Or.inl rfl, hs⟩
  exact ((h.write _ _ _ _ (by decide) (.row (by decide) hrow (rowAt_lt hb (by decide)))).weaken
    fun _ _ hs => hs.2) s hs.2

/-- **What every transfer of a request keeps, the request keeps.** It returns, and unless a write
can report an error it returns `LFS_ERR_OK`. -/
theorem Request.run_keeps (q : Request) (h : Keeps I errs P q.ops q.Rows) :
    Returns I (q.run P) fun x s => (x.1 = .ok ∨ errs true) ∧ I s := by
  cases q with
  | read block offset data hbound =>
    refine Returns.bind _ (read_keeps h block.isLt offset data hbound fun _ hr => hr) fun res => ?_
    exact Returns.pure fun s hs => ⟨Or.inl (by rw [hs.1]; rfl), hs.2⟩
  | prog block offset data hbound =>
    refine Returns.bind (fun err s => (err = LfsError.ok ∨ errs true) ∧ I s) ?_ fun err =>
      Returns.pure fun s hs => hs
    refine Returns.bind _ (write_keeps h block.isLt offset data hbound fun _ hr => hr) fun ok => ?_
    exact Returns.pure fun s hs => ⟨hs.1.imp_left fun hok => by rw [hok]; rfl, hs.2⟩
  | erase block =>
    refine Returns.bind (fun err s => (err = LfsError.ok ∨ errs true) ∧ I s) ?_ fun err =>
      Returns.pure fun s hs => hs
    refine Returns.bind _ (erase_keeps h block.isLt rfl) fun ok => ?_
    exact Returns.pure fun s hs => ⟨hs.1.imp_left fun hok => by rw [hok]; rfl, hs.2⟩

end Keeps

end CommonDrivers.Gd5f
