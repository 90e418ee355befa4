import CommonDrivers.Gd5f.Device
import Mathlib.Data.List.OfFn

/-! # The callbacks refine an ideal block device

`BlockDevice` says what the driver is for: an array of erase blocks that can be read and
programmed at any offset. `contents` reads this array off the chip's pages, and `serve_refines`
shows that any sequence of callback requests acts on the chip exactly as the same sequence acts on
the array. Page boundaries, the cache and the write-enable latch do not show through.
-/

namespace CommonDrivers.Gd5f

open Exec Overlay

/-! ## The ideal block device -/

/-- The flash as littlefs sees it. -/
abbrev BlockDevice := Fin gd5fBlockCount → Fin gd5fBlockSize → UInt8

/-- A call of one of the three callbacks, inside the geometry. -/
inductive Request
  | read (block : Fin gd5fBlockCount) (offset : ℕ) (data : List UInt8)
      (h : offset + data.length ≤ gd5fBlockSize)
  | prog (block : Fin gd5fBlockCount) (offset : ℕ) (data : List UInt8)
      (h : offset + data.length ≤ gd5fBlockSize)
  | erase (block : Fin gd5fBlockCount)

/-- What a callback hands back: its code and, for a read, the destination buffer. -/
abbrev Response := LfsError × List UInt8

/-- The callback that littlefs invokes. -/
def Request.run {σ : Type} (P : Protocol σ) : Request → Exec σ Response
  | .read block offset data _ => lfsRead P block offset data
  | .prog block offset data _ => do
    let err ← lfsProg P block offset data
    return (err, [])
  | .erase block => do
    let err ← lfsErase P block
    return (err, [])

/-- A sequence of callbacks on one device. -/
def serve {σ : Type} (P : Protocol σ) : List Request → Exec σ (List Response)
  | [] => return []
  | r :: rs => do
    let x ← r.run P
    let xs ← serve P rs
    return x :: xs

namespace BlockDevice

/-- The meaning of a request: a read returns the bytes of its range, a program ANDs its data into
its range, an erase sets its block to `0xFF`. -/
def apply : Request → BlockDevice → Response × BlockDevice
  | .read block offset data h, d =>
    ((.ok, List.ofFn fun k : Fin data.length => d block ⟨offset + k, by omega⟩), d)
  | .prog block offset data _, d =>
    ((.ok, []), Function.update d block fun o => overlay (· &&& ·) offset data o (d block o))
  | .erase block, d => ((.ok, []), Function.update d block fun _ => 0xFF)

/-- The meaning of a sequence of requests. -/
def applyAll : List Request → BlockDevice → List Response × BlockDevice
  | [], d => ([], d)
  | r :: rs, d => ((apply r d).1 :: (applyAll rs (apply r d).2).1, (applyAll rs (apply r d).2).2)

end BlockDevice

/-! ## The chip's bytes by block and offset -/

/-- The byte at `offset` of `block`. -/
def Nand.byteAt (d : Nand) (block offset : ℕ) : UInt8 :=
  d.pages (block * gd5fPagesPerBlock + offset / gd5fPageSize) (offset % gd5fPageSize)

/-- The abstraction function. -/
def contents (d : Nand) : BlockDevice := fun block offset => d.byteAt block offset

theorem byteAt_congr {d d' : Nand} (h : d.pages = d'.pages) : d.byteAt = d'.byteAt := by
  funext block offset
  rw [Nand.byteAt, Nand.byteAt, h]

/-- Inside a page, consecutive offsets are consecutive columns of one row. -/
theorem byteAt_add (d : Nand) (block : ℕ) {offset k : ℕ}
    (hk : offset % gd5fPageSize + k < gd5fPageSize) :
    d.byteAt block (offset + k) =
      d.pages (block * gd5fPagesPerBlock + offset / gd5fPageSize)
        (offset % gd5fPageSize + k) := by
  simp only [Nand.byteAt, gd5fPageSize] at *
  rw [show (offset + k) / 2048 = offset / 2048 by omega,
    show (offset + k) % 2048 = offset % 2048 + k by omega]

/-- The bytes of a range of a block. -/
def Nand.bytes (d : Nand) (block offset n : ℕ) : List UInt8 :=
  (List.range n).map fun k => d.byteAt block (offset + k)

theorem Nand.bytes_add (d : Nand) (block offset m n : ℕ) :
    d.bytes block offset (m + n) = d.bytes block offset m ++ d.bytes block (offset + m) n := by
  simp only [Nand.bytes, List.range_add, List.map_append, List.map_map, Function.comp_def,
    Nat.add_assoc]

/-! ## One page -/

/-- The row of a page inside the geometry fits into three address bytes. -/
theorem row_lt {block offset : ℕ} (hb : block < gd5fBlockCount) (ho : offset < gd5fBlockSize) :
    block * gd5fPagesPerBlock + offset / gd5fPageSize < 2 ^ 24 := by
  simp only [gd5fBlockCount, gd5fBlockSize, gd5fPagesPerBlock, gd5fPageSize] at *
  omega

theorem col_lt (offset : ℕ) : offset % gd5fPageSize < 2048 := Nat.mod_lt _ (by decide)

/-- A page read returns the bytes at its offset and leaves every page as it was. -/
theorem readPage_nand (t : ProtocolType) {block offset : ℕ} (buffer : List UInt8) (d : Nand)
    (hb : block < gd5fBlockCount) (ho : offset < gd5fBlockSize) :
    ∃ d', readPage (nandBus t) block offset buffer d =
        some ((chunk offset buffer.length, d.bytes block offset (chunk offset buffer.length)), d')
      ∧ d'.pages = d.pages := by
  refine ⟨d.fetch (block * gd5fPagesPerBlock + offset / gd5fPageSize), ?_, rfl⟩
  have htake : (buffer.take (chunk offset buffer.length)).length = chunk offset buffer.length := by
    rw [List.length_take, Nat.min_eq_left (chunk_le _ _)]
  have hbytes : (List.range (chunk offset buffer.length)).map (fun k =>
      d.pages (block * gd5fPagesPerBlock + offset / gd5fPageSize) (offset % gd5fPageSize + k)) =
      d.bytes block offset (chunk offset buffer.length) := by
    refine List.map_congr_left fun k hk => (byteAt_add d block ?_).symm
    have := List.mem_range.mp hk
    simp only [chunk, gd5fPageSize] at *
    omega
  simp only [readPage, bind_apply, assert_apply hb, assert_apply ho, nandBus_write,
    nandBus_configure, nandBus_read, pure_apply, Option.bind_some,
    Nand.command_fetch d (row_lt hb ho), Nand.reply_readFromCache _ (col_lt offset)]
  rw [← hbytes, ← chunk, htake]
  rfl

/-- Two places of the geometry share a row only in one block and one page of it. -/
theorem row_inj {b o block offset : ℕ} (ho : o < gd5fBlockSize) (hoff : offset < gd5fBlockSize) :
    b * gd5fPagesPerBlock + o / gd5fPageSize =
        block * gd5fPagesPerBlock + offset / gd5fPageSize ↔
      b = block ∧ o / gd5fPageSize = offset / gd5fPageSize := by
  simp only [gd5fBlockSize, gd5fPagesPerBlock, gd5fPageSize] at *
  omega

/-- Within one page, an overlay by offsets is an overlay by columns. -/
theorem overlay_col {o offset : ℕ} (hpage : o / gd5fPageSize = offset / gd5fPageSize)
    (data : List UInt8) (x : UInt8) :
    overlay (· &&& ·) (offset % gd5fPageSize) data (o % gd5fPageSize) x =
      overlay (· &&& ·) offset data o x := by
  conv_rhs =>
    rw [← Nat.div_add_mod offset gd5fPageSize, ← Nat.div_add_mod o gd5fPageSize, hpage]
  rw [overlay_add]

/-- What is written to one page lies in no other page. -/
theorem overlay_other_page {o offset : ℕ} (hpage : o / gd5fPageSize ≠ offset / gd5fPageSize)
    {data : List UInt8} (hlen : data.length ≤ gd5fPageSize - offset % gd5fPageSize) (x : UInt8) :
    overlay (· &&& ·) offset data o x = x := by
  simp only [gd5fPageSize] at *
  rcases Nat.lt_or_ge o offset with hlt | hge
  · exact overlay_of_lt _ hlt data x
  · exact overlay_of_le _ (by omega) x

/-- A page write ANDs its data into its range and leaves every other byte of the chip alone. -/
theorem writePage_nand (t : ProtocolType) {block offset : ℕ} (buffer : List UInt8) (d : Nand)
    (hb : block < gd5fBlockCount) (ho : offset < gd5fBlockSize) :
    ∃ d', writePage (nandBus t) block offset buffer d = some (chunk offset buffer.length, d') ∧
      ∀ b o, o < gd5fBlockSize → d'.byteAt b o =
        if b = block then
          overlay (· &&& ·) offset (buffer.take (chunk offset buffer.length)) o (d.byteAt b o)
        else d.byteAt b o := by
  set data := buffer.take (chunk offset buffer.length) with hdata
  refine ⟨({ d.load (offset % gd5fPageSize) data with writeEnabled := true } : Nand).execute
    (block * gd5fPagesPerBlock + offset / gd5fPageSize), ?_, ?_⟩
  · have hop : (if (nandBus t).type = .qspi then gd5fProgramLoadQuad else gd5fProgramLoad) =
        gd5fProgramLoad ∨
        (if (nandBus t).type = .qspi then gd5fProgramLoadQuad else gd5fProgramLoad) =
        gd5fProgramLoadQuad := by
      split
      · exact Or.inr rfl
      · exact Or.inl rfl
    simp only [writePage, writeEnable, bind_apply, assert_apply hb, assert_apply ho, nandBus_write,
      pure_apply, Option.bind_some, Nand.command_load d hop (col_lt offset),
      Nand.command_writeEnable, Nand.command_execute _ (row_lt hb ho), Bool.false_eq_true,
      if_false]
    rfl
  · intro b o hlt
    have hlen : data.length ≤ gd5fPageSize - offset % gd5fPageSize := by
      rw [hdata, List.length_take]
      exact (Nat.min_le_left _ _).trans (Nat.min_le_right _ _)
    simp only [Nand.byteAt, Nand.execute, Nand.load, if_true, Function.update_apply,
      row_inj hlt ho]
    by_cases hb' : b = block
    · subst hb'
      by_cases hpage : o / gd5fPageSize = offset / gd5fPageSize
      · -- outside the data the cache is `0xFF`, which is neutral for the AND
        rw [if_pos ⟨rfl, hpage⟩, if_pos rfl, ← overlay_col hpage, hpage]
        exact op_overlay_neutral (fun x => UInt8.and_neg_one) _ data _ _
      · rw [if_neg (fun h => hpage h.2), if_pos rfl, overlay_other_page hpage hlen]
    · rw [if_neg (fun h => hb' h.1), if_neg hb']

/-! ## Whole requests -/

/-- The page loop of a read returns the bytes of its range. -/
theorem read_nand (t : ProtocolType) {block : ℕ} (hb : block < gd5fBlockCount) (offset : ℕ)
    (buffer : List UInt8) (d : Nand) (h : offset + buffer.length ≤ gd5fBlockSize) :
    ∃ d', read (nandBus t) block offset buffer d =
        some ((true, d.bytes block offset buffer.length), d') ∧ d'.pages = d.pages := by
  induction offset, buffer using page_induction generalizing d with
  | nil offset => exact ⟨d, read_nil _ block offset d, rfl⟩
  | page offset buffer hsize ih =>
    have hle := chunk_le offset buffer.length
    rw [List.length_drop] at ih
    obtain ⟨d₁, hpage, hpages₁⟩ := readPage_nand t buffer d hb (by omega : offset < gd5fBlockSize)
    obtain ⟨d₂, hrest, hpages₂⟩ := ih d₁ (by omega)
    refine ⟨d₂, ?_, hpages₂.trans hpages₁⟩
    -- the rest is read from the chip that the first page has left as it was
    have hbytes : d₁.bytes = d.bytes := by
      funext b o k
      rw [Nand.bytes, Nand.bytes, byteAt_congr hpages₁]
    rw [read_step hsize (chunk_pos offset hsize) hpage, hrest, Option.bind_some, hbytes,
      ← Nand.bytes_add, Nat.add_sub_cancel' hle]

/-- The page loop of a write ANDs its data into its range and touches nothing else. -/
theorem write_nand (t : ProtocolType) {block : ℕ} (hb : block < gd5fBlockCount) (offset : ℕ)
    (buffer : List UInt8) (d : Nand) (h : offset + buffer.length ≤ gd5fBlockSize) :
    ∃ d', write (nandBus t) block offset buffer d = some (true, d') ∧
      ∀ b o, o < gd5fBlockSize → d'.byteAt b o =
        if b = block then overlay (· &&& ·) offset buffer o (d.byteAt b o) else d.byteAt b o := by
  induction offset, buffer using page_induction generalizing d with
  | nil offset =>
    refine ⟨d, write_nil _ block offset d, fun b o _ => ?_⟩
    rw [overlay_nil, ite_self]
  | page offset buffer hsize ih =>
    have hle := chunk_le offset buffer.length
    rw [List.length_drop] at ih
    obtain ⟨d₁, hpage, hbyte₁⟩ := writePage_nand t buffer d hb (by omega : offset < gd5fBlockSize)
    obtain ⟨d₂, hrest, hbyte₂⟩ := ih d₁ (by omega)
    refine ⟨d₂, ?_, fun b o ho => ?_⟩
    · rw [write_step hsize (chunk_pos offset hsize) hpage, hrest]
    · rw [hbyte₂ b o ho, hbyte₁ b o ho]
      by_cases hb' : b = block
      · -- two overlays one behind the other are the overlay of the whole buffer
        rw [if_pos hb', if_pos hb', if_pos hb']
        conv_rhs => rw [← List.take_append_drop (chunk offset buffer.length) buffer]
        rw [overlay_append, List.length_take, Nat.min_eq_left hle]
      · rw [if_neg hb', if_neg hb', if_neg hb']

/-- An erase sets its block to `0xFF` and touches no other block. -/
theorem erase_nand (t : ProtocolType) {block : ℕ} (hb : block < gd5fBlockCount) (d : Nand) :
    ∃ d', erase (nandBus t) block d = some (true, d') ∧
      ∀ b o, o < gd5fBlockSize → d'.byteAt b o = if b = block then 0xFF else d.byteAt b o := by
  refine ⟨({ d with writeEnabled := true } : Nand).eraseBlock (block * gd5fPagesPerBlock), ?_, ?_⟩
  · have hrow : block * gd5fPagesPerBlock < 2 ^ 24 := by
      simp only [gd5fBlockCount, gd5fPagesPerBlock] at *
      omega
    simp only [erase, writeEnable, bind_apply, nandBus_write, pure_apply, Option.bind_some,
      Nand.command_writeEnable, Nand.command_erase _ hrow, Bool.false_eq_true, if_false]
  · intro b o ho
    have hblock : (b * gd5fPagesPerBlock + o / gd5fPageSize) / gd5fPagesPerBlock =
        block * gd5fPagesPerBlock / gd5fPagesPerBlock ↔ b = block := by
      simp only [gd5fBlockSize, gd5fPagesPerBlock, gd5fPageSize] at *
      omega
    simp only [Nand.byteAt, Nand.eraseBlock, if_true, hblock]
    split <;> rfl

/-- **One request.** A callback returns what the ideal device returns and leaves the chip with the
ideal device's contents. -/
theorem run_refines (t : ProtocolType) (r : Request) (d : Nand) :
    ∃ d', r.run (nandBus t) d = some ((BlockDevice.apply r (contents d)).1, d') ∧
      contents d' = (BlockDevice.apply r (contents d)).2 := by
  cases r with
  | read block offset data h =>
    obtain ⟨d', hrun, hpages⟩ := read_nand t block.isLt offset data d h
    refine ⟨d', ?_, ?_⟩
    · have hofFn : (List.ofFn fun k : Fin data.length =>
          contents d block ⟨offset + k, by omega⟩) = d.bytes block offset data.length :=
        List.ext_getElem (by simp [Nand.bytes]) fun k _ _ => by simp [Nand.bytes, contents]
      simp only [Request.run, lfsRead, bind_apply, hrun, Option.bind_some, pure_apply,
        BlockDevice.apply, hofFn]
      rfl
    · funext b o
      rw [contents, byteAt_congr hpages]
      rfl
  | prog block offset data h =>
    obtain ⟨d', hrun, hbyte⟩ := write_nand t block.isLt offset data d h
    refine ⟨d', ?_, ?_⟩
    · simp only [Request.run, lfsProg, bind_apply, hrun, Option.bind_some, pure_apply,
        BlockDevice.apply]
      rfl
    · funext b o
      simp only [contents, hbyte b o o.isLt, BlockDevice.apply, Function.update_apply,
        Fin.ext_iff]
      by_cases hb : (b : ℕ) = block
      · obtain rfl := Fin.ext hb
        rw [if_pos rfl, if_pos rfl]
      · rw [if_neg hb, if_neg hb]
        rfl
  | erase block =>
    obtain ⟨d', hrun, hbyte⟩ := erase_nand t block.isLt d
    refine ⟨d', ?_, ?_⟩
    · simp only [Request.run, lfsErase, bind_apply, hrun, Option.bind_some, pure_apply,
        BlockDevice.apply]
      rfl
    · funext b o
      simp only [contents, hbyte b o o.isLt, BlockDevice.apply, Function.update_apply,
        Fin.ext_iff]
      split <;> rfl

/-- The ideal device serves every request. -/
theorem BlockDevice.applyAll_ok (rs : List Request) (d : BlockDevice) :
    ∀ x ∈ (applyAll rs d).1, x.1 = .ok := by
  induction rs generalizing d with
  | nil => simp [applyAll]
  | cons r rs ih =>
    intro x hx
    rcases List.mem_cons.mp hx with rfl | hx
    · cases r <;> rfl
    · exact ih _ x hx

/-- **Any sequence of requests, from any state of the chip.** No assertion fails, every callback
terminates with `LFS_ERR_OK` and the ideal device's data, and the chip ends with the ideal device's
contents. -/
theorem serve_refines (t : ProtocolType) (rs : List Request) (d : Nand) :
    ∃ xs d', serve (nandBus t) rs d = some (xs, d') ∧ (∀ x ∈ xs, x.1 = .ok) ∧
      (xs, contents d') = BlockDevice.applyAll rs (contents d) := by
  suffices h : ∃ d', serve (nandBus t) rs d =
      some ((BlockDevice.applyAll rs (contents d)).1, d') ∧
      contents d' = (BlockDevice.applyAll rs (contents d)).2 by
    obtain ⟨d', hrun, hcont⟩ := h
    exact ⟨_, d', hrun, BlockDevice.applyAll_ok rs (contents d), by rw [hcont]⟩
  induction rs generalizing d with
  | nil => exact ⟨d, rfl, rfl⟩
  | cons r rs ih =>
    obtain ⟨d₁, hrun₁, hcont₁⟩ := run_refines t r d
    obtain ⟨d₂, hrun₂, hcont₂⟩ := ih d₁
    refine ⟨d₂, ?_, ?_⟩
    · simp only [serve, bind_apply, hrun₁, Option.bind_some, hrun₂, pure_apply, hcont₁,
        BlockDevice.applyAll]
    · rw [hcont₂, hcont₁]
      rfl

end CommonDrivers.Gd5f
