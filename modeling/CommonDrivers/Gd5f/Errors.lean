import CommonDrivers.Gd5f.BlockDevice

/-! # How the callbacks report failed transfers

A read issues two transfers for each page and looks at the result of neither; a program issues
three and looks only at the middle one, the write enable; an erase issues two and looks only at
the first. `reportsErrors_iff` says exactly which assignments of failures are reported.
-/

namespace CommonDrivers.Gd5f

open Exec

/-! ## The transfers of one request -/

/-- The number of pages a request of `size` bytes at `offset` touches. -/
def pageCount (offset size : ℕ) : ℕ :=
  if size = 0 then 0 else (offset % gd5fPageSize + size + (gd5fPageSize - 1)) / gd5fPageSize

@[simp] theorem pageCount_zero (offset : ℕ) : pageCount offset 0 = 0 := if_pos rfl

theorem pageCount_of_pos {offset size : ℕ} (h : 0 < size) :
    pageCount offset size =
      pageCount (offset + chunk offset size) (size - chunk offset size) + 1 := by
  rw [pageCount, if_neg h.ne', pageCount]
  by_cases hlast : size - chunk offset size = 0
  · rw [if_pos hlast]
    simp only [chunk, gd5fPageSize] at *
    omega
  · rw [if_neg hlast]
    simp only [chunk, gd5fPageSize] at *
    omega

/-- Appending `n` outcomes advances the position of the next transfer by `n`. -/
theorem length_append_outcomes (log : List Bool) (fails : ℕ → Bool) (start n : ℕ) :
    (log ++ outcomes fails start n).length = log.length + n := by
  rw [List.length_append, outcomes, List.length_map, List.length_range']

section Transfers

variable (t : ProtocolType) (fails : ℕ → Bool) (reply : ℕ → List UInt8 → List UInt8)
variable {block : ℕ} (hb : block < gd5fBlockCount)
include hb

theorem readPage_scripted {offset : ℕ} (ho : offset < gd5fBlockSize) (buffer : List UInt8)
    (log : List Bool) :
    ∃ data, readPage (scriptedBus t fails reply) block offset buffer log =
      some ((chunk offset buffer.length, data), log ++ outcomes fails log.length 2) := by
  refine ⟨reply (log.length + 1) (buffer.take (chunk offset buffer.length)), ?_⟩
  simp only [readPage, bind_apply, assert_apply hb, assert_apply ho, scriptedBus_write,
    scriptedBus_read, scriptedBus_configure, pure_apply, Option.bind_some, List.length_append,
    List.length_singleton, List.append_assoc]
  rfl

/-- Every transfer of a read is issued, and the read succeeds whatever their outcomes are. -/
theorem read_scripted (offset : ℕ) (buffer : List UInt8) (log : List Bool)
    (h : offset + buffer.length ≤ gd5fBlockSize) :
    ∃ data, read (scriptedBus t fails reply) block offset buffer log =
      some ((true, data),
        log ++ outcomes fails log.length (2 * pageCount offset buffer.length)) := by
  induction offset, buffer using page_induction generalizing log with
  | nil offset => exact ⟨[], by rw [read_nil]; simp [outcomes]⟩
  | page offset buffer hsize ih =>
    have hle := chunk_le offset buffer.length
    rw [List.length_drop] at ih
    obtain ⟨data, hpage⟩ := readPage_scripted t fails reply hb
      (by omega : offset < gd5fBlockSize) buffer log
    obtain ⟨rest, hrest⟩ := ih (log ++ outcomes fails log.length 2) (by omega)
    refine ⟨data ++ rest, ?_⟩
    rw [read_step hsize (chunk_pos offset hsize) hpage, hrest, Option.bind_some,
      pageCount_of_pos hsize, Nat.mul_succ, Nat.add_comm _ 2, outcomes_add, List.append_assoc,
      length_append_outcomes]

theorem writePage_scripted_ok {offset : ℕ} (ho : offset < gd5fBlockSize) (buffer : List UInt8)
    (log : List Bool) (hwe : fails (log.length + 1) = false) :
    writePage (scriptedBus t fails reply) block offset buffer log =
      some (chunk offset buffer.length, log ++ outcomes fails log.length 3) := by
  simp only [writePage, writeEnable, bind_apply, assert_apply hb, assert_apply ho,
    scriptedBus_write, pure_apply, Option.bind_some, List.length_append, List.length_singleton,
    List.append_assoc, hwe, Bool.false_eq_true, if_false]
  rw [← hwe]
  rfl

theorem writePage_scripted_err {offset : ℕ} (ho : offset < gd5fBlockSize) (buffer : List UInt8)
    (log : List Bool) (hwe : fails (log.length + 1) = true) :
    writePage (scriptedBus t fails reply) block offset buffer log =
      some (0, log ++ outcomes fails log.length 2) := by
  simp only [writePage, writeEnable, bind_apply, assert_apply hb, assert_apply ho,
    scriptedBus_write, pure_apply, Option.bind_some, List.length_append, List.length_singleton,
    List.append_assoc, hwe, if_true]
  rw [← hwe]
  rfl

/-- If every write enable succeeds, a program issues all its transfers and succeeds. -/
theorem write_scripted_ok (offset : ℕ) (buffer : List UInt8) (log : List Bool)
    (h : offset + buffer.length ≤ gd5fBlockSize)
    (hwe : ∀ p < pageCount offset buffer.length, fails (log.length + 3 * p + 1) = false) :
    write (scriptedBus t fails reply) block offset buffer log =
      some (true, log ++ outcomes fails log.length (3 * pageCount offset buffer.length)) := by
  induction offset, buffer using page_induction generalizing log with
  | nil offset => rw [write_nil]; simp [outcomes]
  | page offset buffer hsize ih =>
    have hle := chunk_le offset buffer.length
    rw [pageCount_of_pos hsize] at hwe
    rw [List.length_drop] at ih
    have hpage := writePage_scripted_ok t fails reply hb (by omega : offset < gd5fBlockSize) buffer
      log (hwe 0 (by omega))
    have hrest := ih (log ++ outcomes fails log.length 3) (by omega) fun p hp => by
      rw [length_append_outcomes, ← hwe (p + 1) (by omega)]
      exact congrArg fails (by omega)
    rw [write_step hsize (chunk_pos offset hsize) hpage, hrest, pageCount_of_pos hsize,
      Nat.mul_succ, Nat.add_comm _ 3, outcomes_add, List.append_assoc, length_append_outcomes]

/-- A program stops with an error at the first write enable that fails. -/
theorem write_scripted_err (offset : ℕ) (buffer : List UInt8) (log : List Bool)
    (h : offset + buffer.length ≤ gd5fBlockSize)
    (hwe : ∃ p < pageCount offset buffer.length, fails (log.length + 3 * p + 1) = true) :
    ∃ tail, write (scriptedBus t fails reply) block offset buffer log =
      some (false, log ++ tail) ∧ true ∈ tail := by
  induction offset, buffer using page_induction generalizing log with
  | nil offset =>
    obtain ⟨p, hp, -⟩ := hwe
    rw [List.length_nil, pageCount_zero] at hp
    exact absurd hp (Nat.not_lt_zero p)
  | page offset buffer hsize ih =>
    have hle := chunk_le offset buffer.length
    rw [List.length_drop] at ih
    -- either this page's write enable ends the loop, or the failing one is in the rest
    by_cases hfirst : fails (log.length + 1) = true
    · have hpage := writePage_scripted_err t fails reply hb (by omega : offset < gd5fBlockSize)
        buffer log hfirst
      exact ⟨outcomes fails log.length 2, write_fail hsize hpage,
        true_mem_outcomes.mpr ⟨1, by omega, hfirst⟩⟩
    · obtain ⟨p, hp, hfail⟩ := hwe
      rw [pageCount_of_pos hsize] at hp
      obtain ⟨q, rfl⟩ : ∃ q, p = q + 1 := by
        refine ⟨p - 1, (Nat.succ_pred ?_).symm⟩
        rintro rfl
        exact hfirst hfail
      have hpage := writePage_scripted_ok t fails reply hb (by omega : offset < gd5fBlockSize)
        buffer log (by simpa using hfirst)
      obtain ⟨tail, hrest, htail⟩ := ih (log ++ outcomes fails log.length 3) (by omega)
        ⟨q, by omega, by
          rw [length_append_outcomes, ← hfail]
          exact congrArg fails (by omega)⟩
      refine ⟨outcomes fails log.length 3 ++ tail, ?_, List.mem_append_right _ htail⟩
      rw [write_step hsize (chunk_pos offset hsize) hpage, hrest, List.append_assoc]

end Transfers

/-! ## The contract -/

/-- A callback returns `LFS_ERR_IO` if one of the transfers it issued failed, else `LFS_ERR_OK`. -/
def Request.ReportsErrors (t : ProtocolType) (fails : ℕ → Bool)
    (reply : ℕ → List UInt8 → List UInt8) (r : Request) : Prop :=
  ∃ x log, r.run (scriptedBus t fails reply) [] = some (x, log) ∧
    x.1 = if true ∈ log then .io else .ok

/-- No transfer fails whose result is dropped, unless a failing write enable ends the call. -/
def Request.NoDroppedFailure (fails : ℕ → Bool) : Request → Prop
  | .read _ offset data _ => ∀ k < 2 * pageCount offset data.length, fails k = false
  | .prog _ offset data _ =>
    (∃ p < pageCount offset data.length, fails (3 * p + 1) = true) ∨
      ∀ k < 3 * pageCount offset data.length, fails k = false
  | .erase _ => fails 0 = true ∨ fails 1 = false

private theorem true_not_mem_outcomes_zero {fails : ℕ → Bool} {n : ℕ} :
    true ∉ outcomes fails 0 n ↔ ∀ k < n, fails k = false := by
  rw [true_mem_outcomes]
  simp

/-- A request whose run is known reports its errors exactly if its code fits its outcomes. -/
theorem reportsErrors_of_run {t : ProtocolType} {fails : ℕ → Bool}
    {reply : ℕ → List UInt8 → List UInt8} {r : Request} {x : Response} {log : List Bool}
    (h : r.run (scriptedBus t fails reply) [] = some (x, log)) :
    r.ReportsErrors t fails reply ↔ x.1 = if true ∈ log then .io else .ok := returns_iff h

/-- **Exactly the assignments without a dropped failure are reported.** -/
theorem reportsErrors_iff (t : ProtocolType) (fails : ℕ → Bool)
    (reply : ℕ → List UInt8 → List UInt8) (r : Request) :
    r.ReportsErrors t fails reply ↔ r.NoDroppedFailure fails := by
  cases r with
  | read block offset data h =>
    obtain ⟨bytes, hloop⟩ := read_scripted t fails reply block.isLt offset data [] h
    have hrun : (Request.read block offset data h).run (scriptedBus t fails reply) [] =
        some ((.ok, bytes), outcomes fails 0 (2 * pageCount offset data.length)) := by
      simp only [Request.run, lfsRead, bind_apply, hloop, Option.bind_some, pure_apply]
      rfl
    rw [reportsErrors_of_run hrun, Request.NoDroppedFailure, ← true_not_mem_outcomes_zero]
    split <;> simp_all
  | prog block offset data h =>
    by_cases hwe : ∃ p < pageCount offset data.length, fails (3 * p + 1) = true
    · obtain ⟨tail, hloop, htail⟩ := write_scripted_err t fails reply block.isLt offset data [] h
        (by simpa using hwe)
      have hrun : (Request.prog block offset data h).run (scriptedBus t fails reply) [] =
          some ((.io, []), tail) := by
        simp only [Request.run, lfsProg, bind_apply, hloop, Option.bind_some, pure_apply]
        rfl
      rw [reportsErrors_of_run hrun, if_pos htail]
      exact iff_of_true rfl (Or.inl hwe)
    · have hloop := write_scripted_ok t fails reply block.isLt offset data [] h
        (by simpa using hwe)
      have hrun : (Request.prog block offset data h).run (scriptedBus t fails reply) [] =
          some ((.ok, []), outcomes fails 0 (3 * pageCount offset data.length)) := by
        simp only [Request.run, lfsProg, bind_apply, hloop, Option.bind_some, pure_apply]
        rfl
      rw [reportsErrors_of_run hrun, Request.NoDroppedFailure, or_iff_right hwe,
        ← true_not_mem_outcomes_zero]
      split <;> simp_all
  | erase block =>
    cases hwe : fails 0 with
    | true =>
      have hrun : (Request.erase block).run (scriptedBus t fails reply) [] =
          some ((.io, []), [true]) := by
        simp only [Request.run, lfsErase, erase, writeEnable, bind_apply, scriptedBus_write,
          pure_apply, Option.bind_some, List.length_nil, hwe, if_true]
        rfl
      rw [reportsErrors_of_run hrun, if_pos (by simp)]
      exact iff_of_true rfl (Or.inl hwe)
    | false =>
      have hrun : (Request.erase block).run (scriptedBus t fails reply) [] =
          some ((.ok, []), [false, fails 1]) := by
        simp only [Request.run, lfsErase, erase, writeEnable, bind_apply, scriptedBus_write,
          pure_apply, Option.bind_some, List.length_nil, hwe, Bool.false_eq_true, if_false]
        rfl
      rw [reportsErrors_of_run hrun, Request.NoDroppedFailure, hwe]
      cases fails 1 <;> simp

/-- Both transfers of a one-byte read fail and the callback returns `LFS_ERR_OK`. -/
theorem lfsRead_drops_errors :
    ¬ (Request.read ⟨0, by decide⟩ 0 [0] (by decide)).ReportsErrors .spi (fun _ => true)
      (fun _ buffer => buffer) := by
  obtain ⟨bytes, hloop⟩ := read_scripted .spi (fun _ => true) (fun _ buffer => buffer)
    (by decide : 0 < gd5fBlockCount) 0 [0] [] (by decide)
  have hrun : (Request.read ⟨0, by decide⟩ 0 [0] (by decide)).run
      (scriptedBus .spi (fun _ => true) (fun _ buffer => buffer)) [] =
        some ((.ok, bytes), outcomes (fun _ => true) 0 2) := by
    simp only [Request.run, lfsRead, bind_apply, hloop, Option.bind_some, pure_apply]
    rfl
  rw [reportsErrors_of_run hrun, if_pos (by decide)]
  exact LfsError.noConfusion

end CommonDrivers.Gd5f
