import CommonDrivers.Flash.ShortWrite

/-! # What a file keeps

littlefs commits nothing of a file to the medium before the file is synced or closed. `append` never
syncs, so a run of `append` calls only adds to what a loss of power takes away, however long it is
and whatever the writes do; it is the close that stores the file.
-/

namespace CommonDrivers.Flash

open CtzList

variable {φ : Type}

/-- What of a file is on the medium. `content` is what the file holds, `durable` what a loss of
power leaves of it. -/
structure StoresOnClose (lfs : LfsFile φ) (close : φ → φ) (content durable : φ → List UInt8) :
    Prop where
  durable_write : ∀ bytes f, durable (lfs.write bytes f).2 = durable f
  content_close : ∀ f, content (close f) = content f
  durable_close : ∀ f, durable (close f) = content f

/-- `Flash::open`: the size of the file and the file. `reopen` is the file that littlefs opens when
certain bytes are stored. -/
def openFile (lfs : LfsFile φ) (reopen : List UInt8 → φ) (stored : List UInt8) : UInt32 × φ :=
  (lfs.size (reopen stored), reopen stored)

/-- An opened file holds what is stored. -/
structure Reopens (reopen : List UInt8 → φ) (content durable : φ → List UInt8) : Prop where
  content_reopen : ∀ bytes, content (reopen bytes) = bytes
  durable_reopen : ∀ bytes, durable (reopen bytes) = bytes

/-- A file beside the last stored state of it. -/
def buffered (lfs : LfsFile φ) : LfsFile (φ × φ) where
  size f := lfs.size f.1
  write bytes f := ((lfs.write bytes f.1).1, (lfs.write bytes f.1).2, f.2)
  sync f := (lfs.sync f.1, lfs.sync f.1)

/-- Stores the file. -/
def store (f : φ × φ) : φ × φ := (f.1, f.1)

theorem AllSucceed.buffered {lfs : LfsFile φ} {content : φ → List UInt8}
    (h : AllSucceed lfs content) : AllSucceed (buffered lfs) fun f => content f.1 where
  size_eq f hlt := h.size_eq f.1 hlt
  write_eq bytes f hlt := h.write_eq bytes f.1 hlt
  content_write bytes f hlt := h.content_write bytes f.1 hlt
  content_sync f := h.content_sync f.1

theorem MayStop.buffered {lfs : LfsFile φ} {content : φ → List UInt8} (h : MayStop lfs content) :
    MayStop (buffered lfs) fun f => content f.1 where
  size_eq f hlt := h.size_eq f.1 hlt
  write_take bytes f hlt := h.write_take bytes f.1 hlt

theorem storesOnClose_buffered (lfs : LfsFile φ) (content : φ → List UInt8) :
    StoresOnClose (buffered lfs) store (fun f => content f.1) fun f => content f.2 where
  durable_write _ _ := rfl
  content_close _ := rfl
  durable_close _ := rfl

theorem reopens_buffered :
    Reopens (fun bytes => (bytes, bytes)) (fun f : List UInt8 × List UInt8 => f.1)
      fun f => f.2 where
  content_reopen _ := rfl
  durable_reopen _ := rfl

/-- The results of a run of calls. -/
def results (lfs : LfsFile φ) (blockSize : UInt32) : List (List UInt8) → φ → List Bool
  | [], _ => []
  | bytes :: rest, f =>
    let r := append lfs blockSize bytes f
    r.1 :: results lfs blockSize rest r.2

section Append

variable {lfs : LfsFile φ} {content durable : φ → List UInt8} {blockSize : UInt32}
variable (hB : 128 ≤ blockSize.toNat)
include hB

/-! ## One call -/

/-- The loop stores nothing: it reaches its sync only with a room of zero. -/
theorem appendLoop_durable (hwrite : ∀ bytes f, durable (lfs.write bytes f).2 = durable f)
    (buf : List UInt8) (filesize off : UInt32) (hoff : off ≠ 0) (f : φ) :
    durable (appendLoop lfs blockSize buf filesize off f).2 = durable f := by
  fun_induction appendLoop lfs blockSize buf filesize off f with
  | case1 buf filesize off f hpos file res hres =>
    -- the sync stands behind a test for a room of zero, which `offset` never is
    have hfile : file = f := if_neg hoff
    rw [hwrite, hfile]
  | case2 buf filesize off f hpos file res hres fs ih =>
    have hfile : file = f := if_neg hoff
    rw [ih (offset_ne_zero hB _), hwrite, hfile]
  | case3 => rfl

theorem append_durable (hwrite : ∀ bytes f, durable (lfs.write bytes f).2 = durable f)
    (bytes : List UInt8) (f : φ) : durable (append lfs blockSize bytes f).2 = durable f :=
  appendLoop_durable hB hwrite bytes _ _ (offset_ne_zero hB _) f

/-- Without failures all bytes are added. -/
theorem append_content (h : AllSucceed lfs content) (bytes : List UInt8) (f : φ)
    (hlt : (content f).length + bytes.length < 2 ^ 31) :
    content (append lfs blockSize bytes f).2 = content f ++ bytes := by
  obtain ⟨f', calls, hrun, hcontent, -⟩ := appendLoop_traced h hB bytes (lfs.size f) f []
    (h.size_eq f (by omega)) hlt
  obtain ⟨tr', htraced⟩ := appendLoop_traced_eq lfs blockSize bytes (lfs.size f)
    (offset (lfs.size f) blockSize) f []
  have hplain := congrArg (fun r => r.2.1) (htraced.symm.trans hrun)
  rw [append]
  exact (congrArg content hplain).trans hcontent

/-- With failures a part of the bytes is added, from the first one on. -/
theorem append_piece (h : MayStop lfs content) (bytes : List UInt8) (f : φ)
    (hlt : (content f).length + bytes.length < 2 ^ 31) :
    ∃ k ≤ bytes.length, content (append lfs blockSize bytes f).2 = content f ++ bytes.take k ∧
      ((append lfs blockSize bytes f).1 = true ↔ k = bytes.length) := by
  obtain ⟨ok, f', pieces, hrun, hhanded, -⟩ := appendLoop_handed h hB bytes (lfs.size f) f []
    (h.size_eq f (by omega)) hlt
  obtain ⟨k, hk, hcontent, hok⟩ := hhanded.take h hlt
  obtain ⟨tr', htraced⟩ := appendLoop_traced_eq lfs blockSize bytes (lfs.size f)
    (offset (lfs.size f) blockSize) f []
  have hresult := htraced.symm.trans hrun
  simp only [Prod.mk.injEq] at hresult
  obtain ⟨hres, hfile, -⟩ := hresult
  refine ⟨k, hk, ?_, ?_⟩
  · rw [append]
    exact (congrArg content hfile).trans hcontent
  · rw [append]
    exact (iff_of_eq (congrArg (· = true) hres)).trans hok

/-! ## Runs of calls -/

theorem appendAll_durable (hwrite : ∀ bytes f, durable (lfs.write bytes f).2 = durable f)
    (runs : List (List UInt8)) (f : φ) :
    durable (appendAll lfs blockSize runs f) = durable f := by
  induction runs generalizing f with
  | nil => rfl
  | cons bytes rest ih => rw [appendAll, ih, append_durable hB hwrite]

theorem appendAll_content (h : AllSucceed lfs content) (runs : List (List UInt8)) (f : φ)
    (hlt : (content f).length + runs.flatten.length < 2 ^ 31) :
    content (appendAll lfs blockSize runs f) = content f ++ runs.flatten := by
  induction runs generalizing f with
  | nil => exact (List.append_nil _).symm
  | cons bytes rest ih =>
    rw [List.flatten_cons, List.length_append] at hlt
    have hone := append_content hB h bytes f (by omega)
    have hlen := congrArg List.length hone
    rw [List.length_append] at hlen
    rw [appendAll, ih _ (by omega), hone, List.flatten_cons, List.append_assoc]

/-- **Whatever the writes do, a run of calls adds a prefix of each input, in order, and a call
returns `true` exactly if its prefix is the whole input.** -/
theorem appendAll_pieces (h : MayStop lfs content) (runs : List (List UInt8)) (f : φ)
    (hlt : (content f).length + runs.flatten.length < 2 ^ 31) :
    ∃ ks : List ℕ, ks.length = runs.length ∧
      content (appendAll lfs blockSize runs f) =
        content f ++ (List.zipWith List.take ks runs).flatten ∧
      results lfs blockSize runs f =
        List.zipWith (fun k bytes => decide (bytes.length ≤ k)) ks runs := by
  induction runs generalizing f with
  | nil => exact ⟨[], rfl, (List.append_nil _).symm, rfl⟩
  | cons bytes rest ih =>
    rw [List.flatten_cons, List.length_append] at hlt
    obtain ⟨k, hk, hone, hok⟩ := append_piece hB h bytes f (by omega)
    -- what is added to the file is no longer than what was asked for
    have hlen : (content (append lfs blockSize bytes f).2).length ≤
        (content f).length + bytes.length := by
      rw [hone, List.length_append]
      exact Nat.add_le_add_left (List.length_take_le' k bytes) _
    obtain ⟨ks, hks, hrest, hresults⟩ := ih (append lfs blockSize bytes f).2 (by omega)
    refine ⟨k :: ks, congrArg (· + 1) hks, ?_, ?_⟩
    · rw [appendAll, hrest, hone, List.zipWith_cons_cons, List.flatten_cons, List.append_assoc]
    · have hdecide : (append lfs blockSize bytes f).1 = decide (bytes.length ≤ k) := by
        rw [Bool.eq_iff_iff, hok, decide_eq_true_iff]
        omega
      rw [results, hresults, List.zipWith_cons_cons, hdecide]

end Append

end CommonDrivers.Flash
