import CommonDrivers.Flash.Append

/-! # Syncing at the end of a block

`append` means to sync the file whenever its bytes have filled a block. The room that `offset`
computes is never zero, so that branch of the loop is dead and no run ever syncs. What is left is
exact: a run keeps the promise if and only if it never writes past the block in which the file ended
when the run began.
-/

namespace CommonDrivers.Flash

open CtzList

/-- Whenever a write fills a block, it stops at the block's end, and before any further byte is
handed over the file is synced. -/
def SyncedAtBlockEnds (blocksize : ℕ) (calls : List FileCall) : Prop :=
  ∀ n pre pos len post, calls = pre ++ .write pos len :: post →
    pos < blockEnd 4 blocksize n → blockEnd 4 blocksize n ≤ pos + len →
    pos + len = blockEnd 4 blocksize n ∧
      ∀ mid pos' len' post', post = mid ++ .write pos' len' :: post' → 0 < len' → .sync ∈ mid

/-- A run that only writes keeps the promise exactly if it ends inside its first block. -/
theorem syncedAtBlockEnds_iff {blocksize start stop n : ℕ} {calls : List FileCall}
    (h : Contiguous start calls stop) (hlo : blockStart 4 blocksize n ≤ start)
    (hhi : start < blockEnd 4 blocksize n) :
    SyncedAtBlockEnds blocksize calls ↔ stop ≤ blockEnd 4 blocksize n := by
  constructor
  · intro hsync
    by_contra hstop
    -- the write that reaches the end of the block is followed by another write, not by a sync
    obtain ⟨pre, pos, len, post, rfl, hpos, hlen⟩ := h.exists_reach hhi (by omega)
    obtain ⟨heq, hnext⟩ := hsync n pre pos len post rfl hpos hlen
    obtain ⟨-, -, hpost⟩ := h.split
    cases post with
    | nil =>
      have : pos + len = stop := hpost
      omega
    | cons call post =>
      cases call with
      | write pos' len' => exact List.not_mem_nil (hnext [] pos' len' post rfl hpost.2.1)
      | sync => exact hpost
  · intro hstop m pre pos len post hcalls hpos hlen
    subst hcalls
    obtain ⟨hpre, -, hpost⟩ := h.split
    have hstart := hpre.le
    have hend := hpost.le
    -- a block that the run fills is its first one, so nothing is written behind it
    have hnm : n ≤ m := by
      by_contra hlt
      have := blockStart_mono 4 blocksize (show m + 1 ≤ n by omega)
      simp only [blockEnd] at hpos
      omega
    have hmono : blockEnd 4 blocksize n ≤ blockEnd 4 blocksize m :=
      blockStart_mono 4 blocksize (Nat.succ_le_succ hnm)
    refine ⟨by omega, fun mid pos' len' post' hmid hlen' => ?_⟩
    rw [hmid] at hpost
    obtain ⟨hmid', -, hpost'⟩ := hpost.split
    have := hmid'.le
    have := hpost'.le
    omega

/-- **A run of `append` calls syncs at the end of each block it fills if and only if it stays in the
block in which the file ended.** -/
theorem appendAll_syncedAtBlockEnds_iff {φ : Type} {lfs : LfsFile φ} {content : φ → List UInt8}
    (h : AllSucceed lfs content) {blockSize : UInt32} (hB : 128 ≤ blockSize.toNat)
    (runs : List (List UInt8)) (f : φ)
    (hlt : (content f).length + runs.flatten.length < 2 ^ 31) {n : ℕ}
    (hlo : blockStart 4 blockSize.toNat n ≤ (content f).length)
    (hhi : (content f).length < blockEnd 4 blockSize.toNat n) :
    SyncedAtBlockEnds blockSize.toNat (appendAll (traced lfs) blockSize runs (f, [])).2 ↔
      (content f).length + runs.flatten.length ≤ blockEnd 4 blockSize.toNat n := by
  obtain ⟨f', calls, hrun, -, hcontig⟩ := appendAll_traced h hB runs f [] hlt
  rw [hrun]
  exact syncedAtBlockEnds_iff hcontig hlo hhi

/-- Appends that stay inside the first block keep the promise. -/
theorem appendAll_syncedAtBlockEnds_first_block :
    SyncedAtBlockEnds 128 (appendAll (traced listFile) 128 [[1, 2], [3]] ([], [])).2 ↔
      3 ≤ blockEnd 4 128 0 :=
  appendAll_syncedAtBlockEnds_iff (n := 0) allSucceed_listFile (by decide) [[1, 2], [3]] []
    (by simp) (by simp [blockStart]) (by simp [blockEnd, blockStart, capacity])

/-- One byte past a filled block is handed over without a sync. -/
theorem appendAll_skips_sync :
    ¬ SyncedAtBlockEnds 128
      (appendAll (traced listFile) 128 [List.replicate 129 0] ([], [])).2 := by
  have hB : 128 ≤ (128 : UInt32).toNat := by decide
  obtain ⟨f', calls, hrun, -, hcontig⟩ := appendAll_traced allSucceed_listFile hB
    [List.replicate 129 0] [] [] (by simp)
  rw [hrun, List.nil_append, syncedAtBlockEnds_iff (n := 0) hcontig (by simp [blockStart])
    (by simp [blockEnd, blockStart, capacity])]
  simp [blockEnd, blockStart, capacity]

end CommonDrivers.Flash
