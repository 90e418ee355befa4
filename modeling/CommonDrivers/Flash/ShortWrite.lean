import CommonDrivers.Flash.Append

/-! # Appending through writes that may stop early

`lfs_file_write` may append only a part of its bytes and report an error. `append` then stops, so
what the file has gained is still a prefix of the input: the position in the buffer, the size that
is left and the local file size stay in step with the file until the first failure. `Handed` is what
`append` hands over, piece by piece; the prefix follows from it.
-/

namespace CommonDrivers.Flash

open CtzList

variable {φ : Type}

/-- What the littlefs calls may do on files below `2 ^ 31` bytes: a write appends all of its bytes
and returns their number, or it appends some of them and returns another value. -/
structure MayStop (lfs : LfsFile φ) (content : φ → List UInt8) : Prop where
  size_eq : ∀ f, (content f).length < 2 ^ 31 → (lfs.size f).toNat = (content f).length
  write_take : ∀ bytes f, (content f).length + bytes.length < 2 ^ 31 →
    ∃ k ≤ bytes.length, content (lfs.write bytes f).2 = content f ++ bytes.take k ∧
      ((lfs.write bytes f).1.toNat = bytes.length ↔ k = bytes.length)

/-- A file on a medium with room for `cap` bytes. -/
def boundedFile (cap : ℕ) : LfsFile (List UInt8) where
  size f := UInt32.ofNat f.length
  write bytes f :=
    (UInt32.ofNat (min bytes.length (cap - f.length)), f ++ bytes.take (cap - f.length))
  sync f := f

theorem mayStop_boundedFile (cap : ℕ) : MayStop (boundedFile cap) id where
  size_eq f h := UInt32.toNat_ofNat_of_lt' (show f.length < 2 ^ 32 by simp at h; omega)
  write_take bytes f h := by
    refine ⟨min bytes.length (cap - f.length), Nat.min_le_left _ _, ?_, ?_⟩
    · change f ++ bytes.take (cap - f.length) = _
      rw [List.take_eq_take_min, Nat.min_comm]
      rfl
    · change (UInt32.ofNat (min bytes.length (cap - f.length))).toNat = _ ↔ _
      rw [UInt32.toNat_ofNat_of_lt' (show _ < 2 ^ 32 by simp at h; omega)]

/-! ## The calls of one `append` -/

/-- A non-empty write whose bytes all fall into one block of the file. -/
def InOneBlock (blocksize : ℕ) (call : FileCall) : Prop :=
  ∃ pos len n, call = .write pos len ∧ 0 < len ∧ blockStart 4 blocksize n ≤ pos ∧
    pos + len ≤ blockEnd 4 blocksize n

/-- The input is handed over in pieces, in order: each write is complete, and then either nothing is
left, which is a success, or the last piece is cut short, which is not. -/
inductive Handed (lfs : LfsFile φ) : φ → List UInt8 → List (List UInt8) → Bool → φ → Prop
  | done (f : φ) : Handed lfs f [] [] true f
  | short {f : φ} {piece : List UInt8} (rest : List UInt8) (hpiece : piece ≠ [])
      (hwrite : (lfs.write piece f).1.toNat ≠ piece.length) :
      Handed lfs f (piece ++ rest) [piece] false (lfs.write piece f).2
  | full {f f' : φ} {piece rest : List UInt8} {pieces : List (List UInt8)} {ok : Bool}
      (hpiece : piece ≠ []) (hwrite : (lfs.write piece f).1.toNat = piece.length)
      (hrest : Handed lfs (lfs.write piece f).2 rest pieces ok f') :
      Handed lfs f (piece ++ rest) (piece :: pieces) ok f'

/-- The writes of the pieces, back to back from `start`. -/
def writesFrom : ℕ → List (List UInt8) → List FileCall
  | _, [] => []
  | start, piece :: pieces => .write start piece.length :: writesFrom (start + piece.length) pieces

section Handed

variable {lfs : LfsFile φ} {content : φ → List UInt8} {f f' : φ} {bytes : List UInt8}
variable {pieces : List (List UInt8)} {ok : Bool}

/-- Of an empty input nothing is handed over. -/
theorem Handed.of_nil (h : Handed lfs f [] pieces ok f') : pieces = [] := by
  generalize hbytes : ([] : List UInt8) = bytes at h
  cases h with
  | done => rfl
  | short rest hpiece => exact absurd (List.append_eq_nil_iff.mp hbytes.symm).1 hpiece
  | full hpiece => exact absurd (List.append_eq_nil_iff.mp hbytes.symm).1 hpiece

/-- The file gains a prefix of what is handed over, and all of it exactly on success. -/
theorem Handed.take (h : Handed lfs f bytes pieces ok f') (hlfs : MayStop lfs content)
    (hlt : (content f).length + bytes.length < 2 ^ 31) :
    ∃ k ≤ bytes.length, content f' = content f ++ bytes.take k ∧
      (ok = true ↔ k = bytes.length) := by
  induction h with
  | done f => exact ⟨0, le_rfl, by simp, by simp⟩
  | @short f piece rest hpiece hwrite =>
    rw [List.length_append] at hlt
    obtain ⟨k, hk, hcont, hres⟩ := hlfs.write_take piece f (by omega)
    have hne : k ≠ piece.length := fun hk' => hwrite (hres.mpr hk')
    refine ⟨k, by rw [List.length_append]; omega, ?_, ?_⟩
    · rw [hcont, List.take_append_of_le_length hk]
    · rw [List.length_append]
      exact iff_of_false (by simp) (by omega)
  | @full f f' piece rest pieces ok hpiece hwrite hrest ih =>
    rw [List.length_append] at hlt
    obtain ⟨k, hk, hcont, hres⟩ := hlfs.write_take piece f (by omega)
    rw [hres.mp hwrite, List.take_length] at hcont
    obtain ⟨j, hj, hcont', hok⟩ := ih (by rw [hcont, List.length_append]; omega)
    refine ⟨piece.length + j, by rw [List.length_append]; omega, ?_, ?_⟩
    · rw [hcont', hcont, List.append_assoc, List.take_length_add_append]
    · rw [hok, List.length_append]
      omega

/-- Without failures all of it is written. -/
theorem Handed.ok_of_allSucceed (h : Handed lfs f bytes pieces ok f')
    (hlfs : AllSucceed lfs content) (hlt : (content f).length + bytes.length < 2 ^ 31) :
    ok = true := by
  induction h with
  | done f => rfl
  | @short f piece rest hpiece hwrite =>
    rw [List.length_append] at hlt
    exact absurd (hlfs.write_eq piece f (by omega)) hwrite
  | @full f f' piece rest pieces ok hpiece hwrite hrest ih =>
    rw [List.length_append] at hlt
    refine ih ?_
    rw [hlfs.content_write piece f (by omega), List.length_append]
    omega

end Handed

theorem traced_sync_eq (lfs : LfsFile φ) (p : Prop) [Decidable p] (f : φ) (tr : List FileCall) :
    ∃ tr', (if p then (traced lfs).sync (f, tr) else (f, tr)) =
      (if p then lfs.sync f else f, tr') := by
  by_cases h : p
  · exact ⟨tr ++ [.sync], by rw [if_pos h, if_pos h]; rfl⟩
  · exact ⟨tr, by rw [if_neg h, if_neg h]⟩

/-- The trace does not change what `append` does. -/
theorem appendLoop_traced_eq (lfs : LfsFile φ) (blockSize : UInt32) (buf : List UInt8)
    (filesize off : UInt32) (f : φ) (tr : List FileCall) :
    ∃ tr', appendLoop (traced lfs) blockSize buf filesize off (f, tr) =
      ((appendLoop lfs blockSize buf filesize off f).1,
        (appendLoop lfs blockSize buf filesize off f).2, tr') := by
  fun_induction appendLoop lfs blockSize buf filesize off f generalizing tr with
  | case1 buf filesize off f hpos file res hres =>
    obtain ⟨tr₁, hfile⟩ := traced_sync_eq lfs (off = 0) f tr
    rw [appendLoop, dif_pos hpos]
    simp only [hfile]
    exact ⟨_, dif_pos hres⟩
  | case2 buf filesize off f hpos file res hres fs ih =>
    obtain ⟨tr₁, hfile⟩ := traced_sync_eq lfs (off = 0) f tr
    obtain ⟨tr₂, hrest⟩ := ih (tr₁ ++ [.write (lfs.size file).toNat _])
    refine ⟨tr₂, ?_⟩
    rw [appendLoop, dif_pos hpos]
    simp only [hfile]
    exact (dif_neg hres).trans hrest
  | case3 buf filesize off f hpos =>
    rw [appendLoop, dif_neg hpos]
    exact ⟨tr, rfl⟩

section MayStop

variable {lfs : LfsFile φ} {content : φ → List UInt8} (h : MayStop lfs content)
variable {blockSize : UInt32} (hB : 128 ≤ blockSize.toNat)
include hB

/-- What one round hands over ends within the block in which the file ends. -/
theorem writeSize_inOneBlock {size : ℕ} (filesize : UInt32) (hpos : 0 < size) :
    InOneBlock blockSize.toNat
      (.write filesize.toNat (writeSize size (offset filesize blockSize))) := by
  obtain ⟨n, hle, hlt⟩ := exists_block_of_lt hB filesize.toNat_lt
  have hroom := offset_toNat hB hle hlt
  refine ⟨_, _, n, rfl, writeSize_pos _ hpos, hle, ?_⟩
  rw [writeSize, if_neg (offset_ne_zero hB filesize)]
  split <;> omega

include h

/-- The loop hands its bytes over in pieces that each stay inside one block. -/
theorem appendLoop_handed (buf : List UInt8) (filesize : UInt32) (f : φ) (tr : List FileCall)
    (hsize : filesize.toNat = (content f).length)
    (hlt : (content f).length + buf.length < 2 ^ 31) :
    ∃ ok f' pieces,
      appendLoop (traced lfs) blockSize buf filesize (offset filesize blockSize) (f, tr) =
        (ok, f', tr ++ writesFrom (content f).length pieces) ∧
      Handed lfs f buf pieces ok f' ∧
      ∀ call ∈ writesFrom (content f).length pieces, InOneBlock blockSize.toNat call := by
  induction hn : buf.length using Nat.strongRecOn generalizing buf filesize f tr with
  | ind n ih =>
    subst hn
    rcases Nat.eq_zero_or_pos buf.length with h0 | hpos
    · have hnil : buf = [] := List.length_eq_zero_iff.mp h0
      subst hnil
      exact ⟨true, f, [], by simp [appendLoop, writesFrom], .done f, by simp [writesFrom]⟩
    · obtain ⟨s, hs⟩ : ∃ s, writeSize buf.length (offset filesize blockSize) = s := ⟨_, rfl⟩
      have hspos : 0 < s := hs ▸ writeSize_pos _ hpos
      have hsle : s ≤ buf.length := hs ▸ writeSize_le _ _
      have htake : (buf.take s).length = s := by rw [List.length_take, Nat.min_eq_left hsle]
      have hpiece : buf.take s ≠ [] := List.ne_nil_of_length_pos (by omega)
      have hpos' : (lfs.size f).toNat = (content f).length := h.size_eq f (by omega)
      have hblock := writeSize_inOneBlock hB filesize hpos
      rw [hs, hsize] at hblock
      obtain ⟨k, hk, hcont, hres⟩ := h.write_take (buf.take s) f (by omega)
      rw [htake] at hk hres
      by_cases hfull : (lfs.write (buf.take s) f).1.toNat = s
      · rw [hres.mp hfull, List.take_take, Nat.min_self] at hcont
        have hlen : (content (lfs.write (buf.take s) f).2).length = (content f).length + s := by
          rw [hcont, List.length_append, htake]
        -- below 2^31 the 32-bit file size does not wrap
        have hsize' : (filesize + (lfs.write (buf.take s) f).1).toNat =
            (content (lfs.write (buf.take s) f).2).length := by
          rw [UInt32.toNat_add, hsize, hfull, hlen]
          omega
        have hdrop : (buf.drop s).length = buf.length - s := List.length_drop
        obtain ⟨ok, f', pieces, hrun, hhanded, hcalls⟩ := ih (buf.drop s).length (by omega)
          (buf.drop s) _ _ (tr ++ [.write (content f).length s]) hsize' (by omega) rfl
        rw [hlen] at hrun hcalls
        have hhanded' := Handed.full hpiece (hfull.trans htake.symm) hhanded
        rw [List.take_append_drop] at hhanded'
        refine ⟨ok, f', buf.take s :: pieces, ?_, hhanded', ?_⟩
        · rw [appendLoop_full hB filesize tr hpos hs hfull, hpos', hrun, List.append_assoc,
            writesFrom, htake]
          rfl
        · rw [writesFrom, htake]
          exact List.forall_mem_cons.mpr ⟨hblock, hcalls⟩
      · -- the loop ends here, with at most a proper part of the piece written
        have hhanded : Handed lfs f _ _ false _ :=
          .short (buf.drop s) hpiece fun hwrite => hfull (hwrite.trans htake)
        rw [List.take_append_drop] at hhanded
        refine ⟨false, _, [buf.take s], ?_, hhanded, ?_⟩
        · rw [appendLoop_short hB filesize tr hpos hs hfull, hpos', writesFrom, writesFrom, htake]
        · rw [writesFrom, writesFrom, htake]
          exact List.forall_mem_singleton.mpr hblock

end MayStop

/-- **Whatever the writes do, `append` hands its input over piece by piece, in non-empty writes back
to back from the end of the file that each stay inside one block, and stops with `false` only behind
a write that is cut short. So the file gains a prefix of the input, the result is `true` exactly if
that prefix is the whole input, and without failures it is.** -/
theorem append_take {lfs : LfsFile φ} {content : φ → List UInt8} (h : MayStop lfs content)
    {blockSize : UInt32} (hB : 128 ≤ blockSize.toNat) (bytes : List UInt8) (f : φ)
    (hlt : (content f).length + bytes.length < 2 ^ 31) :
    ∃ ok f' calls k pieces, append lfs blockSize bytes f = (ok, f') ∧
      append (traced lfs) blockSize bytes (f, []) = (ok, f', calls) ∧
      k ≤ bytes.length ∧ content f' = content f ++ bytes.take k ∧
      (ok = true ↔ k = bytes.length) ∧
      (∀ call ∈ calls, InOneBlock blockSize.toNat call) ∧ (bytes = [] → calls = []) ∧
      Handed lfs f bytes pieces ok f' ∧ calls = writesFrom (content f).length pieces ∧
      (AllSucceed lfs content → ok = true) := by
  obtain ⟨ok, f', pieces, hrun, hhanded, hcalls⟩ := appendLoop_handed h hB bytes (lfs.size f) f []
    (h.size_eq f (by omega)) hlt
  obtain ⟨k, hk, hcont, hok⟩ := hhanded.take h hlt
  obtain ⟨tr', htraced⟩ := appendLoop_traced_eq lfs blockSize bytes (lfs.size f)
    (offset (lfs.size f) blockSize) f []
  rw [List.nil_append] at hrun
  have hplain := htraced.symm.trans hrun
  simp only [Prod.mk.injEq] at hplain
  refine ⟨ok, f', _, k, pieces, Prod.ext hplain.1 hplain.2.1, hrun, hk, hcont, hok, hcalls, ?_,
    hhanded, rfl, fun hall => hhanded.ok_of_allSucceed hall hlt⟩
  rintro rfl
  rw [hhanded.of_nil, writesFrom]

/-- 129 bytes on a medium that is full after 128. -/
theorem append_take_full_medium :
    ∃ ok f' calls k pieces, append (boundedFile 128) 128 (List.replicate 129 7) [] = (ok, f') ∧
      append (traced (boundedFile 128)) 128 (List.replicate 129 7) ([], []) = (ok, f', calls) ∧
      k ≤ (List.replicate 129 (7 : UInt8)).length ∧ f' = [] ++ (List.replicate 129 7).take k ∧
      (ok = true ↔ k = (List.replicate 129 (7 : UInt8)).length) ∧
      (∀ call ∈ calls, InOneBlock 128 call) ∧
      (List.replicate 129 (7 : UInt8) = [] → calls = []) ∧
      Handed (boundedFile 128) [] (List.replicate 129 7) pieces ok f' ∧
      calls = writesFrom 0 pieces ∧ (AllSucceed (boundedFile 128) id → ok = true) :=
  append_take (mayStop_boundedFile 128) (by decide) (List.replicate 129 7) []
    (by simp)

end CommonDrivers.Flash
