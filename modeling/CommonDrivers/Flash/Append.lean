import CommonDrivers.Flash.Offset

/-! # Appending to a file

`Flash::append` of `src/flash/flash.cpp` over the part of littlefs that it calls. littlefs itself
is not part of the repository, so a file is any state with the three calls; `AllSucceed` is what
the documented behaviour of these calls says about a medium without failures.
-/

namespace CommonDrivers.Flash

open CtzList

/-- The littlefs calls on an open file. `write` returns what `lfs_file_write` returns. -/
structure LfsFile (φ : Type) where
  size : φ → UInt32
  write : List UInt8 → φ → UInt32 × φ
  sync : φ → φ

variable {φ : Type}

/-- How much one round of the loop hands to `lfs_file_write`. -/
def writeSize (size : ℕ) (off : UInt32) : ℕ :=
  if off = 0 then size else if size < off.toNat then size else off.toNat

theorem writeSize_pos {size : ℕ} (off : UInt32) (h : 0 < size) : 0 < writeSize size off := by
  rw [writeSize]
  split
  · exact h
  · next hoff =>
    have : off.toNat ≠ 0 := fun h0 => hoff (UInt32.toNat_inj.mp h0)
    split <;> omega

theorem writeSize_le (size : ℕ) (off : UInt32) : writeSize size off ≤ size := by
  rw [writeSize]
  split
  · exact le_rfl
  · split <;> omega

/-- The loop of `append`: `buf` is what is still to be written. -/
def appendLoop (lfs : LfsFile φ) (blockSize : UInt32) (buf : List UInt8) (filesize off : UInt32)
    (file : φ) : Bool × φ :=
  if _hsize : 0 < buf.length then
    -- Time for a new block, sync and just write whatever
    let file := if off = 0 then lfs.sync file else file
    let res := lfs.write (buf.take (writeSize buf.length off)) file
    if _hres : res.1.toNat ≠ writeSize buf.length off then (false, res.2)
    else
      let filesize := filesize + res.1
      appendLoop lfs blockSize (buf.drop res.1.toNat) filesize (offset filesize blockSize) res.2
  else (true, file)
termination_by buf.length
decreasing_by
  have hpos := writeSize_pos off _hsize
  have : res.1.toNat = writeSize buf.length off := not_not.mp _hres
  rw [List.length_drop]
  change buf.length - res.1.toNat < buf.length
  omega

def append (lfs : LfsFile φ) (blockSize : UInt32) (bytes : List UInt8) (file : φ) : Bool × φ :=
  let filesize := lfs.size file
  appendLoop lfs blockSize bytes filesize (offset filesize blockSize) file

/-- A run of `append` calls on one file. -/
def appendAll (lfs : LfsFile φ) (blockSize : UInt32) : List (List UInt8) → φ → φ
  | [], file => file
  | bytes :: rest, file => appendAll lfs blockSize rest (append lfs blockSize bytes file).2

/-! ## A medium without failures -/

/-- What the littlefs calls do when none of them fails, on files below `2 ^ 31` bytes. `content` is
what the file holds, bytes that are not yet synced included. -/
structure AllSucceed (lfs : LfsFile φ) (content : φ → List UInt8) : Prop where
  size_eq : ∀ f, (content f).length < 2 ^ 31 → (lfs.size f).toNat = (content f).length
  write_eq : ∀ bytes f, (content f).length + bytes.length < 2 ^ 31 →
    (lfs.write bytes f).1.toNat = bytes.length
  content_write : ∀ bytes f, (content f).length + bytes.length < 2 ^ 31 →
    content (lfs.write bytes f).2 = content f ++ bytes
  content_sync : ∀ f, content (lfs.sync f) = content f

/-- A file that is just its content. -/
def listFile : LfsFile (List UInt8) where
  size f := UInt32.ofNat f.length
  write bytes f := (UInt32.ofNat bytes.length, f ++ bytes)
  sync f := f

theorem allSucceed_listFile : AllSucceed listFile id where
  size_eq f h := UInt32.toNat_ofNat_of_lt' (show f.length < 2 ^ 32 by simp at h; omega)
  write_eq bytes f h := UInt32.toNat_ofNat_of_lt' (show bytes.length < 2 ^ 32 by simp at h; omega)
  content_write _ _ _ := rfl
  content_sync _ := rfl

/-! ## The calls of a run -/

/-- A call on the file: `write pos len` hands the bytes of positions `pos, …, pos + len - 1`. -/
inductive FileCall
  | write (pos len : ℕ)
  | sync
deriving DecidableEq, Repr

/-- `lfs` with a record of the calls made on the file. -/
def traced (lfs : LfsFile φ) : LfsFile (φ × List FileCall) where
  size f := lfs.size f.1
  write bytes f :=
    ((lfs.write bytes f.1).1, (lfs.write bytes f.1).2,
      f.2 ++ [.write (lfs.size f.1).toNat bytes.length])
  sync f := (lfs.sync f.1, f.2 ++ [.sync])

@[simp] theorem traced_size (lfs : LfsFile φ) (f : φ × List FileCall) :
    (traced lfs).size f = lfs.size f.1 := rfl

@[simp] theorem traced_write (lfs : LfsFile φ) (bytes : List UInt8) (f : φ × List FileCall) :
    (traced lfs).write bytes f =
      ((lfs.write bytes f.1).1, (lfs.write bytes f.1).2,
        f.2 ++ [.write (lfs.size f.1).toNat bytes.length]) := rfl

/-- Non-empty writes back to back from `start` to `stop`, and no other call. -/
def Contiguous : ℕ → List FileCall → ℕ → Prop
  | start, [], stop => start = stop
  | start, .write pos len :: rest, stop =>
    pos = start ∧ 0 < len ∧ Contiguous (start + len) rest stop
  | _, .sync :: _, _ => False

theorem Contiguous.append {a b c : ℕ} {xs ys : List FileCall} (hx : Contiguous a xs b)
    (hy : Contiguous b ys c) : Contiguous a (xs ++ ys) c := by
  induction xs generalizing a with
  | nil => exact hx ▸ hy
  | cons x xs ih =>
    cases x with
    | write pos len => exact ⟨hx.1, hx.2.1, ih hx.2.2⟩
    | sync => exact hx.elim

theorem Contiguous.le {a b : ℕ} {xs : List FileCall} (h : Contiguous a xs b) : a ≤ b := by
  induction xs generalizing a with
  | nil => exact Nat.le_of_eq h
  | cons x xs ih =>
    cases x with
    | write pos len =>
      have := ih h.2.2
      omega
    | sync => exact h.elim

/-- A contiguous run splits at any of its writes. -/
theorem Contiguous.split {a b pos len : ℕ} {xs ys : List FileCall}
    (h : Contiguous a (xs ++ .write pos len :: ys) b) :
    Contiguous a xs pos ∧ 0 < len ∧ Contiguous (pos + len) ys b := by
  induction xs generalizing a with
  | nil =>
    obtain ⟨rfl, hlen, hys⟩ := h
    exact ⟨rfl, hlen, hys⟩
  | cons x xs ih =>
    cases x with
    | write p l =>
      obtain ⟨hpre, hlen, hys⟩ := ih h.2.2
      exact ⟨⟨h.1, h.2.1, hpre⟩, hlen, hys⟩
    | sync => exact h.elim

/-- Some write of a contiguous run reaches each position past its start. -/
theorem Contiguous.exists_reach {a b e : ℕ} {xs : List FileCall} (h : Contiguous a xs b)
    (ha : a < e) (hb : e ≤ b) :
    ∃ pre pos len post, xs = pre ++ .write pos len :: post ∧ pos < e ∧ e ≤ pos + len := by
  induction xs generalizing a with
  | nil =>
    have : a = b := h
    omega
  | cons x xs ih =>
    cases x with
    | write pos len =>
      obtain ⟨rfl, -, hrest⟩ := h
      by_cases he : e ≤ pos + len
      · exact ⟨[], pos, len, xs, rfl, ha, he⟩
      · obtain ⟨pre, p, l, post, rfl, hp, hl⟩ := ih hrest (by omega)
        exact ⟨.write pos len :: pre, p, l, post, rfl, hp, hl⟩
    | sync => exact h.elim

/-! ## What `append` does without failures -/

section Success

variable {lfs : LfsFile φ} {content : φ → List UInt8} (h : AllSucceed lfs content)
variable {blockSize : UInt32} (hB : 128 ≤ blockSize.toNat)
include hB

/-- The room left in a block is never zero, so the loop never takes its sync branch. -/
theorem offset_ne_zero (filesize : UInt32) : offset filesize blockSize ≠ 0 := by
  intro h0
  obtain ⟨n, hle, hlt⟩ := exists_block_of_lt hB filesize.toNat_lt
  have := offset_toNat hB hle hlt
  rw [h0] at this
  simp at this
  omega

/-- A round whose write is complete goes on behind the bytes written. -/
theorem appendLoop_full {buf : List UInt8} (filesize : UInt32) {f : φ} (tr : List FileCall)
    (hpos : 0 < buf.length) {k : ℕ} (hk : writeSize buf.length (offset filesize blockSize) = k)
    (hres : (lfs.write (buf.take k) f).1.toNat = k) :
    appendLoop (traced lfs) blockSize buf filesize (offset filesize blockSize) (f, tr) =
      appendLoop (traced lfs) blockSize (buf.drop k) (filesize + (lfs.write (buf.take k) f).1)
        (offset (filesize + (lfs.write (buf.take k) f).1) blockSize)
        ((lfs.write (buf.take k) f).2, tr ++ [.write (lfs.size f).toNat k]) := by
  have htake : (buf.take k).length = k := by
    rw [List.length_take, Nat.min_eq_left (hk ▸ writeSize_le _ _)]
  rw [appendLoop, dif_pos hpos]
  simp only [if_neg (offset_ne_zero hB filesize), hk, traced_write, htake]
  rw [dif_neg (not_not.mpr hres), hres]

/-- A round whose write is not complete is the last one. -/
theorem appendLoop_short {buf : List UInt8} (filesize : UInt32) {f : φ} (tr : List FileCall)
    (hpos : 0 < buf.length) {k : ℕ} (hk : writeSize buf.length (offset filesize blockSize) = k)
    (hres : (lfs.write (buf.take k) f).1.toNat ≠ k) :
    appendLoop (traced lfs) blockSize buf filesize (offset filesize blockSize) (f, tr) =
      (false, (lfs.write (buf.take k) f).2, tr ++ [.write (lfs.size f).toNat k]) := by
  have htake : (buf.take k).length = k := by
    rw [List.length_take, Nat.min_eq_left (hk ▸ writeSize_le _ _)]
  rw [appendLoop, dif_pos hpos]
  simp only [if_neg (offset_ne_zero hB filesize), hk, traced_write, htake]
  rw [dif_pos hres]

include h

/-- One round of the loop without failures writes up to the end of the block. -/
theorem appendLoop_step {buf : List UInt8} (filesize : UInt32) {f : φ} (tr : List FileCall)
    (hpos : 0 < buf.length) (hlt : (content f).length + buf.length < 2 ^ 31) :
    ∃ k, 0 < k ∧ k ≤ buf.length ∧
      appendLoop (traced lfs) blockSize buf filesize (offset filesize blockSize) (f, tr) =
        appendLoop (traced lfs) blockSize (buf.drop k) (filesize + (lfs.write (buf.take k) f).1)
          (offset (filesize + (lfs.write (buf.take k) f).1) blockSize)
          ((lfs.write (buf.take k) f).2, tr ++ [.write (content f).length k]) ∧
      (lfs.write (buf.take k) f).1.toNat = k ∧
      content (lfs.write (buf.take k) f).2 = content f ++ buf.take k := by
  obtain ⟨k, hk⟩ : ∃ k, writeSize buf.length (offset filesize blockSize) = k := ⟨_, rfl⟩
  have hkle : k ≤ buf.length := hk ▸ writeSize_le _ _
  have htake : (buf.take k).length = k := by rw [List.length_take, Nat.min_eq_left hkle]
  have hres : (lfs.write (buf.take k) f).1.toNat = k := by
    rw [h.write_eq _ _ (by omega), htake]
  refine ⟨k, hk ▸ writeSize_pos _ hpos, hkle, ?_, hres, h.content_write _ _ (by omega)⟩
  rw [appendLoop_full hB filesize tr hpos hk hres, h.size_eq f (by omega)]

/-- The loop writes all of its bytes, back to back from the end of the file. -/
theorem appendLoop_traced (buf : List UInt8) (filesize : UInt32) (f : φ) (tr : List FileCall)
    (hsize : filesize.toNat = (content f).length)
    (hlt : (content f).length + buf.length < 2 ^ 31) :
    ∃ f' calls, appendLoop (traced lfs) blockSize buf filesize (offset filesize blockSize) (f, tr) =
        (true, f', tr ++ calls) ∧ content f' = content f ++ buf ∧
      Contiguous (content f).length calls ((content f).length + buf.length) := by
  induction hn : buf.length using Nat.strongRecOn generalizing buf filesize f tr with
  | ind n ih =>
    subst hn
    rcases Nat.eq_zero_or_pos buf.length with h0 | hpos
    · have hnil : buf = [] := List.length_eq_zero_iff.mp h0
      subst hnil
      exact ⟨f, [], by simp [appendLoop], by simp, rfl⟩
    · obtain ⟨k, hk, hkle, hstep, hres, hcont⟩ := appendLoop_step h hB filesize tr hpos hlt
      have hlen : (content (lfs.write (buf.take k) f).2).length = (content f).length + k := by
        rw [hcont, List.length_append, List.length_take, Nat.min_eq_left hkle]
      -- below 2^31 the 32-bit file size does not wrap
      have hsize' : (filesize + (lfs.write (buf.take k) f).1).toNat =
          (content (lfs.write (buf.take k) f).2).length := by
        rw [UInt32.toNat_add, hsize, hres, hlen]
        omega
      have hdrop : (buf.drop k).length = buf.length - k := List.length_drop
      obtain ⟨f', calls, hrun, hcont', hcontig⟩ := ih (buf.drop k).length (by omega) (buf.drop k)
        _ _ (tr ++ [.write (content f).length k]) hsize' (by omega) rfl
      refine ⟨f', .write (content f).length k :: calls, ?_, ?_, rfl, hk, ?_⟩
      · rw [hstep, hrun, List.append_assoc]
        rfl
      · rw [hcont', hcont, List.append_assoc, List.take_append_drop]
      · rwa [hlen, hdrop, Nat.add_assoc, Nat.add_sub_cancel' hkle] at hcontig

/-- A run of calls writes all of its bytes, back to back from the end of the file. -/
theorem appendAll_traced (runs : List (List UInt8)) (f : φ) (tr : List FileCall)
    (hlt : (content f).length + runs.flatten.length < 2 ^ 31) :
    ∃ f' calls, appendAll (traced lfs) blockSize runs (f, tr) = (f', tr ++ calls) ∧
      content f' = content f ++ runs.flatten ∧
      Contiguous (content f).length calls ((content f).length + runs.flatten.length) := by
  induction runs generalizing f tr with
  | nil => exact ⟨f, [], by simp [appendAll], by simp, rfl⟩
  | cons bytes rest ih =>
    rw [List.flatten_cons, List.length_append] at hlt
    obtain ⟨f₁, calls₁, hrun₁, hcont₁, hcontig₁⟩ := appendLoop_traced h hB bytes (lfs.size f) f tr
      (h.size_eq f (by omega)) (by omega)
    have hlen₁ : (content f₁).length = (content f).length + bytes.length := by
      rw [hcont₁, List.length_append]
    obtain ⟨f₂, calls₂, hrun₂, hcont₂, hcontig₂⟩ := ih f₁ (tr ++ calls₁) (by omega)
    refine ⟨f₂, calls₁ ++ calls₂, ?_, ?_, ?_⟩
    · have happend : append (traced lfs) blockSize bytes (f, tr) = (true, f₁, tr ++ calls₁) := hrun₁
      rw [appendAll, happend, hrun₂, List.append_assoc]
    · rw [hcont₂, hcont₁, List.flatten_cons, List.append_assoc]
    · rw [hlen₁] at hcontig₂
      rw [List.flatten_cons, List.length_append, ← Nat.add_assoc]
      exact hcontig₁.append hcontig₂

end Success

end CommonDrivers.Flash
