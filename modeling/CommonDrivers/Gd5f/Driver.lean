import Mathlib.Data.Nat.Notation
import CommonDrivers.Protocol

/-! # The GD5F1GQ5XE flash driver

The littlefs callbacks of `src/flash/gd5f1gq5xe.cpp` and `GD5F1GQ5XE::init`, over any protocol, in
any monad with assertions. Delays and log output act on no modelled state and are left out.
-/

namespace CommonDrivers.Gd5f

open Exec

/-! ## Commands and geometry -/

def gd5fSetFeature : UInt8 := 0x1F
def gd5fWriteEnable : UInt8 := 0x06
def gd5fReadToCache : UInt8 := 0x13
def gd5fReadFromCache : UInt8 := 0x03
def gd5fProgramLoad : UInt8 := 0x02
def gd5fProgramExecute : UInt8 := 0x10
def gd5fErase : UInt8 := 0xD8
def gd5fReadId : UInt8 := 0x9F
def gd5fReadFromCacheQuadIo : UInt8 := 0xEB
def gd5fProgramLoadQuad : UInt8 := 0x32

def gd5fBlockCount : ℕ := 1024
def gd5fPagesPerBlock : ℕ := 64
def gd5fPageSize : ℕ := 2048
def gd5fBlockSize : ℕ := gd5fPagesPerBlock * gd5fPageSize

/-- The littlefs error codes the callbacks return. -/
inductive LfsError
  | ok
  | io
deriving DecidableEq, Repr

/-- The three row address bytes of a command, most significant first. -/
def rowBytes (addr : ℕ) : List UInt8 :=
  [UInt8.ofNat ((addr &&& 0xFF0000) >>> 16), UInt8.ofNat ((addr &&& 0x00FF00) >>> 8),
    UInt8.ofNat (addr &&& 0x0000FF)]

/-- The two column address bytes of a command; only 12 bits are sent. -/
def colBytes (col : ℕ) : List UInt8 :=
  [UInt8.ofNat ((col &&& 0x0F00) >>> 8), UInt8.ofNat (col &&& 0x00FF)]

section Calls

variable {m : Type → Type} [Monad m] (P : ProtocolOver m)

/-! ## Single pages -/

def writeEnable : m Bool :=
  P.write [gd5fWriteEnable] [] .none

/-- Fetches a page into the cache and reads from the cache up to the page boundary. The results of
the transfers are not looked at. Returns the number of bytes read and their values. -/
def readPage [MonadAssert m] (block offset : ℕ) (buffer : List UInt8) : m (ℕ × List UInt8) := do
  assert (block < gd5fBlockCount)
  assert (offset < gd5fBlockSize)
  let addr := block * gd5fPagesPerBlock + offset / gd5fPageSize
  let _ ← P.write (gd5fReadToCache :: rowBytes addr) [] .byte3
  let col := offset % gd5fPageSize
  let readSize := min buffer.length (gd5fPageSize - col)
  let cmdlen := if P.type = .qspi then 5 else 4
  let opcode := if P.type = .qspi then gd5fReadFromCacheQuadIo else gd5fReadFromCache
  let cmd2 := opcode :: (colBytes col ++ [0x00, 0x00])
  let _ ← P.configure .qspiAddress4
  let res ← P.read (cmd2.take cmdlen) (buffer.take readSize) .byte2
  let _ ← P.configure .qspiAddress1
  return (readSize, res.2)

/-- Loads the cache and programs the page from it, up to the page boundary. Only the result of the
write enable is looked at. Returns the number of bytes written. -/
def writePage [MonadAssert m] (block offset : ℕ) (buffer : List UInt8) : m ℕ := do
  assert (block < gd5fBlockCount)
  assert (offset < gd5fBlockSize)
  let col := offset % gd5fPageSize
  let writeSize := min buffer.length (gd5fPageSize - col)
  let opcode := if P.type = .qspi then gd5fProgramLoadQuad else gd5fProgramLoad
  let _ ← P.write (opcode :: colBytes col) (buffer.take writeSize) .byte2
  let err ← writeEnable P
  if err then
    return 0
  let addr := block * gd5fPagesPerBlock + offset / gd5fPageSize
  let _ ← P.write (gd5fProgramExecute :: rowBytes addr) [] .byte3
  return writeSize

/-! ## Whole requests -/

/-- The page loop of a read: `buffer` is the part of the destination that is still to be filled. -/
def read [MonadAssert m] (block offset : ℕ) (buffer : List UInt8) : m (Bool × List UInt8) :=
  if _hsize : 0 < buffer.length then do
    let s ← readPage P block offset buffer
    if _hs : s.1 = 0 then
      return (false, buffer)
    else do
      let rest ← read block (offset + s.1) (buffer.drop s.1)
      return (rest.1, s.2 ++ rest.2)
  else
    return (true, [])
termination_by buffer.length
decreasing_by
  rw [List.length_drop]
  omega

/-- The page loop of a write: `buffer` is the part of the source that is still to be written. -/
def write [MonadAssert m] (block offset : ℕ) (buffer : List UInt8) : m Bool :=
  if _hsize : 0 < buffer.length then do
    let s ← writePage P block offset buffer
    if _hs : s = 0 then
      return false
    else
      write block (offset + s) (buffer.drop s)
  else
    return true
termination_by buffer.length
decreasing_by
  rw [List.length_drop]
  omega

def erase (block : ℕ) : m Bool := do
  let addr := block * gd5fPagesPerBlock
  let err ← writeEnable P
  if err then
    return false
  let _ ← P.write (gd5fErase :: rowBytes addr) [] .byte3
  return true

/-! ## littlefs callbacks -/

def lfsRead [MonadAssert m] (block offset : ℕ) (data : List UInt8) : m (LfsError × List UInt8) := do
  let res ← read P block offset data
  return (if !res.1 then .io else .ok, res.2)

def lfsProg [MonadAssert m] (block offset : ℕ) (data : List UInt8) : m LfsError := do
  let res ← write P block offset data
  return if !res then .io else .ok

def lfsErase (block : ℕ) : m LfsError := do
  let res ← erase P block
  return if !res then .io else .ok

/-! ## Initialisation -/

/-- Checks the chip's id, removes its block protection and, on QSPI, enables quad transfers. -/
def init : m Bool := do
  let _ ← P.configure .qspiData1
  let data ← P.read [gd5fReadId, 0x00] [0, 0] .none
  if data.2[0]? ≠ some 0xC8 ∧ data.2[1]? ≠ some 0x31 then
    return false
  let err ← writeEnable P
  if err then
    return false
  let _ ← P.write [gd5fSetFeature, 0xA0, 0x00] [] .byte2
  if P.type = .qspi then
    let _ ← P.write [gd5fSetFeature, 0xB0, 0x01] [] .byte2
    let _ ← P.configure .qspiData4
  return true

end Calls

/-! ## The page loops

Both loops consume their request page by page. `page_induction` is the induction they share, and
the step lemmas unfold one round of a loop for a page call whose result is known.
-/

/-- How much of a request of `size` bytes at `offset` the first page takes. -/
def chunk (offset size : ℕ) : ℕ := min size (gd5fPageSize - offset % gd5fPageSize)

theorem chunk_pos {size : ℕ} (offset : ℕ) (h : 0 < size) : 0 < chunk offset size := by
  simp only [chunk, gd5fPageSize]
  omega

theorem chunk_le (offset size : ℕ) : chunk offset size ≤ size := Nat.min_le_left _ _

/-- Induction on a request, one page at a time. -/
theorem page_induction {motive : ℕ → List UInt8 → Prop} (nil : ∀ offset, motive offset [])
    (page : ∀ offset buffer, 0 < buffer.length →
      motive (offset + chunk offset buffer.length) (buffer.drop (chunk offset buffer.length)) →
      motive offset buffer) (offset : ℕ) (buffer : List UInt8) : motive offset buffer := by
  induction hn : buffer.length using Nat.strongRecOn generalizing offset buffer with
  | ind n ih =>
    subst hn
    rcases Nat.eq_zero_or_pos buffer.length with h0 | hpos
    · rw [List.length_eq_zero_iff.mp h0]
      exact nil offset
    · have := chunk_pos offset hpos
      refine page offset buffer hpos (ih _ ?_ _ _ rfl)
      rw [List.length_drop]
      omega

section Loops

variable {σ : Type} (P : Protocol σ)

theorem read_nil (block offset : ℕ) (s : σ) :
    read P block offset [] s = some ((true, []), s) := by
  rw [read, dif_neg (by simp), pure_apply]

theorem write_nil (block offset : ℕ) (s : σ) : write P block offset [] s = some (true, s) := by
  rw [write, dif_neg (by simp), pure_apply]

variable {P} {block offset : ℕ} {buffer : List UInt8} {s s' : σ}

/-- A round of the read loop whose page call makes progress. -/
theorem read_step {n : ℕ} {data : List UInt8} (hsize : 0 < buffer.length) (hn : 0 < n)
    (hpage : readPage P block offset buffer s = some ((n, data), s')) :
    read P block offset buffer s = (read P block (offset + n) (buffer.drop n) s').bind
      fun p => some ((p.1.1, data ++ p.1.2), p.2) := by
  rw [read, dif_pos hsize, bind_apply, hpage, Option.bind_some,
    dif_neg (Nat.pos_iff_ne_zero.mp hn), bind_apply]
  rfl

/-- A round of the write loop whose page call makes progress. -/
theorem write_step {n : ℕ} (hsize : 0 < buffer.length) (hn : 0 < n)
    (hpage : writePage P block offset buffer s = some (n, s')) :
    write P block offset buffer s = write P block (offset + n) (buffer.drop n) s' := by
  rw [write, dif_pos hsize, bind_apply, hpage, Option.bind_some,
    dif_neg (Nat.pos_iff_ne_zero.mp hn)]

/-- A round of the write loop whose page call gives up. -/
theorem write_fail (hsize : 0 < buffer.length)
    (hpage : writePage P block offset buffer s = some (0, s')) :
    write P block offset buffer s = some (false, s') := by
  rw [write, dif_pos hsize, bind_apply, hpage, Option.bind_some, dif_pos rfl, pure_apply]

end Loops

end CommonDrivers.Gd5f
