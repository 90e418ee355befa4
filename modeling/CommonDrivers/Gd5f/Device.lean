import Mathlib.Data.Nat.Bitwise
import CommonDrivers.Gd5f.Driver
import CommonDrivers.Lib.Overlay

/-! # The NAND device behind the bus

`Nand` is the flash chip as its command set presents it: an array of pages that is only ever
reached through one page cache, and a write-enable latch. `nandBus` is a bus of either type to
which this chip is attached and on which every transfer succeeds.
-/

namespace CommonDrivers.Gd5f

open Overlay

/-- The chip: pages by row and column, the page cache and the write-enable latch. -/
structure Nand where
  pages : ℕ → ℕ → UInt8
  cache : ℕ → UInt8
  writeEnabled : Bool

/-- The row that three address bytes name. -/
def rowOf (a b c : UInt8) : ℕ := a.toNat * 65536 + b.toNat * 256 + c.toNat

/-- The column that two address bytes name. -/
def colOf (a b : UInt8) : ℕ := a.toNat * 256 + b.toNat

namespace Nand

/-- PROGRAM_LOAD: resets the cache to `0xFF` and stores `data` from column `col` on. -/
def load (col : ℕ) (data : List UInt8) (d : Nand) : Nand :=
  { d with cache := fun c => overlay (fun _ b => b) col data c 0xFF }

/-- PROGRAM_EXECUTE: programming only clears bits, so the cache is ANDed into the page. -/
def execute (row : ℕ) (d : Nand) : Nand :=
  if d.writeEnabled then
    { d with
      pages := Function.update d.pages row fun c => d.pages row c &&& d.cache c
      writeEnabled := false }
  else d

/-- READ_TO_CACHE. -/
def fetch (row : ℕ) (d : Nand) : Nand :=
  { d with cache := d.pages row }

/-- ERASE: acts on the 64 pages of the block that the row lies in. -/
def eraseBlock (row : ℕ) (d : Nand) : Nand :=
  if d.writeEnabled then
    { d with
      pages := fun r => if r / gd5fPagesPerBlock = row / gd5fPagesPerBlock then fun _ => 0xFF
        else d.pages r
      writeEnabled := false }
  else d

/-- A command without a read phase. Commands the chip does not know are ignored. -/
def command (cmd buffer : List UInt8) (d : Nand) : Nand :=
  match cmd with
  | [op] => if op = gd5fWriteEnable then { d with writeEnabled := true } else d
  | [op, c1, c0] =>
    if op = gd5fProgramLoad ∨ op = gd5fProgramLoadQuad then d.load (colOf c1 c0) buffer else d
  | [op, r2, r1, r0] =>
    if op = gd5fProgramExecute then d.execute (rowOf r2 r1 r0)
    else if op = gd5fReadToCache then d.fetch (rowOf r2 r1 r0)
    else if op = gd5fErase then d.eraseBlock (rowOf r2 r1 r0)
    else d
  | _ => d

/-- The bytes a command with a read phase puts on the bus: the cache from a column on, after one
dummy byte for the single-line command and two for the quad command. -/
def reply (cmd buffer : List UInt8) (d : Nand) : List UInt8 :=
  match cmd with
  | [op, c1, c0, _] =>
    if op = gd5fReadFromCache then
      (List.range buffer.length).map fun k => d.cache (colOf c1 c0 + k)
    else buffer
  | [op, c1, c0, _, _] =>
    if op = gd5fReadFromCacheQuadIo then
      (List.range buffer.length).map fun k => d.cache (colOf c1 c0 + k)
    else buffer
  | _ => buffer

end Nand

/-- A bus of type `t` with the chip on it, on which every transfer succeeds. -/
def nandBus (t : ProtocolType) : Protocol Nand where
  type := t
  read cmd buffer _ := Exec.total fun d => ((false, d.reply cmd buffer), d)
  write cmd buffer _ := Exec.total fun d => (false, d.command cmd buffer)
  configure _ := pure false
  readDMA _ := pure true

section Bus

variable (t : ProtocolType) (cmd buffer : List UInt8) (size : AddressSize) (d : Nand)

@[simp] theorem nandBus_read :
    (nandBus t).read cmd buffer size d = some ((false, d.reply cmd buffer), d) := rfl

@[simp] theorem nandBus_write :
    (nandBus t).write cmd buffer size d = some (false, d.command cmd buffer) := rfl

@[simp] theorem nandBus_configure (c : Config) :
    (nandBus t).configure c d = some (false, d) := rfl

end Bus

/-! ## Addresses on the wire -/

private theorem and_shiftRight_byte (n k : ℕ) :
    (n &&& (255 <<< k)) >>> k = n / 2 ^ k % 256 := by
  rw [Nat.shiftRight_and_distrib, Nat.shiftLeft_shiftRight, Nat.shiftRight_eq_div_pow,
    show (255 : ℕ) = 2 ^ 8 - 1 from rfl, Nat.and_two_pow_sub_one_eq_mod]

private theorem toNat_ofNat_mod (n : ℕ) : (UInt8.ofNat (n % 256)).toNat = n % 256 := by
  rw [UInt8.toNat_ofNat']
  exact Nat.mod_mod n 256

theorem rowBytes_eq (addr : ℕ) :
    rowBytes addr =
      [UInt8.ofNat (addr / 65536 % 256), UInt8.ofNat (addr / 256 % 256),
        UInt8.ofNat (addr % 256)] := by
  have h2 : (addr &&& 0xFF0000) >>> 16 = addr / 65536 % 256 := and_shiftRight_byte addr 16
  have h1 : (addr &&& 0x00FF00) >>> 8 = addr / 256 % 256 := and_shiftRight_byte addr 8
  have h0 : addr &&& 0x0000FF = addr % 256 := Nat.and_two_pow_sub_one_eq_mod addr 8
  simp only [rowBytes, h2, h1, h0]

/-- A 24-bit row survives the split into bytes. -/
theorem rowOf_rowBytes {addr : ℕ} (h : addr < 2 ^ 24) :
    rowOf (UInt8.ofNat (addr / 65536 % 256)) (UInt8.ofNat (addr / 256 % 256))
      (UInt8.ofNat (addr % 256)) = addr := by
  simp only [rowOf, toNat_ofNat_mod]
  omega

theorem colBytes_eq {col : ℕ} (h : col < 2048) :
    colBytes col = [UInt8.ofNat (col / 256 % 256), UInt8.ofNat (col % 256)] := by
  have h1 : (col &&& 0x0F00) >>> 8 = col / 256 % 256 := by
    rw [Nat.shiftRight_and_distrib, Nat.shiftRight_eq_div_pow,
      show (0x0F00 >>> 8 : ℕ) = 2 ^ 4 - 1 from rfl, Nat.and_two_pow_sub_one_eq_mod]
    omega
  have h0 : col &&& 0x00FF = col % 256 := Nat.and_two_pow_sub_one_eq_mod col 8
  simp only [colBytes, h1, h0]

/-- A column inside the page survives the split into bytes. -/
theorem colOf_colBytes {col : ℕ} (h : col < 2048) :
    colOf (UInt8.ofNat (col / 256 % 256)) (UInt8.ofNat (col % 256)) = col := by
  simp only [colOf, toNat_ofNat_mod]
  omega

/-! ## What the driver's commands do -/

namespace Nand

variable (d : Nand)

theorem command_writeEnable :
    d.command [gd5fWriteEnable] [] = { d with writeEnabled := true } := rfl

theorem command_fetch {addr : ℕ} (h : addr < 2 ^ 24) :
    d.command (gd5fReadToCache :: rowBytes addr) [] = d.fetch addr := by
  rw [rowBytes_eq]
  simp only [command]
  rw [if_neg (by decide), if_pos trivial, rowOf_rowBytes h]

theorem command_execute {addr : ℕ} (h : addr < 2 ^ 24) :
    d.command (gd5fProgramExecute :: rowBytes addr) [] = d.execute addr := by
  rw [rowBytes_eq]
  simp only [command]
  rw [if_pos trivial, rowOf_rowBytes h]

theorem command_erase {addr : ℕ} (h : addr < 2 ^ 24) :
    d.command (gd5fErase :: rowBytes addr) [] = d.eraseBlock addr := by
  rw [rowBytes_eq]
  simp only [command]
  rw [if_neg (by decide), if_neg (by decide), if_pos trivial, rowOf_rowBytes h]

/-- Both program load commands fill the cache. -/
theorem command_load {op : UInt8} (hop : op = gd5fProgramLoad ∨ op = gd5fProgramLoadQuad) {col : ℕ}
    (h : col < 2048) (data : List UInt8) :
    d.command (op :: colBytes col) data = d.load col data := by
  rw [colBytes_eq h]
  simp only [command]
  rw [if_pos hop, colOf_colBytes h]

/-- Each cache read command, with its own number of dummy bytes, returns the cache. -/
theorem reply_readFromCache {quad : Prop} [Decidable quad] {col : ℕ} (h : col < 2048)
    (buffer : List UInt8) :
    d.reply (((if quad then gd5fReadFromCacheQuadIo else gd5fReadFromCache) ::
        (colBytes col ++ [0x00, 0x00])).take (if quad then 5 else 4)) buffer =
      (List.range buffer.length).map fun k => d.cache (col + k) := by
  rw [colBytes_eq h]
  by_cases hq : quad
  · simp only [if_pos hq, List.cons_append, List.nil_append, List.take_succ_cons, List.take_zero,
      reply, colOf_colBytes h]
    rw [if_pos trivial]
  · simp only [if_neg hq, List.cons_append, List.nil_append, List.take_succ_cons, List.take_zero,
      reply, colOf_colBytes h]
    rw [if_pos trivial]

end Nand

end CommonDrivers.Gd5f
