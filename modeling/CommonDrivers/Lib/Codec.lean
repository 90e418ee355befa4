import Mathlib.Algebra.Group.Nat.Defs
import Mathlib.Data.List.Basic
import Mathlib.Logic.Equiv.Defs

/-! # Fixed-size codecs

A `Codec` is a one-to-one correspondence between a type and the byte strings of one length; its laws
are fields. Codecs are put together from those of bytes and words by pairing and by renaming along
an equivalence, so that a record format needs no proof of its own. `decodeAll` reads a file of
records that may end in the middle of one.
-/

/-- A format of `size` bytes for `α`. -/
structure Codec (α : Type) where
  size : ℕ
  encode : α → List UInt8
  decode : List UInt8 → α
  length_encode : ∀ a, (encode a).length = size
  decode_encode : ∀ a, decode (encode a) = a
  encode_decode : ∀ bs, bs.length = size → encode (decode bs) = bs

namespace Codec

variable {α β : Type}

/-! ## Words -/

/-- A single byte. -/
def byte : Codec UInt8 where
  size := 1
  encode b := [b]
  decode bs := bs.headD 0
  length_encode _ := rfl
  decode_encode _ := rfl
  encode_decode bs h := by
    obtain ⟨b, rfl⟩ := List.length_eq_one_iff.mp h
    rfl

/-- The 16-bit word of two bytes, least significant byte first. -/
def word16 : List UInt8 → UInt16
  | [a, b] => UInt16.ofNat (a.toNat + 256 * b.toNat)
  | _ => 0

/-- The 32-bit word of four bytes, least significant byte first. -/
def word32 : List UInt8 → UInt32
  | [a, b, c, d] =>
    UInt32.ofNat (a.toNat + 256 * b.toNat + 65536 * c.toNat + 16777216 * d.toNat)
  | _ => 0

/-- A 16-bit word in little-endian order. -/
def le16 : Codec UInt16 where
  size := 2
  encode v := [v.toUInt8, (v >>> 8).toUInt8]
  decode := word16
  length_encode _ := rfl
  decode_encode v := by
    refine UInt16.toNat_inj.mp ?_
    have := v.toNat_lt
    simp [word16, Nat.shiftRight_eq_div_pow]
    omega
  encode_decode bs h := by
    obtain ⟨a, b, rfl⟩ := List.length_eq_two.mp h
    have := a.toNat_lt
    have := b.toNat_lt
    simp only [word16, List.cons.injEq, and_true]
    refine ⟨UInt8.toNat_inj.mp ?_, UInt8.toNat_inj.mp ?_⟩
    · simp
    · simp [Nat.shiftRight_eq_div_pow]
      omega

/-- A 32-bit word in little-endian order. -/
def le32 : Codec UInt32 where
  size := 4
  encode v := [v.toUInt8, (v >>> 8).toUInt8, (v >>> 16).toUInt8, (v >>> 24).toUInt8]
  decode := word32
  length_encode _ := rfl
  decode_encode v := by
    refine UInt32.toNat_inj.mp ?_
    have := v.toNat_lt
    simp [word32, Nat.shiftRight_eq_div_pow]
    omega
  encode_decode bs h := by
    obtain ⟨a, b, c, d, rfl⟩ : ∃ a b c d, bs = [a, b, c, d] := by
      match bs, h with
      | [a, b, c, d], _ => exact ⟨a, b, c, d, rfl⟩
    have := a.toNat_lt
    have := b.toNat_lt
    have := c.toNat_lt
    have := d.toNat_lt
    simp only [word32, List.cons.injEq, and_true]
    refine ⟨UInt8.toNat_inj.mp ?_, UInt8.toNat_inj.mp ?_, UInt8.toNat_inj.mp ?_,
      UInt8.toNat_inj.mp ?_⟩
    · simp
    all_goals
      simp [Nat.shiftRight_eq_div_pow]
      omega

/-! ## Combinators -/

/-- One format behind the other. -/
def pair (c : Codec α) (d : Codec β) : Codec (α × β) where
  size := c.size + d.size
  encode p := c.encode p.1 ++ d.encode p.2
  decode bs := (c.decode (bs.take c.size), d.decode (bs.drop c.size))
  length_encode p := by rw [List.length_append, c.length_encode, d.length_encode]
  decode_encode p := by
    rw [List.take_left' (c.length_encode p.1), List.drop_left' (c.length_encode p.1),
      c.decode_encode, d.decode_encode]
  encode_decode bs h := by
    have htake : (bs.take c.size).length = c.size := by
      rw [List.length_take, h, Nat.min_eq_left (Nat.le_add_right _ _)]
    have hdrop : (bs.drop c.size).length = d.size := by
      rw [List.length_drop, h, Nat.add_sub_cancel_left]
    rw [c.encode_decode _ htake, d.encode_decode _ hdrop, List.take_append_drop]

/-- The same format for an equivalent type. -/
def rename (c : Codec α) (e : β ≃ α) : Codec β where
  size := c.size
  encode b := c.encode (e b)
  decode bs := e.symm (c.decode bs)
  length_encode b := c.length_encode (e b)
  decode_encode b := by rw [c.decode_encode, e.symm_apply_apply]
  encode_decode bs h := by rw [e.apply_symm_apply, c.encode_decode bs h]

/-! ## Files of records -/

variable (c : Codec α)

/-- The records one behind the other. -/
def encodeAll (as : List α) : List UInt8 := as.flatMap c.encode

/-- The complete records of a file. -/
def decodeAll (bs : List UInt8) : List α :=
  (List.range (bs.length / c.size)).map fun i => c.decode ((bs.drop (i * c.size)).take c.size)

theorem encodeAll_append (as bs : List α) :
    c.encodeAll (as ++ bs) = c.encodeAll as ++ c.encodeAll bs := List.flatMap_append

theorem length_encodeAll (as : List α) : (c.encodeAll as).length = as.length * c.size := by
  induction as with
  | nil => exact (Nat.zero_mul _).symm
  | cons a as ih =>
    rw [encodeAll, List.flatMap_cons, List.length_append, c.length_encode, List.length_cons,
      Nat.add_one_mul, Nat.add_comm]
    exact congrArg (· + c.size) ih

variable {c}

theorem decodeAll_of_lt {bs : List UInt8} (h : bs.length < c.size) : c.decodeAll bs = [] := by
  rw [decodeAll, Nat.div_eq_of_lt h]
  rfl

/-- The first record, and the rest of the file. -/
theorem decodeAll_cons (hpos : 0 < c.size) (a : α) (bs : List UInt8) :
    c.decodeAll (c.encode a ++ bs) = a :: c.decodeAll bs := by
  have hlen := c.length_encode a
  have hdiv : (c.encode a ++ bs).length / c.size = bs.length / c.size + 1 := by
    rw [List.length_append, hlen, Nat.add_comm, Nat.add_div_right _ hpos]
  rw [decodeAll, hdiv, List.range_succ_eq_map, List.map_cons, List.map_map, Nat.zero_mul,
    List.drop_zero, List.take_left' hlen, c.decode_encode]
  refine congrArg (a :: ·) (List.map_congr_left fun i _ => ?_)
  have hsucc : (i + 1) * c.size = c.size + i * c.size := by rw [Nat.add_one_mul, Nat.add_comm]
  show c.decode (((c.encode a ++ bs).drop ((i + 1) * c.size)).take c.size) = _
  rw [hsucc, ← List.drop_drop, List.drop_left' hlen]

/-- Whatever stands behind complete records does not change how they are read. -/
theorem decodeAll_append (hpos : 0 < c.size) (as : List α) (bs : List UInt8) :
    c.decodeAll (c.encodeAll as ++ bs) = as ++ c.decodeAll bs := by
  induction as with
  | nil => rfl
  | cons a as ih =>
    rw [encodeAll, List.flatMap_cons, List.append_assoc, decodeAll_cons hpos]
    exact congrArg (a :: ·) ih

theorem decodeAll_encodeAll (c : Codec α) (hpos : 0 < c.size) (as : List α) :
    c.decodeAll (c.encodeAll as) = as := by
  have hnil : c.decodeAll [] = [] := decodeAll_of_lt hpos
  have h := decodeAll_append hpos as []
  rw [List.append_nil, hnil, List.append_nil] at h
  exact h

/-- **A file that breaks off anywhere gives back the records that are complete in it.** -/
theorem decodeAll_take (hpos : 0 < c.size) (as : List α) (n : ℕ) :
    c.decodeAll ((c.encodeAll as).take n) = as.take (n / c.size) := by
  induction as generalizing n with
  | nil =>
    rw [encodeAll, List.flatMap_nil, List.take_nil, List.take_nil]
    exact decodeAll_of_lt hpos
  | cons a as ih =>
    have hlen := c.length_encode a
    rw [encodeAll, List.flatMap_cons, List.take_append, hlen]
    rcases Nat.lt_or_ge n c.size with hlt | hge
    · -- not even the first record is complete
      rw [Nat.sub_eq_zero_of_le (Nat.le_of_lt hlt), List.take_zero, List.append_nil,
        Nat.div_eq_of_lt hlt, List.take_zero]
      refine decodeAll_of_lt ?_
      rw [List.length_take, hlen]
      omega
    · have hdiv : n / c.size = (n - c.size) / c.size + 1 := by
        rw [← Nat.add_div_right _ hpos, Nat.sub_add_cancel hge]
      rw [List.take_of_length_le (by rw [hlen]; exact hge), decodeAll_cons hpos, hdiv,
        List.take_succ_cons]
      exact congrArg (a :: ·) (ih (n - c.size))

end Codec
