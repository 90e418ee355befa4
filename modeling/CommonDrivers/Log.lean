import Mathlib.Algebra.Group.Nat.Defs
import Mathlib.Data.List.GetD
import Mathlib.Order.Nat

/-! # The debug log

`LOG` of `src/log.cpp` in a debug build. It formats into a buffer on the stack and then sends as
many characters as `vsnprintf` has returned, which is the length of the whole text and not of the
part that fitted.
-/

namespace CommonDrivers.Log

/-- The buffer on the stack. A place that was never written has no value. -/
abbrev Buffer := Vector (Option UInt8) 256

/-- `vsnprintf` into an empty buffer: the length of the text, and the buffer with as much of it as
fits, and a NUL behind. A text that cannot be formatted is a negative length. -/
def vsnprintf : Option (List UInt8) → Int × Buffer
  | none => (-1, Vector.replicate 256 none)
  | some text => (text.length, Vector.ofFn fun i => (text.take 255 ++ [0])[i.val]?)

/-- `buf[i]`, if there is one and it was written. -/
def Buffer.at (buf : Buffer) (i : ℕ) : Option UInt8 := if h : i < 256 then buf[i] else none

/-- The loop over `ITM_SendChar`: the characters sent, if all of them were there. -/
def itmSend (buf : Buffer) (len : Int) : Option (List UInt8) :=
  (List.range len.toNat).mapM buf.at

/-- `CDC_Transmit_FS`, whose length is a `uint16_t`. -/
def cdcTransmit (buf : Buffer) (len : UInt16) : Option (List UInt8) :=
  (List.range len.toNat).mapM buf.at

/-- The loop over `CDC_Transmit_FS`, which is busy for a number of rounds. -/
def cdcLoop (buf : Buffer) (len : Int) : ℕ → Option (List UInt8)
  | 0 => cdcTransmit buf (UInt16.ofInt len)
  | busy + 1 => cdcLoop buf len busy

/-- Where the log goes: `USE_CDC_DEBUG` or not. -/
inductive Output
  | itm
  | cdc (busy : ℕ)

/-- The characters that `LOG` emits, if it reads none that `vsnprintf` did not write. -/
def log (output : Output) (formatted : Option (List UInt8)) : Option (List UInt8) :=
  let (len, buf) := vsnprintf formatted
  if len ≤ 0 then some []
  else match output with
    | .itm => itmSend buf len
    | .cdc busy => cdcLoop buf len busy

/-! ## What is read -/

theorem at_vsnprintf (text : List UInt8) (i : ℕ) :
    (vsnprintf (some text)).2.at i = (text.take 255 ++ [0])[i]? := by
  have hlen : (text.take 255 ++ [0]).length ≤ 256 := by
    rw [List.length_append, List.length_take, List.length_singleton]
    omega
  rw [Buffer.at, vsnprintf]
  split
  · exact Vector.getElem_ofFn _
  · rw [List.getElem?_eq_none (by omega)]

/-- Reading the first `n` places of a list yields its first `n` elements, if there are as many. -/
theorem mapM_getElem? {α : Type} (l : List α) (n : ℕ) :
    (List.range n).mapM (fun i => l[i]?) = if n ≤ l.length then some (l.take n) else none := by
  induction n with
  | zero => rw [if_pos (Nat.zero_le _)]; rfl
  | succ n ih =>
    rw [List.range_succ, List.mapM_append, ih]
    by_cases hlt : n < l.length
    · rw [if_pos hlt.le, if_pos (Nat.succ_le_of_lt hlt), List.take_add_one]
      simp [List.getElem?_eq_getElem hlt]
    · rw [if_neg (show ¬ n + 1 ≤ l.length from hlt)]
      split <;> simp [List.getElem?_eq_none (Nat.le_of_not_lt hlt)]

/-- What a read of the first `n` characters of the buffer yields. -/
theorem mapM_vsnprintf (text : List UInt8) (n : ℕ) :
    (List.range n).mapM (vsnprintf (some text)).2.at =
      if n ≤ min text.length 255 + 1 then some ((text.take 255 ++ [0]).take n) else none := by
  have hat : (vsnprintf (some text)).2.at = fun i => (text.take 255 ++ [0])[i]? :=
    funext (at_vsnprintf text)
  rw [hat, mapM_getElem?]
  refine if_congr ?_ rfl rfl
  rw [List.length_append, List.length_take, List.length_singleton, Nat.min_comm]

/-- Exactly the text that fitted is sent if and only if that many characters are read. -/
theorem mapM_eq_take_iff (text : List UInt8) (n : ℕ) :
    (List.range n).mapM (vsnprintf (some text)).2.at = some (text.take 255) ↔
      n = min text.length 255 := by
  rw [mapM_vsnprintf]
  constructor
  · intro h
    split at h
    · next hle =>
      have hlength := congrArg List.length (Option.some.inj h)
      simp only [List.length_take, List.length_append, List.length_singleton] at hlength
      omega
    · cases h
  · rintro rfl
    rw [if_pos (Nat.le_succ _), List.take_append_of_le_length, List.take_of_length_le]
    · rw [List.length_take, Nat.min_comm]
    · rw [List.length_take, Nat.min_comm]

theorem cdcLoop_eq (buf : Buffer) (len : Int) (busy : ℕ) :
    cdcLoop buf len busy = cdcTransmit buf (UInt16.ofInt len) := by
  induction busy with
  | zero => rfl
  | succ busy ih => exact ih

/-! ## What is emitted -/

/-- `LOG` reads only what `vsnprintf` wrote, and emits the text up to 255 characters. -/
def EmitsFitting (output : Output) (text : List UInt8) : Prop :=
  log output (some text) = some (text.take 255)

/-- An empty text ends `LOG` early. -/
theorem emitsFitting_nil (output : Output) : EmitsFitting output [] := rfl

theorem log_itm {text : List UInt8} (h : text ≠ []) :
    log .itm (some text) = (List.range text.length).mapM (vsnprintf (some text)).2.at := by
  have hpos : 0 < text.length := List.length_pos_iff.mpr h
  exact if_neg (show ¬ (text.length : Int) ≤ 0 by omega)

theorem log_cdc {text : List UInt8} (h : text ≠ []) (busy : ℕ) :
    log (.cdc busy) (some text) =
      (List.range (text.length % 2 ^ 16)).mapM (vsnprintf (some text)).2.at := by
  have hpos : 0 < text.length := List.length_pos_iff.mpr h
  have hlen : (UInt16.ofInt (text.length : Int)).toNat = text.length % 2 ^ 16 := by
    rw [UInt16.ofInt, UInt16.toNat_ofNat']
    omega
  refine (if_neg (show ¬ (text.length : Int) ≤ 0 by omega)).trans ?_
  change cdcLoop (vsnprintf (some text)).2 text.length busy = _
  rw [cdcLoop_eq, cdcTransmit, hlen]

theorem emitsFitting_itm_iff (text : List UInt8) :
    EmitsFitting .itm text ↔ text.length ≤ 255 := by
  by_cases h : text = []
  · subst h
    exact iff_of_true (emitsFitting_nil .itm) (Nat.zero_le _)
  · rw [EmitsFitting, log_itm h, mapM_eq_take_iff]
    omega

theorem emitsFitting_cdc_iff (busy : ℕ) (text : List UInt8) :
    EmitsFitting (.cdc busy) text ↔ text.length ≤ 255 ∨ text.length % 2 ^ 16 = 255 := by
  by_cases h : text = []
  · subst h
    exact iff_of_true (emitsFitting_nil (.cdc busy)) (Or.inl (Nat.zero_le _))
  · rw [EmitsFitting, log_cdc h, mapM_eq_take_iff]
    omega

/-- **`LOG` emits what fitted into its buffer if and only if all of the text did**, or, over CDC, if
a longer text has a length of which `uint16_t` keeps 255. -/
theorem emitsFitting_iff (text : List UInt8) :
    (EmitsFitting .itm text ↔ text.length ≤ 255) ∧
      ∀ busy, EmitsFitting (.cdc busy) text ↔
        text.length ≤ 255 ∨ text.length % 2 ^ 16 = 255 :=
  ⟨emitsFitting_itm_iff text, fun busy => emitsFitting_cdc_iff busy text⟩

/-- With a text of 300 characters the loop reads on behind the end of the buffer. -/
theorem not_emitsFitting_long :
    log .itm (some (List.replicate 300 65)) = none ∧
      ¬ EmitsFitting .itm (List.replicate 300 65) := by
  have hnone : log .itm (some (List.replicate 300 65)) = none := by
    have hne : List.replicate 300 (65 : UInt8) ≠ [] := List.replicate_succ_ne_nil
    rw [log_itm hne, mapM_vsnprintf, List.length_replicate, if_neg (by decide)]
  refine ⟨hnone, fun h => ?_⟩
  rw [EmitsFitting, hnone] at h
  cases h

end CommonDrivers.Log
