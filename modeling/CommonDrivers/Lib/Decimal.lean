import Mathlib.Data.List.TakeWhile
import CommonDrivers.Lib.CFloat

/-! # Decimal numerals

Numerals as digits, the text that encodes them, and what the decimal readers make of such a text:
`atoi_digitText` for integers and `decimal_text` for signed decimal fractions.
-/

namespace Decimal

/-- The characters of a string of digits. -/
def digitText (ds : List (Fin 10)) : List UInt8 := ds.map fun d => UInt8.ofNat (48 + d.val)

/-- The number that a string of digits denotes, the most significant digit first. -/
def digitValue (ds : List (Fin 10)) : ℕ := ds.foldl (fun n d => 10 * n + d.val) 0

theorem toNat_digit (d : Fin 10) : (UInt8.ofNat (48 + d.val)).toNat = 48 + d.val :=
  UInt8.toNat_ofNat_of_lt' (show 48 + d.val < 2 ^ 8 by omega)

theorem digits_digitText (ds : List (Fin 10)) : CString.digits (digitText ds) = digitValue ds := by
  rw [CString.digits, digitText, List.foldl_map, digitValue]
  congr
  funext n d
  rw [toNat_digit, Nat.add_sub_cancel_left]

theorem isDigit_digit (d : Fin 10) : CString.isDigit (UInt8.ofNat (48 + d.val)) = true := by
  revert d
  decide

theorem isDigit_of_mem {ds : List (Fin 10)} {c : UInt8} (h : c ∈ digitText ds) :
    CString.isDigit c = true := by
  obtain ⟨d, -, rfl⟩ := List.mem_map.mp h
  exact isDigit_digit d

/-! ## Reading digits -/

/-- Nothing more to read: the text ends or goes on with another character. -/
def NoDigit (rest : List UInt8) : Prop := ∀ c ∈ rest.head?, CString.isDigit c = false

theorem takeWhile_digitText (ds : List (Fin 10)) {rest : List UInt8} (h : NoDigit rest) :
    (digitText ds ++ rest).takeWhile CString.isDigit = digitText ds := by
  rw [List.takeWhile_append_of_pos fun c => isDigit_of_mem]
  cases rest with
  | nil => simp
  | cons c rest => rw [List.takeWhile_cons_of_neg (by simp [h c rfl]), List.append_nil]

theorem dropWhile_digitText (ds : List (Fin 10)) {rest : List UInt8} (h : NoDigit rest) :
    (digitText ds ++ rest).dropWhile CString.isDigit = rest := by
  rw [List.dropWhile_append_of_pos fun c => isDigit_of_mem]
  cases rest with
  | nil => rfl
  | cons c rest => rw [List.dropWhile_cons_of_neg (by simp [h c rfl])]

/-! ## Numbers -/

/-- A sign in front of a number. -/
inductive Sign
  | none
  | plus
  | minus
deriving DecidableEq, Repr

/-- A decimal number: its sign, its digits, and the digits behind the point if it has one. -/
structure Number where
  sign : Sign
  whole : List (Fin 10)
  fraction : Option (List (Fin 10))
deriving DecidableEq, Repr

def Sign.negative : Sign → Bool
  | .minus => true
  | _ => false

def Sign.text : Sign → List UInt8
  | .none => []
  | .plus => [43]
  | .minus => [45]

/-- The point and the digits behind it. -/
def fractionText : Option (List (Fin 10)) → List UInt8
  | none => []
  | some ds => 46 :: digitText ds

def fractionValue : Option (List (Fin 10)) → Rat
  | none => 0
  | some ds => digitValue ds / (10 : Rat) ^ ds.length

def Number.text (n : Number) : List UInt8 :=
  n.sign.text ++ (digitText n.whole ++ fractionText n.fraction)

def Number.value (n : Number) : Rat :=
  let value := digitValue n.whole + fractionValue n.fraction
  if n.sign.negative then -value else value

theorem noDigit_fractionText (fraction : Option (List (Fin 10))) :
    NoDigit (fractionText fraction) := by
  cases fraction with
  | none => exact fun c h => absurd h (by simp [fractionText])
  | some ds =>
    intro c h
    obtain rfl : 46 = c := Option.some.inj h
    decide

/-- A digit or a point is neither white space nor a sign. -/
def Plain (s : List UInt8) : Prop := ∀ c ∈ s.head?, CString.isSpace c = false ∧ c ≠ 45 ∧ c ≠ 43

theorem digit_plain (d : Fin 10) : CString.isSpace (UInt8.ofNat (48 + d.val)) = false ∧
    UInt8.ofNat (48 + d.val) ≠ 45 ∧ UInt8.ofNat (48 + d.val) ≠ 43 := by
  revert d
  decide

theorem plain_digit_or_point (ds : List (Fin 10)) (fraction : Option (List (Fin 10))) :
    Plain (digitText ds ++ fractionText fraction) := by
  cases ds with
  | cons d ds =>
    intro c h
    obtain rfl : UInt8.ofNat (48 + d.val) = c := Option.some.inj h
    exact digit_plain d
  | nil =>
    cases fraction with
    | none => exact fun c h => absurd h (by simp [digitText, fractionText])
    | some ds =>
      intro c h
      obtain rfl : 46 = c := Option.some.inj h
      decide

theorem dropWhile_isSpace {s : List UInt8} (h : Plain s) : s.dropWhile CString.isSpace = s := by
  cases s with
  | nil => rfl
  | cons c s => exact List.dropWhile_cons_of_neg (by simp [(h c rfl).1])

theorem sign_plain {s : List UInt8} (h : Plain s) : CString.sign s = (false, s) := by
  unfold CString.sign
  split
  · exact absurd rfl (h 45 rfl).2.1
  · exact absurd rfl (h 43 rfl).2.2
  · rfl

/-- What the readers see behind the white space and the sign. -/
theorem sign_text (n : Number) :
    CString.sign (n.text.dropWhile CString.isSpace) =
      (n.sign.negative, digitText n.whole ++ fractionText n.fraction) := by
  have hplain := plain_digit_or_point n.whole n.fraction
  obtain ⟨sign, whole, fraction⟩ := n
  cases sign with
  | none =>
    change CString.sign ((digitText whole ++ fractionText fraction).dropWhile _) = _
    rw [dropWhile_isSpace hplain, sign_plain hplain]
    rfl
  | plus => rfl
  | minus => rfl

/-- `atof` reads a decimal number exactly. -/
theorem decimal_text (n : Number) : CString.decimal n.text = n.value := by
  have hno := noDigit_fractionText n.fraction
  simp only [CString.decimal, sign_text, takeWhile_digitText n.whole hno,
    dropWhile_digitText n.whole hno, digits_digitText]
  obtain ⟨sign, whole, fraction⟩ := n
  cases fraction with
  | none =>
    have hzero : ((CString.digits [] : ℕ) : Rat) / 10 ^ ([] : List UInt8).length = 0 := by
      rw [CString.digits, List.foldl_nil, Rat.div_def]
      exact Rat.zero_mul _
    simp only [fractionText, hzero]
    rfl
  | some ds =>
    have hall : (digitText ds).takeWhile CString.isDigit = digitText ds := by
      have := takeWhile_digitText ds (noDigit_fractionText none)
      rwa [fractionText, List.append_nil] at this
    have hlength : (digitText ds).length = ds.length := List.length_map _
    simp only [fractionText, hall, digits_digitText, hlength]
    rfl

/-- `atoi` reads a string of digits. -/
theorem atoi_digitText (ds : List (Fin 10)) : CString.atoi (digitText ds) = digitValue ds := by
  have hsign := sign_text ⟨.none, ds, none⟩
  have htext : (⟨.none, ds, none⟩ : Number).text = digitText ds := List.append_nil _
  have hdigits := takeWhile_digitText ds (noDigit_fractionText none)
  rw [htext] at hsign
  rw [CString.atoi, hsign]
  simp only [hdigits, digits_digitText]
  rfl

end Decimal
