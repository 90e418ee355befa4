import Mathlib.Data.Nat.Notation

/-! # Float arithmetic without laws

The operations that C code performs on floats, as an interface. Code is translated over it
literally, so what is proved without further assumptions holds whatever the rounding. `CFloat` is
the arithmetic with the conversions from literals and strings, and `CMath` adds the mathematical
library.
-/

/-- The arithmetic of a float type. -/
class CFloat (F : Type) extends Zero F, Add F, Sub F, Mul F, Div F, Neg F where
  /-- The float of a literal or of an integer. -/
  lit : Rat → F
  /-- `atof` on a C string. -/
  atof : List UInt8 → F

/-- Comparison, powers and logarithms. -/
class CMath (F : Type) extends CFloat F where
  gt : F → F → Bool
  pow : F → F → F
  log : F → F
  pi : F

/-! ## Decimal readers

`atoi` and the decimal part of `atof` on a string without a terminator: leading white space, a sign,
digits, and for `atof` a fraction. Reading stops at the first character that does not fit.
-/

namespace CString

def isSpace (c : UInt8) : Bool := c = 32 || (9 ≤ c && c ≤ 13)

def isDigit (c : UInt8) : Bool := 48 ≤ c && c ≤ 57

/-- The number that a string of digits denotes. -/
def digits (s : List UInt8) : ℕ := s.foldl (fun n c => 10 * n + (c.toNat - 48)) 0

/-- Whether a sign is negative, and what follows it. -/
def sign : List UInt8 → Bool × List UInt8
  | 45 :: s => (true, s)
  | 43 :: s => (false, s)
  | s => (false, s)

/-- The integer at the start of a string. -/
def atoi (s : List UInt8) : Int :=
  let r := sign (s.dropWhile isSpace)
  let n : Int := digits (r.2.takeWhile isDigit)
  if r.1 then -n else n

/-- The decimal number at the start of a string, exactly. -/
def decimal (s : List UInt8) : Rat :=
  let r := sign (s.dropWhile isSpace)
  let whole := r.2.takeWhile isDigit
  let fraction := match r.2.dropWhile isDigit with
    | 46 :: rest => rest.takeWhile isDigit
    | _ => []
  let value : Rat := digits whole + digits fraction / (10 : Rat) ^ fraction.length
  if r.1 then -value else value

end CString
