import SceneScript.Number.Binary64

/-!
# Decimals

A decimal is a whole number of digits times a power of ten.  It is an exact quotient, and the
number it stands for is the nearest one to that quotient.

`Binary64.ofNumeral?` reads the numerals in which numbers are handed over outside of scenes: a
sign, digits with a point, an exponent, or one of the words for what is not finite.
-/

namespace SceneScript

-- powers of naturals are the core's own, whatever else is imported
attribute [local instance (high)] instPowNat

/-- The value `digits · 10 ^ exponent`. -/
structure Decimal where
  digits : Nat
  exponent : Int
  deriving DecidableEq

namespace Decimal

/-- What stands above the line when the decimal is written as a quotient. -/
def numerator (d : Decimal) : Nat := d.digits * 10 ^ d.exponent.toNat

/-- What stands below the line: a power of ten. -/
def denominator (d : Decimal) : Nat := 10 ^ (-d.exponent).toNat

/-- The place of the nearest non-negative number. -/
def nearestPlace (d : Decimal) : Nat := Binary64.nearestPlace d.numerator d.denominator

/-- The nearest number, with the sign given. -/
def toBinary64 (negative : Bool) (d : Decimal) : Binary64 :=
  Binary64.ofRatio negative d.numerator d.denominator

/-- Digits before and after a point. -/
def ofDigits (whole fraction : List Char) : Decimal :=
  ⟨Nat.ofDigitChars 10 (whole ++ fraction) 0, -fraction.length⟩

/-! ## Small facts -/

theorem denominator_pos (d : Decimal) : 0 < d.denominator := Nat.pow_pos (by decide)

end Decimal

/-! ## Numerals -/

namespace Binary64

/-- The exponents at which a numeral with so many digits is past the largest number, or below the
smallest, whatever its digits are.  An exponent beyond them may be replaced by them. -/
def boundExponent (whole fraction : List Char) (exponent : Int) : Int :=
  let low : Int := -(whole.length + 400 : Nat)
  let high : Int := (fraction.length + 400 : Nat)
  max low (min exponent high)

/-- A whole number with a sign that may be left out. -/
def signedDigits? (text : List Char) : Option Int :=
  let digits? (ds : List Char) : Option Nat :=
    if ds ≠ [] ∧ ds.all Char.isDigit then some (Nat.ofDigitChars 10 ds 0) else none
  match text with
  | '-' :: ds => (digits? ds).map fun n => -Int.ofNat n
  | '+' :: ds => (digits? ds).map Int.ofNat
  | ds => (digits? ds).map Int.ofNat

/-- Digits with a point at any place, and perhaps an exponent. -/
def ofUnsignedNumeral? (negative : Bool) (text : List Char) : Option Binary64 :=
  let whole := text.takeWhile Char.isDigit
  let rest := text.dropWhile Char.isDigit
  let (fraction, rest) := match rest with
    | '.' :: more => (more.takeWhile Char.isDigit, more.dropWhile Char.isDigit)
    | _ => ([], rest)
  let exponent? : Option Int := match rest with
    | [] => some 0
    | c :: more => if c = 'e' ∨ c = 'E' then signedDigits? more else none
  if whole = [] ∧ fraction = [] then none
  else exponent?.map fun exponent =>
    let d := Decimal.ofDigits whole fraction
    Decimal.toBinary64 negative ⟨d.digits, d.exponent + boundExponent whole fraction exponent⟩

/-- The number that a numeral stands for. -/
def ofNumeral? (numeral : String) : Option Binary64 :=
  let (negative, rest) := match numeral.toList with
    | '-' :: rest => (true, rest)
    | '+' :: rest => (false, rest)
    | rest => (false, rest)
  let word := String.ofList (rest.map Char.toLower)
  if word = "inf" ∨ word = "infinity" then some (.infinite negative)
  else if word = "nan" then some (.nan negative)
  else ofUnsignedNumeral? negative rest

end Binary64

end SceneScript
