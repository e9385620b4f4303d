import SceneScript.Number.Shortest

/-!
# Layouts of numbers

A layout says how the digits of a number are set out: where plain notation ends, whether a whole
number keeps a point and a zero, how an exponent is written, and what stands for the values that
are not finite.  There are three: that of scene source, that of dumps, and that of JSON.
-/

namespace SceneScript

/-- How numbers are written. -/
structure Layout where
  /-- The powers of ten of the first digit for which plain notation is used. -/
  isPlain : Int → Bool
  /-- What follows a whole number in plain notation. -/
  wholeSuffix : String
  /-- The sign of an exponent that is not negative. -/
  plus : String
  /-- Which of two equally near shortest decimals is written. -/
  tie : Tie
  /-- The text of an infinite value with the sign given. -/
  infinite : Bool → String
  /-- The text of what is no number, whatever its sign. -/
  nan : String

namespace Layout

/-- Digits with the point at its place, however far from them that is. -/
def plain (layout : Layout) (digits : List Char) (exponent : Int) : String :=
  let places := (-exponent).toNat
  if 0 ≤ exponent then
    String.ofList (digits ++ List.replicate exponent.toNat '0') ++ layout.wholeSuffix
  else if places < digits.length then
    String.ofList (digits.take (digits.length - places)) ++ "."
      ++ String.ofList (digits.drop (digits.length - places))
  else
    "0." ++ String.ofList (List.replicate (places - digits.length) '0' ++ digits)

/-- One digit, the others after the point, and the power of ten of the first. -/
def scientific (layout : Layout) (digits : List Char) (leading : Int) : String :=
  let fraction := digits.drop 1
  String.ofList (digits.take 1)
    ++ (if fraction = [] then "" else "." ++ String.ofList fraction)
    ++ "e" ++ (if leading < 0 then "-" else layout.plus) ++ toString leading.natAbs

/-- A decimal other than zero. -/
def decimal (layout : Layout) (d : Decimal) : String :=
  let digits := Nat.toDigits 10 d.digits
  let leading : Int := d.exponent + digits.length - 1
  if layout.isPlain leading then layout.plain digits d.exponent
  else layout.scientific digits leading

/-- The value at a place, without a sign. -/
def magnitude (layout : Layout) (place : Nat) : String :=
  if place = 0 then "0" ++ layout.wholeSuffix
  else layout.decimal (Binary64.shortestDecimal layout.tie place)

/-- A number in the layout. -/
def number (layout : Layout) : Binary64 → String
  | .finite negative place => (if negative then "-" else "") ++ layout.magnitude place.val
  | .infinite negative => layout.infinite negative
  | .nan _ => layout.nan

/-! ## The three layouts -/

/-- Scene source has no exponents, so all numbers are plain there. -/
def source : Layout where
  isPlain _ := true
  wholeSuffix := ""
  plus := ""
  tie := .upward
  infinite negative := if negative then "-inf" else "inf"
  nan := "NaN"

/-- Dumps show a whole number with a point, and use exponents below 10^-4 and from 10^16 on. -/
def dump : Layout where
  isPlain leading := -4 ≤ leading && leading < 16
  wholeSuffix := ".0"
  plus := ""
  tie := .upward
  infinite negative := if negative then "-inf" else "inf"
  nan := "NaN"

/-- JSON has no text for what is not finite.  Plain notation reaches one place further down than
in dumps, and exponents always have a sign. -/
def json : Layout where
  isPlain leading := -5 ≤ leading && leading < 16
  wholeSuffix := ".0"
  plus := "+"
  tie := .toEven
  infinite _ := "null"
  nan := "null"

end Layout

end SceneScript
