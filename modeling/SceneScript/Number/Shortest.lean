import SceneScript.Number.Decimal

/-!
# Shortest decimals

The decimal in which a number is written has the fewest digits that read back to the number, and
among those it is the nearest one.  For each count of digits the value has two neighbours on the
grid of the decimals with so many digits, and if any decimal of the grid reads back to the value,
one of its neighbours does.  Seventeen digits are always enough.
-/

namespace SceneScript

-- powers of naturals are the core's own, whatever else is imported
attribute [local instance (high)] instPowNat

/-- Which of two decimals is taken that are equally near. -/
inductive Tie where
  | upward
  | toEven
  deriving DecidableEq

namespace Binary64

/-- The power of ten of the first digit of a positive value. -/
def leadingExponent (place : Nat) : Int :=
  (Nat.toDigits 10 (units place * 10 ^ (400 : Nat) / unitsPerOne)).length - 401

/-- The decimal with `count` digits that stands for a positive value and is nearest to it. -/
def decimalOf? (tie : Tie) (place count : Nat) : Option Decimal :=
  let exponent : Int := leadingExponent place + 1 - count
  let numerator := units place * 10 ^ (-exponent).toNat
  let denominator := unitsPerOne * 10 ^ exponent.toNat
  let below := numerator / denominator
  let twice := 2 * (numerator % denominator)
  let readsBack (digits : Nat) : Bool := Decimal.nearestPlace ⟨digits, exponent⟩ == place
  let takesBelow :=
    twice < denominator || (twice == denominator && tie == .toEven && below % 2 == 0)
  -- a full grid cell up is a power of ten, which one digit writes
  let above : Decimal :=
    if below + 1 = 10 ^ count then ⟨1, exponent + count⟩ else ⟨below + 1, exponent⟩
  if readsBack below && (takesBelow || !readsBack (below + 1)) then some ⟨below, exponent⟩
  else if readsBack (below + 1) then some above
  else none

/-- The value with all its digits. -/
def exactDecimal (place : Nat) : Decimal :=
  ⟨units place * 5 ^ unitExponent, -unitExponent⟩

/-- The shortest decimal of a positive value. -/
def shortestDecimal (tie : Tie) (place : Nat) : Decimal :=
  ((List.range' 1 17).findSome? (decimalOf? tie place)).getD (exactDecimal place)

end Binary64

end SceneScript
