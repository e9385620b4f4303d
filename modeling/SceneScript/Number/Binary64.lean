/-!
# Double-precision numbers

The numbers of a scene are the values of IEEE 754's `binary64` format.  A finite value is a sign
and a *magnitude*, the place of its absolute value among the non-negative finite values in
increasing order.  So every value has one representation, the order of the values is the order of
the places, and the value after the largest finite one would be the place `magnitudes`.

A finite value is a whole number of *units* of 2^-1074, the distance between the smallest values.
Rounding to the nearest value is done in units, exactly.
-/

namespace SceneScript

-- powers of naturals are the core's own, whatever else is imported; for a power of two numerals
-- that needs the type of the exponent
attribute [local instance (high)] instPowNat

/-- How many non-negative finite values there are: 2047 exponents of 2^52 fractions each. -/
def Binary64.magnitudes : Nat := 2047 * 2 ^ (52 : Nat)

/-- A double-precision number.  The two zeros differ by their sign. -/
inductive Binary64 where
  | finite (negative : Bool) (magnitude : Fin Binary64.magnitudes)
  | infinite (negative : Bool)
  /-- What is no number.  It has a sign all the same. -/
  | nan (negative : Bool)
  deriving DecidableEq

namespace Binary64

/-- The smallest values lie two to the minus this apart. -/
def unitExponent : Nat := 1074

/-- How many units make one. -/
def unitsPerOne : Nat := 2 ^ unitExponent

/-- The value at a place, in units.  The places of one exponent are equally spaced, and the
spacing doubles from each exponent to the next; the first two exponents share a spacing. -/
def units (place : Nat) : Nat :=
  let exponent := place / 2 ^ (52 : Nat)
  let fraction := place % 2 ^ (52 : Nat)
  if exponent = 0 then fraction else (2 ^ (52 : Nat) + fraction) * 2 ^ (exponent - 1)

/-- A quotient rounded to the nearest whole number, a tie to the even one. -/
def roundHalfEven (numerator denominator : Nat) : Nat :=
  let quotient := numerator / denominator
  let twice := 2 * (numerator % denominator)
  if twice < denominator then quotient
  else if twice = denominator then quotient + quotient % 2
  else quotient + 1

/-- The place whose value is nearest to `numerator / denominator`.  The bound on places is not
applied: a quotient that is too large gets a place past the last one. -/
def nearestPlace (numerator denominator : Nat) : Nat :=
  let scaled := numerator * unitsPerOne
  -- the spacing is 2 ^ s units
  let s := (scaled / denominator).log2 - 52
  s * 2 ^ (52 : Nat) + roundHalfEven scaled (denominator * 2 ^ s)

/-- The number nearest to a quotient: infinite from half a spacing past the largest on. -/
def ofRatio (negative : Bool) (numerator denominator : Nat) : Binary64 :=
  let place := nearestPlace numerator denominator
  if h : place < magnitudes then .finite negative ⟨place, h⟩ else .infinite negative

/-- The zero without a sign. -/
def zero : Binary64 := .finite false ⟨0, by decide⟩

/-- The sign is set. -/
def isNegative : Binary64 → Bool
  | .finite negative _ => negative
  | .infinite negative => negative
  | .nan negative => negative

/-- One of the two zeros. -/
def isZero : Binary64 → Bool
  | .finite _ magnitude => magnitude.val == 0
  | _ => false

/-- The number is neither infinite nor what is no number. -/
def isFinite : Binary64 → Bool
  | .finite .. => true
  | _ => false

/-- The number with the other sign. -/
def negate : Binary64 → Binary64
  | .finite negative magnitude => .finite (!negative) magnitude
  | .infinite negative => .infinite (!negative)
  | .nan negative => .nan (!negative)

/-! ## Small facts -/

@[simp] theorem negate_negate (x : Binary64) : x.negate.negate = x := by
  cases x <;> simp [negate]

@[simp] theorem isFinite_negate (x : Binary64) : x.negate.isFinite = x.isFinite := by
  cases x <;> rfl

theorem unitsPerOne_pos : 0 < unitsPerOne := Nat.two_pow_pos unitExponent

/-- A whole quotient needs no rounding. -/
theorem roundHalfEven_mul (n : Nat) {d : Nat} (h : 0 < d) : roundHalfEven (n * d) d = n := by
  simp [roundHalfEven, Nat.mul_div_cancel _ h, h]

/-- Every finite value is its own nearest value. -/
theorem nearestPlace_units (place : Nat) : nearestPlace (units place) unitsPerOne = place := by
  have hone := unitsPerOne_pos
  have hsplit := Nat.div_add_mod place (2 ^ 52)
  have hfrac := Nat.mod_lt place (Nat.two_pow_pos 52)
  have hscaled : units place * unitsPerOne / unitsPerOne = units place :=
    Nat.mul_div_cancel _ hone
  simp only [nearestPlace, hscaled]
  -- the numbers below the smallest exponent have no leading one
  rcases Nat.eq_zero_or_pos (place / 2 ^ 52) with he | he
  · have hunits : units place = place := by simp only [units, he, if_true]; omega
    have hsmall : place.log2 - 52 = 0 := by
      rcases Nat.eq_zero_or_pos place with rfl | hp
      · decide
      · have : place.log2 < 52 := (Nat.log2_lt (by omega)).2 (by omega)
        omega
    rw [hunits, hsmall]
    simpa using roundHalfEven_mul place hone
  · have hunits : units place = (2 ^ 52 + place % 2 ^ 52) * 2 ^ (place / 2 ^ 52 - 1) := by
      simp only [units, Nat.ne_of_gt he, if_false]
    have hlog : (units place).log2 = 52 + (place / 2 ^ 52 - 1) := by
      rw [hunits, Nat.log2_eq_iff (Nat.mul_ne_zero (by omega) (Nat.ne_of_gt (Nat.two_pow_pos _)))]
      refine ⟨?_, ?_⟩
      · rw [Nat.pow_add]; exact Nat.mul_le_mul_right _ (by omega)
      · rw [show 52 + (place / 2 ^ 52 - 1) + 1 = 53 + (place / 2 ^ 52 - 1) by omega, Nat.pow_add]
        exact Nat.mul_lt_mul_of_pos_right (by omega) (Nat.two_pow_pos _)
    have hs : (units place).log2 - 52 = place / 2 ^ 52 - 1 := by omega
    rw [hs]
    have hround : roundHalfEven (units place * unitsPerOne)
        (unitsPerOne * 2 ^ (place / 2 ^ 52 - 1)) = 2 ^ 52 + place % 2 ^ 52 := by
      rw [hunits, show (2 ^ 52 + place % 2 ^ 52) * 2 ^ (place / 2 ^ 52 - 1) * unitsPerOne
          = (2 ^ 52 + place % 2 ^ 52) * (unitsPerOne * 2 ^ (place / 2 ^ 52 - 1)) by
        rw [Nat.mul_assoc, Nat.mul_comm unitsPerOne]]
      exact roundHalfEven_mul _ (Nat.mul_pos hone (Nat.two_pow_pos _))
    rw [hround]
    omega

end Binary64

end SceneScript
