import SceneScript.Cursor.Literal

/-!
# Numbers are read back from their text

The decimal that is chosen for a number stands for that number and no other: every candidate is
tested for that, and all digits together are always exact.  Setting a decimal out with its point
does not change what it stands for.
-/

namespace SceneScript

-- powers of naturals are the core's own, whatever else is imported
attribute [local instance (high)] instPowNat

namespace Binary64

/-! ## Quotients -/

theorem roundHalfEven_mul_right (n d : Nat) {k : Nat} (hk : 0 < k) :
    roundHalfEven (n * k) (d * k) = roundHalfEven n d := by
  have hmod : 2 * (n * k % (d * k)) = 2 * (n % d) * k := by
    rw [Nat.mul_mod_mul_right, Nat.mul_assoc]
  have hlt : 2 * (n % d) * k < d * k ↔ 2 * (n % d) < d :=
    ⟨Nat.lt_of_mul_lt_mul_right, fun h => Nat.mul_lt_mul_of_pos_right h hk⟩
  have heq : 2 * (n % d) * k = d * k ↔ 2 * (n % d) = d :=
    ⟨Nat.eq_of_mul_eq_mul_right hk, fun h => by rw [h]⟩
  simp only [roundHalfEven, Nat.mul_div_mul_right n d hk, hmod, hlt, heq]

/-- A quotient may be expanded. -/
theorem nearestPlace_mul_right (n d : Nat) {k : Nat} (hk : 0 < k) :
    nearestPlace (n * k) (d * k) = nearestPlace n d := by
  have hscaled : n * k * unitsPerOne = n * unitsPerOne * k := Nat.mul_right_comm n k unitsPerOne
  simp only [nearestPlace, hscaled, Nat.mul_div_mul_right _ d hk]
  rw [Nat.mul_right_comm d k, roundHalfEven_mul_right _ _ hk]

theorem nearestPlace_zero_left {d : Nat} (hd : 0 < d) : nearestPlace 0 d = 0 := by
  simp [nearestPlace, roundHalfEven, hd]

/-- The place depends on the value of the quotient alone. -/
theorem nearestPlace_congr {a b c d : Nat} (hb : 0 < b) (hd : 0 < d) (h : a * d = c * b) :
    nearestPlace a b = nearestPlace c d := by
  rw [← nearestPlace_mul_right a b hd, h, Nat.mul_comm b d, nearestPlace_mul_right c d hb]

end Binary64

namespace Decimal

theorem nearestPlace_congr {d e : Decimal}
    (h : d.numerator * e.denominator = e.numerator * d.denominator) :
    d.nearestPlace = e.nearestPlace :=
  Binary64.nearestPlace_congr d.denominator_pos e.denominator_pos h

/-- A power of ten may go from the digits to the exponent. -/
theorem nearestPlace_shift (count : Nat) (exponent : Int) :
    (Decimal.mk 1 (exponent + count)).nearestPlace
      = (Decimal.mk (10 ^ count) exponent).nearestPlace := by
  refine nearestPlace_congr ?_
  have hexp : (exponent + count).toNat + (-exponent).toNat
      = count + exponent.toNat + (-(exponent + count)).toNat := by
    omega
  simp only [numerator, denominator]
  rw [Nat.one_mul, ← Nat.pow_add, ← Nat.pow_add, ← Nat.pow_add, hexp]

end Decimal

namespace Binary64

/-! ## The chosen decimal -/

theorem nearestPlace_of_decimalOf? {tie : Tie} {place count : Nat} {d : Decimal}
    (h : decimalOf? tie place count = some d) : d.nearestPlace = place := by
  unfold decimalOf? at h
  dsimp only at h
  split at h
  · rename_i hbelow
    rw [Bool.and_eq_true, beq_iff_eq] at hbelow
    cases h
    exact hbelow.1
  · split at h
    · rename_i habove
      rw [beq_iff_eq] at habove
      cases h
      split
      · rename_i hpower
        rw [Decimal.nearestPlace_shift, ← hpower]
        exact habove
      · exact habove
    · cases h

theorem nearestPlace_exactDecimal (place : Nat) : (exactDecimal place).nearestPlace = place := by
  have hquotient : (exactDecimal place).nearestPlace = nearestPlace (units place) unitsPerOne := by
    refine nearestPlace_congr (Decimal.denominator_pos _) unitsPerOne_pos ?_
    have hdenominator : (exactDecimal place).denominator = 10 ^ unitExponent := by
      simp [exactDecimal, Decimal.denominator]
    have hnumerator : (exactDecimal place).numerator = units place * 5 ^ unitExponent := by
      simp [exactDecimal, Decimal.numerator]
    rw [hdenominator, hnumerator, unitsPerOne, Nat.mul_assoc, ← Nat.mul_pow]
  rw [hquotient]
  exact nearestPlace_units place

/-- The shortest decimal stands for the value that it was chosen for. -/
theorem nearestPlace_shortestDecimal (tie : Tie) (place : Nat) :
    (shortestDecimal tie place).nearestPlace = place := by
  unfold shortestDecimal
  cases hfound : (List.range' 1 17).findSome? (decimalOf? tie place) with
  | none => exact nearestPlace_exactDecimal place
  | some d =>
    obtain ⟨count, _, hcount⟩ := List.exists_of_findSome?_eq_some hfound
    exact nearestPlace_of_decimalOf? hcount

end Binary64

/-! ## Numerals -/

namespace Numeral

/-- The numeral that has some digits and a point at its place. -/
def ofDigits (digits : List Char) (exponent : Int) : Numeral :=
  let places := (-exponent).toNat
  if 0 ≤ exponent then ⟨digits ++ List.replicate exponent.toNat '0', []⟩
  else if places < digits.length then
    ⟨digits.take (digits.length - places), digits.drop (digits.length - places)⟩
  else ⟨['0'], List.replicate (places - digits.length) '0' ++ digits⟩

/-- The numeral is one that can be read: there are digits before the point, and nothing else. -/
structure Proper (n : Numeral) : Prop where
  whole_ne_nil : n.whole ≠ []
  whole_digits : ∀ c ∈ n.whole, c.isDigit = true
  fraction_digits : ∀ c ∈ n.fraction, c.isDigit = true

/-- What holds of digits and of the point holds all through the text. -/
theorem Proper.forall_mem_text {n : Numeral} {P : Char → Prop} (h : n.Proper)
    (hdigit : ∀ c, c.isDigit = true → P c) (hpoint : P '.') : ∀ c ∈ n.text, P c := by
  intro c hc
  rcases List.mem_append.1 hc with hc | hc
  · exact hdigit c (h.whole_digits c hc)
  · split at hc
    · cases hc
    · rcases List.mem_cons.1 hc with rfl | hc
      · exact hpoint
      · exact hdigit c (h.fraction_digits c hc)

/-- A numeral ends where its text does, if neither a digit nor a point follows. -/
theorem leading_append {n : Numeral} (h : n.Proper) {tail : List Char}
    (htail : ∀ c, tail.head? = some c → c.isDigit = false ∧ c ≠ '.') :
    leading (n.text ++ tail) = n := by
  obtain ⟨whole, fraction⟩ := n
  have hwhole := h.whole_digits
  have hfraction := h.fraction_digits
  dsimp only at hwhole hfraction
  -- what comes behind is no digit, so both runs of digits end where they did
  have hstop : tail.takeWhile Char.isDigit = [] ∧ tail.dropWhile Char.isDigit = tail := by
    cases tail with
    | nil => exact ⟨rfl, rfl⟩
    | cons c tail => simp [(htail c rfl).1]
  unfold leading text
  dsimp only
  by_cases hnil : fraction = []
  · rw [if_pos hnil, List.append_nil, List.takeWhile_append_of_pos hwhole,
      List.dropWhile_append_of_pos hwhole, hstop.1, hstop.2, List.append_nil, hnil]
    congr 1
    split
    · exact absurd rfl (htail '.' rfl).2
    · rfl
  · have htake : (whole ++ '.' :: (fraction ++ tail)).takeWhile Char.isDigit = whole := by
      rw [List.takeWhile_append_of_pos hwhole]
      simp
    have hdrop : (whole ++ '.' :: (fraction ++ tail)).dropWhile Char.isDigit
        = '.' :: (fraction ++ tail) := by
      rw [List.dropWhile_append_of_pos hwhole]
      simp
    rw [if_neg hnil, List.append_assoc, List.cons_append, htake, hdrop]
    show Numeral.mk whole ((fraction ++ tail).takeWhile Char.isDigit) = ⟨whole, fraction⟩
    rw [List.takeWhile_append_of_pos hfraction, hstop.1, List.append_nil]

theorem proper_ofDigits {digits : List Char} (exponent : Int) (hne : digits ≠ [])
    (h : ∀ c ∈ digits, c.isDigit = true) : (ofDigits digits exponent).Proper := by
  have hzeros : ∀ count, ∀ c ∈ List.replicate count '0', c.isDigit = true := by
    intro count c hc
    rw [List.eq_of_mem_replicate hc]
    rfl
  unfold ofDigits
  dsimp only
  -- the point is behind all the digits, among them, or before them all
  split
  · refine ⟨fun hnil => hne (List.append_eq_nil_iff.1 hnil).1, ?_, nofun⟩
    intro c hc
    rcases List.mem_append.1 hc with hc | hc
    · exact h c hc
    · exact hzeros _ c hc
  · split
    · refine ⟨?_, fun c hc => h c (List.mem_of_mem_take hc),
        fun c hc => h c (List.mem_of_mem_drop hc)⟩
      rintro hnil
      rcases List.take_eq_nil_iff.1 hnil with hzero | hnil
      · omega
      · exact hne hnil
    · refine ⟨List.cons_ne_nil _ _, ?_, ?_⟩
      · exact hzeros 1
      intro c hc
      rcases List.mem_append.1 hc with hc | hc
      · exact hzeros _ c hc
      · exact h c hc

theorem text_ofDigits {digits : List Char} (exponent : Int) (hne : digits ≠ []) :
    (Layout.source.plain digits exponent).toList = (ofDigits digits exponent).text := by
  have hlength := List.length_pos_iff.2 hne
  unfold Layout.plain ofDigits text
  dsimp only
  split
  · simp [Layout.source]
  · split
    · have hdrop : digits.drop (digits.length - (-exponent).toNat) ≠ [] := by
        rw [Ne, List.drop_eq_nil_iff]
        omega
      simp [hdrop]
    · simp [hne]

/-- The numeral stands for the digits and the exponent; zeros in the place of an exponent are digits
of it. -/
theorem decimal_ofDigits (n : Nat) (exponent : Int) :
    Decimal.ofDigits (ofDigits (Nat.toDigits 10 n) exponent).whole
        (ofDigits (Nat.toDigits 10 n) exponent).fraction
      = if 0 ≤ exponent then ⟨n * 10 ^ exponent.toNat, 0⟩ else ⟨n, exponent⟩ := by
  have hdigits : Nat.ofDigitChars 10 (Nat.toDigits 10 n) 0 = n := Nat.ofDigitChars_ten_toDigits
  unfold ofDigits
  dsimp only
  split
  · -- the zeros behind the digits are a power of ten
    have hvalue : Nat.ofDigitChars 10 (Nat.toDigits 10 n ++ List.replicate exponent.toNat '0') 0
        = n * 10 ^ exponent.toNat := by
      rw [Nat.ofDigitChars_append, hdigits, Nat.ofDigitChars_replicate_zero, Nat.mul_comm]
    rw [Decimal.ofDigits, List.append_nil, hvalue]
    rfl
  · split
    · rw [Decimal.ofDigits, List.take_append_drop, hdigits, List.length_drop, Decimal.mk.injEq]
      exact ⟨rfl, by omega⟩
    · have hvalue : Nat.ofDigitChars 10 (['0'] ++ (List.replicate
          ((-exponent).toNat - (Nat.toDigits 10 n).length) '0' ++ Nat.toDigits 10 n)) 0 = n := by
        rw [Nat.ofDigitChars_append, Nat.ofDigitChars_append, Nat.ofDigitChars_replicate_zero]
        exact hdigits
      rw [Decimal.ofDigits, hvalue, List.length_append, List.length_replicate, Decimal.mk.injEq]
      exact ⟨rfl, by omega⟩

/-- Where the point goes does not change the value. -/
theorem value_ofDigits (n : Nat) (exponent : Int) :
    (ofDigits (Nat.toDigits 10 n) exponent).value
      = (Decimal.mk n exponent).toBinary64 false := by
  rw [value, decimal_ofDigits]
  split
  · have hneg : (-exponent).toNat = 0 := by omega
    simp [Decimal.toBinary64, Decimal.numerator, Decimal.denominator, hneg]
  · rfl

theorem nearestPlace_of_numerator_eq_zero {d : Decimal} (h : d.numerator = 0) :
    d.nearestPlace = 0 := by
  rw [Decimal.nearestPlace, h]
  exact Binary64.nearestPlace_zero_left d.denominator_pos

/-- In source all decimals are plain. -/
theorem decimal_source (d : Decimal) :
    Layout.source.decimal d = Layout.source.plain (Nat.toDigits 10 d.digits) d.exponent := by
  unfold Layout.decimal
  exact if_pos rfl

theorem toBinary64_of_nearestPlace {negative : Bool} {d : Decimal}
    {place : Fin Binary64.magnitudes} (h : d.nearestPlace = place.val) :
    d.toBinary64 negative = .finite negative place := by
  have hlt : Binary64.nearestPlace d.numerator d.denominator < Binary64.magnitudes := by
    show d.nearestPlace < Binary64.magnitudes
    rw [h]
    exact place.isLt
  unfold Decimal.toBinary64 Binary64.ofRatio
  dsimp only
  rw [dif_pos hlt, Binary64.finite.injEq]
  exact ⟨rfl, Fin.ext h⟩

/-- The numeral of an unsigned number in source. -/
theorem exists_of_unsigned {x : Binary64} (hfinite : x.isFinite = true)
    (hsign : x.isNegative = false) :
    ∃ n : Numeral, n.Proper ∧ n.value = x ∧ (Layout.source.number x).toList = n.text := by
  cases x with
  | finite negative place =>
    have hnegative : negative = false := hsign
    subst hnegative
    have hnumber : Layout.source.number (.finite false place) = Layout.source.magnitude place.val := by
      simp [Layout.number]
    rw [hnumber, Layout.magnitude]
    by_cases hzero : place.val = 0
    · refine ⟨⟨['0'], []⟩, ⟨List.cons_ne_nil _ _, List.forall_mem_singleton.2 rfl, nofun⟩, ?_, ?_⟩
      · have hnumerator : (Decimal.ofDigits ['0'] []).numerator = 0 := by decide
        have hplace := nearestPlace_of_numerator_eq_zero hnumerator
        simp only [value]
        exact toBinary64_of_nearestPlace (hplace.trans hzero.symm)
      · rw [if_pos hzero]
        rfl
    · rw [if_neg hzero, decimal_source]
      -- the shortest digits are those of a number that rounds back to this one
      have hplace := Binary64.nearestPlace_shortestDecimal Layout.source.tie place.val
      generalize Binary64.shortestDecimal Layout.source.tie place.val = d at hplace
      obtain ⟨digits, exponent⟩ := d
      have hne : Nat.toDigits 10 digits ≠ [] := Nat.toDigits_ne_nil
      refine ⟨ofDigits (Nat.toDigits 10 digits) exponent, ?_, ?_, text_ofDigits _ hne⟩
      · exact proper_ofDigits _ hne
          fun c hc => Nat.isDigit_of_mem_toDigits (by decide) (by decide) hc
      · rw [value_ofDigits]
        exact toBinary64_of_nearestPlace hplace
  | infinite negative => cases hfinite
  | nan negative => cases hfinite

end Numeral

end SceneScript
