import SceneScript.Proofs.Json.Grammar

/-!
# Numbers in JSON

A number in JSON is a numeral with perhaps a sign before it and a power of ten behind it.  These three
parts can be told from the text, and with them the number, so that no text is that of two numbers.  Every
finite number has such a text.
-/

namespace SceneScript

-- powers of naturals are the core's own, whatever else is imported
attribute [local instance (high)] instPowNat

namespace Json

/-- The character can stand in the text of a number. -/
def isNumberChar (c : Char) : Bool := c.isDigit || ['.', 'e', 'E', '+', '-'].contains c

theorem isNumberChar_of_isDigit {c : Char} (h : c.isDigit = true) : isNumberChar c = true := by
  rw [isNumberChar, h, Bool.true_or]

variable {power : List Char}

/-- What follows the numeral does not go on it. -/
theorem IsPower.head? (h : IsPower power) {c : Char} (hc : power.head? = some c) :
    c.isDigit = false ∧ c ≠ '.' := by
  cases h with
  | absent => cases hc
  | present hletter =>
    cases hc
    simp only [List.mem_cons, List.not_mem_nil, or_false] at hletter
    rcases hletter with rfl | rfl <;> decide

theorem IsPower.isNumberChar_of_mem (h : IsPower power) {c : Char} (hc : c ∈ power) :
    isNumberChar c = true := by
  cases h with
  | absent => cases hc
  | present hletter hsign _ hdigits =>
    rcases List.mem_cons.1 hc with rfl | hc
    · simp only [List.mem_cons, List.not_mem_nil, or_false] at hletter
      rcases hletter with rfl | rfl <;> decide
    · rcases List.mem_append.1 hc with hc | hc
      · have hsigns : ∀ sign ∈ [[], ['+'], ['-']], ∀ c ∈ sign, isNumberChar c = true := by
          simp [isNumberChar]
        exact hsigns _ hsign c hc
      · exact isNumberChar_of_isDigit (hdigits c hc)

namespace NumberParts

variable {m n : NumberParts}

theorem isDigit_head?_numeral {n : Numeral} (h : n.Proper) :
    ∃ c, n.text.head? = some c ∧ c.isDigit = true := by
  obtain ⟨c, whole, hwhole⟩ := List.exists_cons_of_ne_nil h.whole_ne_nil
  refine ⟨c, by simp [Numeral.text, hwhole], h.whole_digits c ?_⟩
  rw [hwhole]
  exact List.mem_cons_self ..

/-- A text without a sign begins with a digit. -/
theorem ne_minus_cons {n : Numeral} (h : n.Proper) (power rest : List Char) :
    n.text ++ power ≠ '-' :: rest := by
  intro heq
  obtain ⟨c, hc, hdigit⟩ := isDigit_head?_numeral h
  have hhead := congrArg List.head? heq
  rw [List.head?_append, hc] at hhead
  cases hhead
  revert hdigit
  decide

/-- The sign, the numeral and the power of ten can be told from the text. -/
theorem text_injective (hm : m.Proper) (hn : n.Proper) (h : m.text = n.text) : m = n := by
  obtain ⟨negative, numeral, power⟩ := m
  obtain ⟨negative', numeral', power'⟩ := n
  obtain ⟨rfl, htext⟩ : negative = negative' ∧ numeral.text ++ power = numeral'.text ++ power' := by
    cases negative <;> cases negative'
    · exact ⟨rfl, h⟩
    · exact absurd h (ne_minus_cons hm.numeral _ _)
    · exact absurd h.symm (ne_minus_cons hn.numeral _ _)
    · exact ⟨rfl, (List.cons.inj h).2⟩
  obtain rfl : numeral = numeral' := by
    have hleading : Numeral.leading (numeral.text ++ power) = numeral :=
      Numeral.leading_append hm.numeral fun _ => hm.power.head?
    rw [← hleading, htext]
    exact Numeral.leading_append hn.numeral fun _ => hn.power.head?
  rw [List.append_cancel_left htext]

theorem isNumberChar_of_mem_text (hn : n.Proper) {c : Char} (h : c ∈ n.text) :
    isNumberChar c = true := by
  rcases List.mem_append.1 h with h | h
  · split at h
    · rw [List.mem_singleton.1 h]
      decide
    · cases h
  · rcases List.mem_append.1 h with h | h
    · exact hn.numeral.forall_mem_text (fun _ => isNumberChar_of_isDigit) (by decide) c h
    · exact hn.power.isNumberChar_of_mem h

/-- A text begins with a minus or a digit. -/
theorem head?_text (hn : n.Proper) :
    ∃ c, n.text.head? = some c ∧ (c = '-' ∨ c.isDigit = true) := by
  obtain ⟨c, hc, hdigit⟩ := isDigit_head?_numeral hn.numeral
  rw [text, List.head?_append, List.head?_append, hc]
  split
  · exact ⟨'-', rfl, .inl rfl⟩
  · exact ⟨c, rfl, .inr hdigit⟩

end NumberParts

/-- A text is that of one number. -/
theorem IsNumber.unique {x y : Binary64} {text : List Char} (hx : IsNumber x text)
    (hy : IsNumber y text) : x = y := by
  obtain ⟨m, hm, htext, rfl⟩ := hx
  obtain ⟨n, hn, htext', rfl⟩ := hy
  rw [NumberParts.text_injective hm hn (htext.trans htext'.symm)]

end Json

/-! ## Every finite number has a text -/

namespace Json

/-- The power of ten as it is printed, always with a sign. -/
def printedPower (exponent : Int) : List Char :=
  'e' :: (if exponent < 0 then '-' else '+') :: Nat.toDigits 10 exponent.natAbs

theorem isPower_printedPower (exponent : Int) : IsPower (printedPower exponent) := by
  have hdigits : ∀ c ∈ Nat.toDigits 10 exponent.natAbs, c.isDigit = true :=
    fun c hc => Nat.isDigit_of_mem_toDigits (by decide) (by decide) hc
  have hplus : ['+'] ∈ [[], ['+'], ['-']] := by decide
  have hminus : ['-'] ∈ [[], ['+'], ['-']] := by decide
  unfold printedPower
  split
  · exact .present (by decide) hminus Nat.toDigits_ne_nil hdigits
  · exact .present (by decide) hplus Nat.toDigits_ne_nil hdigits

theorem exponentOf_printedPower (exponent : Int) : exponentOf (printedPower exponent) = exponent := by
  unfold printedPower
  split
  · rw [exponentOf, Nat.ofDigitChars_ten_toDigits]
    omega
  · rw [exponentOf, Nat.ofDigitChars_ten_toDigits]
    omega

end Json

namespace Layout

theorem exists_plain (n : Nat) (exponent : Int) : ∃ numeral : Numeral, numeral.Proper
    ∧ (json.plain (Nat.toDigits 10 n) exponent).toList = numeral.text
    ∧ (Decimal.ofDigits numeral.whole numeral.fraction).nearestPlace
      = (Decimal.mk n exponent).nearestPlace := by
  have hne : Nat.toDigits 10 n ≠ [] := Nat.toDigits_ne_nil
  have hproper := Numeral.proper_ofDigits exponent hne
    fun c hc => Nat.isDigit_of_mem_toDigits (by decide) (by decide) hc
  have hdecimal := Numeral.decimal_ofDigits n exponent
  by_cases hexponent : 0 ≤ exponent
  · -- a whole number keeps a point and a zero, which is a digit more
    have hwhole : Numeral.ofDigits (Nat.toDigits 10 n) exponent
        = ⟨Nat.toDigits 10 n ++ List.replicate exponent.toNat '0', []⟩ := if_pos hexponent
    rw [hwhole] at hproper hdecimal
    rw [if_pos hexponent, Decimal.ofDigits, List.append_nil, Decimal.mk.injEq] at hdecimal
    refine ⟨⟨Nat.toDigits 10 n ++ List.replicate exponent.toNat '0', ['0']⟩,
      ⟨hproper.whole_ne_nil, hproper.whole_digits, List.forall_mem_singleton.2 rfl⟩, ?_, ?_⟩
    · rw [plain, if_pos hexponent]
      simp [json, Numeral.text]
    · have hdigit : Nat.ofDigitChars 10 (Nat.toDigits 10 n
          ++ (List.replicate exponent.toNat '0' ++ ['0'])) 0 = n * 10 ^ exponent.toNat * 10 := by
        rw [← List.append_assoc, Nat.ofDigitChars_append, hdecimal.1]
        simp [Nat.ofDigitChars, Nat.mul_comm]
      have hneg : (-exponent).toNat = 0 := by omega
      refine Decimal.nearestPlace_congr ?_
      simp [Decimal.ofDigits, hdigit, Decimal.numerator, Decimal.denominator, hneg]
  · -- with a point in it the number is written as in a source
    rw [if_neg hexponent] at hdecimal
    refine ⟨Numeral.ofDigits (Nat.toDigits 10 n) exponent, hproper, ?_, ?_⟩
    · rw [← Numeral.text_ofDigits _ hne, plain, plain, if_neg hexponent, if_neg hexponent]
    · rw [hdecimal]

theorem exists_scientific (n : Nat) (exponent : Int) : ∃ numeral : Numeral, numeral.Proper
    ∧ (json.scientific (Nat.toDigits 10 n) (exponent + (Nat.toDigits 10 n).length - 1)).toList
      = numeral.text ++ Json.printedPower (exponent + (Nat.toDigits 10 n).length - 1)
    ∧ (Json.NumberParts.mk false numeral
      (Json.printedPower (exponent + (Nat.toDigits 10 n).length - 1))).decimal = ⟨n, exponent⟩ := by
  have hdigits : Nat.ofDigitChars 10 (Nat.toDigits 10 n) 0 = n := Nat.ofDigitChars_ten_toDigits
  have hne : Nat.toDigits 10 n ≠ [] := Nat.toDigits_ne_nil
  have hall : ∀ c ∈ Nat.toDigits 10 n, c.isDigit = true :=
    fun c hc => Nat.isDigit_of_mem_toDigits (by decide) (by decide) hc
  generalize Nat.toDigits 10 n = digits at hdigits hne hall
  refine ⟨⟨digits.take 1, digits.drop 1⟩, ⟨?_, ?_, ?_⟩, ?_, ?_⟩
  · simpa using hne
  · exact fun c hc => hall c (List.mem_of_mem_take hc)
  · exact fun c hc => hall c (List.mem_of_mem_drop hc)
  · simp only [scientific, Json.printedPower, Numeral.text, json, String.toList_append,
      String.toList_ofList, Nat.toString_eq_repr, Nat.toList_repr]
    split <;> split <;> simp_all
  · have hlength := List.length_pos_iff.2 hne
    rw [Json.NumberParts.decimal, Json.exponentOf_printedPower]
    dsimp only [Decimal.ofDigits]
    rw [List.take_append_drop, hdigits, List.length_drop, Decimal.mk.injEq]
    refine ⟨rfl, ?_⟩
    omega

/-- The text of a place is that of parts without a sign that read back to the place. -/
theorem exists_magnitude (place : Nat) : ∃ numeral power, numeral.Proper ∧ Json.IsPower power
    ∧ (json.magnitude place).toList = numeral.text ++ power
    ∧ (Json.NumberParts.mk false numeral power).decimal.nearestPlace = place := by
  have hunscaled : ∀ numeral : Numeral, (Json.NumberParts.mk false numeral []).decimal
      = Decimal.ofDigits numeral.whole numeral.fraction := by
    intro numeral
    simp [Json.NumberParts.decimal, Json.exponentOf]
  unfold magnitude
  by_cases hzero : place = 0
  · subst hzero
    refine ⟨⟨['0'], ['0']⟩, [], ⟨List.cons_ne_nil _ _, List.forall_mem_singleton.2 rfl,
      List.forall_mem_singleton.2 rfl⟩, .absent, rfl, ?_⟩
    exact Numeral.nearestPlace_of_numerator_eq_zero (by decide)
  · have hplace := Binary64.nearestPlace_shortestDecimal json.tie place
    rw [if_neg hzero, decimal]
    generalize Binary64.shortestDecimal json.tie place = d at hplace
    obtain ⟨digits, exponent⟩ := d
    dsimp only
    split
    · obtain ⟨numeral, hproper, htext, hvalue⟩ := exists_plain digits exponent
      refine ⟨numeral, [], hproper, .absent, by rw [htext, List.append_nil], ?_⟩
      rw [hunscaled, hvalue, hplace]
    · obtain ⟨numeral, hproper, htext, hvalue⟩ := exists_scientific digits exponent
      refine ⟨numeral, _, hproper, Json.isPower_printedPower _, htext, ?_⟩
      rw [hvalue, hplace]

/-- The text of a finite number reads back to it. -/
theorem isNumber_json {x : Binary64} (h : x.isFinite = true) :
    Json.IsNumber x (json.number x).toList := by
  cases x with
  | finite negative place =>
    obtain ⟨numeral, power, hproper, hpower, htext, hplace⟩ := exists_magnitude place.val
    refine ⟨⟨negative, numeral, power⟩, ⟨hproper, hpower⟩, ?_,
      Numeral.toBinary64_of_nearestPlace hplace⟩
    cases negative <;> simp [number, Json.NumberParts.text, htext]
  | infinite negative => cases h
  | nan negative => cases h

end Layout

end SceneScript
