import SceneScript.Proofs.Cursor.Append
import SceneScript.Proofs.Cursor.Places

/-!
# A source that is cut off

A source may be cut off in front of any of its tokens: the tokens before the cut stay what they are.
None of them takes in anything behind the cut, and what ends a token because it cannot go on it is
as good as the end of the source.
-/

namespace SceneScript

variable {text more : List Char} {c d : Cursor} {t : Token} {ts : List Token}

/-! ## Text -/

/-- What is taken of two texts and is no longer than the first is taken of the first. -/
theorem takeWhile_of_append {p : Char → Bool}
    (h : ((text ++ more).takeWhile p).length ≤ text.length) :
    text.takeWhile p = (text ++ more).takeWhile p := by
  rw [List.takeWhile_append] at h ⊢
  split
  · rename_i hall
    rw [if_pos hall, List.length_append] at h
    have hnil : more.takeWhile p = [] := List.length_eq_zero_iff.1 (by omega)
    rw [hnil, List.append_nil]
    exact (List.takeWhile_prefix p).eq_of_length hall
  · rfl

theorem dropWhile_of_append {p : Char → Bool}
    (h : ((text ++ more).takeWhile p).length ≤ text.length) :
    (text ++ more).dropWhile p = text.dropWhile p ++ more := by
  have htake := takeWhile_of_append h
  have hboth := List.takeWhile_append_dropWhile (p := p) (l := text ++ more)
  have hfirst := List.takeWhile_append_dropWhile (p := p) (l := text)
  rw [htake] at hfirst
  rw [← List.append_cancel_left_eq ((text ++ more).takeWhile p), hboth, ← List.append_assoc, hfirst]

theorem fraction_leading_of_point {rest : List Char}
    (h : text.dropWhile Char.isDigit = '.' :: rest) :
    (Numeral.leading text).fraction = rest.takeWhile Char.isDigit := by
  simp only [Numeral.leading, h]

theorem fraction_leading_of_ne {x : Char} {rest : List Char}
    (h : text.dropWhile Char.isDigit = x :: rest) (hx : x ≠ '.') :
    (Numeral.leading text).fraction = [] := by
  simp only [Numeral.leading, h]
  split
  · rename_i heq
    exact absurd (List.cons.inj heq).1 hx
  · rfl

/-- A numeral that ends within a text is the one at the front of that text. -/
theorem leading_of_append (h : (Numeral.leading (text ++ more)).text.length ≤ text.length) :
    Numeral.leading text = Numeral.leading (text ++ more) := by
  have hlength : ((text ++ more).takeWhile Char.isDigit).length
      + (if (Numeral.leading (text ++ more)).fraction = [] then []
        else '.' :: (Numeral.leading (text ++ more)).fraction).length ≤ text.length := by
    rw [← List.length_append]
    exact h
  have hwhole : ((text ++ more).takeWhile Char.isDigit).length ≤ text.length := by omega
  have hsplit : text.length = ((text ++ more).takeWhile Char.isDigit).length
      + (text.dropWhile Char.isDigit).length := by
    rw [← takeWhile_of_append hwhole, ← List.length_append, List.takeWhile_append_dropWhile]
  have hfirst : text.takeWhile Char.isDigit = (text ++ more).takeWhile Char.isDigit :=
    takeWhile_of_append hwhole
  have hdrop := dropWhile_of_append hwhole
  -- the digits before the point agree, so it is the fractions that are compared
  suffices hfraction :
      (Numeral.leading text).fraction = (Numeral.leading (text ++ more)).fraction by
    show Numeral.mk _ (Numeral.leading text).fraction = Numeral.mk _ _
    rw [hfraction, hfirst]
    rfl
  cases hrest : text.dropWhile Char.isDigit with
  | nil =>
    -- the digits go on to the cut, so a fraction would be behind it
    have hnone : (Numeral.leading (text ++ more)).fraction = [] := by
      refine Classical.byContradiction fun hsome => ?_
      rw [if_neg hsome, hsplit, hrest] at hlength
      simp only [List.length_cons, List.length_nil] at hlength
      omega
    rw [hnone]
    simp only [Numeral.leading, hrest]
  | cons x rest =>
    rw [hrest, List.cons_append] at hdrop
    -- a point is in both texts, and the fraction behind it ends before the cut
    by_cases hx : x = '.'
    · subst hx
      have hfraction := fraction_leading_of_point hdrop
      have hle : ((rest ++ more).takeWhile Char.isDigit).length ≤ rest.length := by
        rw [hfraction, hsplit, hrest] at hlength
        by_cases hnone : (rest ++ more).takeWhile Char.isDigit = []
        · rw [hnone]
          exact Nat.zero_le _
        · rw [if_neg hnone] at hlength
          simp only [List.length_cons] at hlength
          omega
      rw [fraction_leading_of_point hrest, hfraction, takeWhile_of_append hle]
    · rw [fraction_leading_of_ne hrest hx, fraction_leading_of_ne hdrop hx]

/-- Trivia that ends within a text is the trivia of that text. -/
theorem triviaFrom_of_append {inComment : Bool}
    (h : triviaFrom inComment (text ++ more) ≤ text.length) :
    triviaFrom inComment (text ++ more) = triviaFrom inComment text := by
  fun_induction triviaFrom inComment text with
  | case1 => exact Nat.le_zero.1 h
  | case2 x rest ih =>
    rw [List.cons_append, triviaFrom, if_pos rfl] at h ⊢
    rw [ih (Nat.le_of_succ_le_succ h)]
  | case3 inComment x rest hin hblank ih =>
    rw [List.cons_append, triviaFrom, if_neg hin, if_pos hblank] at h ⊢
    rw [ih (Nat.le_of_succ_le_succ h)]
  | case4 inComment x rest hin hblank hslash ih =>
    have hslash' : x = '/' ∧ (rest ++ more).head? = some '/' :=
      ⟨hslash.1, by rw [List.head?_append, hslash.2, Option.some_or]⟩
    rw [List.cons_append, triviaFrom, if_neg hin, if_neg hblank, if_pos hslash'] at h ⊢
    rw [ih (Nat.le_of_succ_le_succ h)]
  | case5 inComment x rest hin hblank hslash =>
    rw [List.cons_append, triviaFrom, if_neg hin, if_neg hblank] at h ⊢
    refine if_neg fun hslash' => ?_
    cases rest with
    | cons y rest => exact hslash hslash'
    | nil =>
      -- a comment that opens across the cut does not end before it
      obtain ⟨tail, rfl⟩ := List.head?_eq_some_iff.1 hslash'.2
      rw [if_pos hslash'] at h
      simp [triviaFrom] at h

namespace Cursor

/-! ## Tokens -/

/-- A movement that ends before the cut is one in the text before it. -/
theorem le_of_length_advance_append {count : Nat} (hcount : count ≤ (c.append more).rest.length)
    (h : more.length ≤ ((c.append more).advance count).rest.length) : count ≤ c.rest.length := by
  simp only [append, rest_advance, List.length_drop, List.length_append] at hcount h
  omega

theorem afterTrivia_of_append (h : more.length ≤ (c.append more).afterTrivia.rest.length) :
    (c.append more).afterTrivia = c.afterTrivia.append more := by
  have hle : triviaLength (c.append more).rest ≤ c.rest.length :=
    le_of_length_advance_append (triviaFrom_le_length false _) h
  rw [afterTrivia, advance_append hle, afterTrivia]
  exact congrArg (fun count => (c.advance count).append more) (triviaFrom_of_append hle)

/-- What comes first is before the cut if anything is. -/
theorem rest_of_append_eq_cons {x : Char} {rest : List Char} (h : (c.append more).rest = x :: rest)
    (hpos : 0 < c.rest.length) : ∃ first, c.rest = x :: first ∧ rest = first ++ more := by
  cases hrest : c.rest with
  | nil => simp [hrest] at hpos
  | cons y first =>
    rw [append, hrest, List.cons_append] at h
    obtain ⟨rfl, rfl⟩ := List.cons.inj h
    exact ⟨first, rfl, rfl⟩

theorem text?_of_append {value : String} (h : (c.append more).text? = .ok (some (value, d)))
    (hle : more.length ≤ d.rest.length) :
    ∃ e, d = e.append more ∧ c.text? = .ok (some (value, e)) := by
  obtain ⟨quote, rest, hr, hquote, _, rfl⟩ := eq_of_text? h
  simp only [text?, hr, if_pos hquote] at h
  split at h
  · rename_i hlt
    obtain ⟨hvalue, _⟩ := Prod.mk.inj (Option.some.inj (Except.ok.inj h))
    have hlength : value.toList.length = (rest.takeWhile (· != quote)).length := by
      rw [← hvalue, String.toList_ofList]
    have hcount : value.toList.length + 2 ≤ (c.append more).rest.length := by
      rw [hr, hlength, List.length_cons]
      omega
    have hfirst := le_of_length_advance_append hcount hle
    obtain ⟨first, hrest, rfl⟩ := rest_of_append_eq_cons hr (by omega)
    have hinside : ((first ++ more).takeWhile (· != quote)).length + 2 ≤ first.length + 1 := by
      rw [← hlength, ← List.length_cons, ← hrest]
      exact hfirst
    have hbody : first.takeWhile (· != quote) = (first ++ more).takeWhile (· != quote) :=
      takeWhile_of_append (by omega)
    refine ⟨_, advance_append hfirst, ?_⟩
    simp only [text?, hrest, if_pos hquote, hbody]
    rw [if_pos (by omega), hvalue, hlength]
  · cases h

theorem number?_of_append {value : Binary64} (h : (c.append more).number? = .ok (some (value, d)))
    (hle : more.length ≤ d.rest.length) :
    ∃ e, d = e.append more ∧ c.number? = .ok (some (value, e)) := by
  simp only [number?] at h
  split at h
  · cases h
  · rename_i hwhole
    split at h
    · cases h
    · rename_i halpha
      split at h
      · rename_i hfinite
        obtain ⟨rfl, rfl⟩ := Prod.mk.inj (Option.some.inj (Except.ok.inj h))
        have hcount := le_of_length_advance_append (length_leading_le _) hle
        have hnumeral : Numeral.leading c.rest = Numeral.leading (c.append more).rest :=
          leading_of_append hcount
        rw [← hnumeral] at hwhole halpha hfinite hcount ⊢
        refine ⟨_, advance_append hcount, ?_⟩
        -- no letter comes behind the numeral, neither in the source nor where the source is cut off
        have hafter : ¬(c.rest.drop (Numeral.leading c.rest).text.length).head?.any
            Char.isAlpha = true := by
          intro hany
          rw [append, List.drop_append_of_le_length hcount, List.head?_append] at halpha
          cases hhead : (c.rest.drop (Numeral.leading c.rest).text.length).head? with
          | none => simp [hhead] at hany
          | some x => exact halpha (by rw [hhead] at hany ⊢; exact hany)
        simp only [number?, if_neg hwhole, if_neg hafter, if_pos hfinite]
      · cases h

theorem word?_of_append {word : String} (h : (c.append more).word? = some word)
    (hle : word.toList.length ≤ c.rest.length) : c.word? = some word := by
  obtain ⟨x, rest, hr, hx⟩ := rest_eq_cons_of_word? h
  have hword := toList_of_word? h
  rw [hword] at hle
  have htake := takeWhile_of_append hle
  have hone : 0 < ((c.append more).rest.takeWhile isWordChar).length := by
    simp [hr, isWordChar_of_isWordStart hx]
  obtain ⟨first, hrest, _⟩ := rest_of_append_eq_cons hr (by omega)
  have hhead : c.rest.head?.any isWordStart = true := by
    rw [hrest]
    exact hx
  rw [word?, if_pos hhead, htake]
  show some (String.ofList ((c.append more).rest.takeWhile isWordChar)) = some word
  rw [← hword, String.ofList_toList]

/-- A token that ends before the cut is a token of what is left. -/
theorem token?_of_append (h : (c.append more).token? = .ok (some (t, d)))
    (hle : more.length ≤ d.rest.length) :
    ∃ e, d = e.append more ∧ c.token? = .ok (some (t, e)) := by
  obtain ⟨value, rfl, hvalue⟩ | ⟨x, rfl, hx⟩ | ⟨word, rfl, hword, rfl⟩ | ⟨x, rest, hr, hx, rfl⟩ :=
    token?_cases h
  · obtain ⟨e, he, hvalue⟩ := text?_of_append hvalue hle
    exact ⟨e, he, token?_of_text? hvalue⟩
  · obtain ⟨e, he, hx⟩ := number?_of_append hx hle
    exact ⟨e, he, token?_of_number? hx⟩
  · have hcount : word.toList.length ≤ (c.append more).rest.length := by
      rw [toList_of_word? hword]
      exact (List.takeWhile_prefix _).length_le
    have hfirst := le_of_length_advance_append hcount hle
    exact ⟨_, advance_append hfirst, token?_of_word? (word?_of_append hword hfirst)⟩
  · have hcount : 1 ≤ (c.append more).rest.length := by simp [hr]
    have hfirst := le_of_length_advance_append hcount hle
    obtain ⟨first, hrest, _⟩ := rest_of_append_eq_cons hr hfirst
    exact ⟨_, advance_append hfirst, token?_of_ofChar? hrest hx⟩

theorem next?_of_append (h : (c.append more).next? = some (t, d))
    (hle : more.length ≤ d.rest.length) :
    ∃ e, d = e.append more ∧ c.next? = some (t, e) := by
  have hbeyond := (beyond_of_next? h).length_rest_lt
  rw [← next?_afterTrivia, next?_eq_some_iff (settled_afterTrivia _),
    afterTrivia_of_append (by omega)] at h
  obtain ⟨e, he, htoken⟩ := token?_of_append h hle
  refine ⟨e, he, ?_⟩
  rw [← next?_afterTrivia, next?_eq_some_iff (settled_afterTrivia c)]
  exact htoken

/-- A place before the cut is one in the text before it. -/
theorem Reads.of_append (h : (c.append more).Reads ts d) (hd : d.Settled)
    (hle : more.length ≤ d.rest.length) :
    ∃ e, d = e.append more ∧ c.Reads ts e ∧ e.Settled := by
  induction ts generalizing c with
  | nil =>
    have hplace : (c.append more).afterTrivia = d := h.2.trans hd
    have hsame := afterTrivia_of_append (by rwa [hplace])
    exact ⟨c.afterTrivia, hplace.symm.trans hsame, reads_afterTrivia c, settled_afterTrivia c⟩
  | cons t ts ih =>
    obtain ⟨e, he, hmore⟩ := h
    obtain ⟨f, rfl, hf⟩ := next?_of_append he (Nat.le_trans hle hmore.onward.length_rest_le)
    obtain ⟨e, rfl, hreads, hsettled⟩ := ih hmore
    exact ⟨e, rfl, ⟨f, hf, hreads⟩, hsettled⟩

end Cursor

/-! ## Sources -/

/-- What is left of a source that is cut off at an offset. -/
def cutOff (source : String) (offset : Nat) : String :=
  String.ofList (Text.takeBytes offset source.toList)

namespace Cursor

variable {source : String}

theorem start_eq_append (h : (start source).Onward c) :
    start source = (start (cutOff source c.pos)).append c.rest := by
  obtain ⟨count, rfl⟩ := h
  rw [cutOff, takeBytes_pos]
  simp [start, append]

/-- A place before the cut is one in what is left of the source. -/
theorem Reads.exists_cutOff (h : (start source).Reads ts c) (hc : c.Settled) (k : c.Onward d) :
    ∃ e, (start (cutOff source d.pos)).Reads ts e ∧ e.Settled ∧ e.pos = c.pos := by
  have hreads := h
  rw [start_eq_append (h.onward.trans k)] at hreads
  obtain ⟨e, rfl, he, hsettled⟩ := hreads.of_append hc k.length_rest_le
  exact ⟨e, he, hsettled, rfl⟩

/-- What is left of the source ends at the cut. -/
theorem Reads.exists_end_cutOff (h : (start source).Reads ts c) (hc : c.Settled) :
    ∃ e, (start (cutOff source c.pos)).Reads ts e ∧ e.Settled ∧ e.isEnd = true
      ∧ e.pos = c.pos := by
  have hreads := h
  rw [start_eq_append h.onward] at hreads
  obtain ⟨e, hcut, he, hsettled⟩ := hreads.of_append hc (Nat.le_refl _)
  have hrest : e.rest = [] := List.append_left_eq_self.1 (congrArg Cursor.rest hcut).symm
  exact ⟨e, he, hsettled, by rw [isEnd, hrest]; rfl, (congrArg Cursor.pos hcut).symm⟩

/-- Positions before the cut are where they were. -/
theorem ofOffset_cutOff (h : (start source).Onward c) (k : c.Onward d) :
    Position.ofOffset (cutOff source d.pos) c.pos = Position.ofOffset source c.pos := by
  obtain ⟨m, rfl⟩ := h
  obtain ⟨n, rfl⟩ := k
  rw [advance_advance, cutOff, takeBytes_pos, Position.ofOffset, Position.ofOffset, takeBytes_pos,
    String.toList_ofList, List.take_add, pos_advance_start, Text.takeBytes_byteLength_append]

end Cursor

end SceneScript
