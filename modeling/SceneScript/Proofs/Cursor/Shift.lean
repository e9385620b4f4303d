import SceneScript.ParseError
import SceneScript.Proofs.Cursor.Ahead

/-!
# Text moved down

What a cursor finds does not depend on the bytes before it, except for the offsets in errors.  So
behind other lines a source has the same tokens, and the same errors further down.
-/

namespace SceneScript

variable {n : Nat} {c d : Cursor} {t : Token} {ts : List Token}

/-! ## Places and errors further down -/

namespace LexicalError

/-- The error so many bytes further down. -/
def shift (n : Nat) : LexicalError → LexicalError
  | .unterminatedString start => .unterminatedString (start + n)
  | .malformedNumber start text => .malformedNumber (start + n) text
  | .unrecognizedCharacter offset char => .unrecognizedCharacter (offset + n) char

theorem shift_inj {e e' : LexicalError} (h : e.shift n = e'.shift n) : e = e' := by
  cases e <;> cases e' <;> simp_all [shift]

end LexicalError

namespace Cursor

/-- The same text so many bytes further down. -/
def shift (n : Nat) (c : Cursor) : Cursor := ⟨c.rest, c.pos + n⟩

/-- What is found further down. -/
def shiftFound {α : Type} (n : Nat) :
    Except LexicalError (Option (α × Cursor)) → Except LexicalError (Option (α × Cursor))
  | .ok found => .ok (found.map (Prod.map id (shift n)))
  | .error e => .error (e.shift n)

theorem shiftFound_none {α : Type} :
    shiftFound n (.ok none : Except LexicalError (Option (α × Cursor))) = .ok none := rfl

-- not by `rfl`, which would have the value of a numeral computed where this is used
theorem shiftFound_some {α : Type} (value : α) (d : Cursor) :
    shiftFound n (.ok (some (value, d))) = .ok (some (value, d.shift n)) := by
  simp only [shiftFound, Option.map_some, Prod.map_apply, id_eq]

theorem shiftFound_malformed {α : Type} (start : Nat) (text : String) :
    shiftFound n (.error (.malformedNumber start text) :
      Except LexicalError (Option (α × Cursor)))
        = .error (.malformedNumber (start + n) text) := rfl

/-- The same error is met, that much further on. -/
theorem shiftFound_eq_error {α : Type} {r : Except LexicalError (Option (α × Cursor))}
    {e : LexicalError} : r = .error e ↔ shiftFound n r = .error (e.shift n) := by
  constructor
  · rintro rfl
    rfl
  · cases r with
    | ok found => exact nofun
    | error e' => exact fun h => congrArg _ (LexicalError.shift_inj (Except.error.inj h))

@[simp] theorem rest_shift : (c.shift n).rest = c.rest := rfl

@[simp] theorem pos_shift : (c.shift n).pos = c.pos + n := rfl

@[simp] theorem word?_shift : (c.shift n).word? = c.word? := rfl

@[simp] theorem char?_shift : (c.shift n).char? = c.char? := rfl

theorem advance_shift (count : Nat) : (c.shift n).advance count = (c.advance count).shift n := by
  simp only [shift, advance, Nat.add_right_comm]

/-- Trivia does not depend on how much is before it. -/
theorem afterTrivia_shift : (c.shift n).afterTrivia = c.afterTrivia.shift n := advance_shift _

theorem settled_shift (h : c.Settled) : (c.shift n).Settled := by
  rw [Settled, afterTrivia_shift, h]

theorem Settled.of_shift (h : (c.shift n).Settled) : c.Settled := by
  rw [Settled, afterTrivia_shift, shift, shift, Cursor.mk.injEq, Nat.add_right_cancel_iff] at h
  show Cursor.mk c.afterTrivia.rest c.afterTrivia.pos = Cursor.mk c.rest c.pos
  rw [h.1, h.2]

/-! ## Tokens -/

theorem number?_shift : (c.shift n).number? = shiftFound n c.number? := by
  simp only [number?, rest_shift, pos_shift, advance_shift]
  generalize Numeral.leading c.rest = numeral
  simp only [apply_ite (shiftFound n), shiftFound_none, shiftFound_some, shiftFound_malformed]

theorem text?_shift : (c.shift n).text? = shiftFound n c.text? := by
  unfold text?
  rw [rest_shift]
  split
  · rfl
  · simp only [advance_shift]
    split
    · split <;> rfl
    · rfl

/-- A token does not depend on how much is before it, and an error is that much further on. -/
theorem token?_shift : (c.shift n).token? = shiftFound n c.token? := by
  simp only [token?, text?_shift, number?_shift, word?_shift, char?_shift, afterWord, advance_shift]
  rcases c.text? with e | _ | ⟨text, d⟩
  · rfl
  · rcases c.number? with e | _ | ⟨x, d⟩
    · rfl
    · rcases c.word? with _ | word
      · rcases c.char? with _ | char
        · rfl
        · cases hchar : Token.ofChar? char <;> simp [shiftFound, hchar, LexicalError.shift]
      · simp [shiftFound]
    · rfl
  · rfl

/-- What is found further down is found here. -/
theorem token?_of_shift (h : (c.shift n).token? = .ok (some (t, d))) :
    ∃ e, d = e.shift n ∧ c.token? = .ok (some (t, e)) := by
  rw [token?_shift] at h
  rcases htoken : c.token? with error | _ | ⟨u, e⟩
  · rw [htoken] at h
    cases h
  · rw [htoken] at h
    cases h
  · rw [htoken, shiftFound_some] at h
    obtain ⟨rfl, rfl⟩ := Prod.mk.inj (Option.some.inj (Except.ok.inj h))
    exact ⟨e, rfl, rfl⟩

/-- What comes next is described in the same words. -/
theorem describe_shift : (c.shift n).describe = c.describe := by
  simp only [describe, afterTrivia_shift, token?_shift]
  rcases c.afterTrivia.token? with e | _ | ⟨t, d⟩
  · cases e <;> rfl
  · rfl
  · rfl

theorem next?_shift (h : c.next? = some (t, d)) : (c.shift n).next? = some (t, d.shift n) := by
  rw [← next?_afterTrivia, next?_eq_some_iff (settled_afterTrivia c)] at h
  rw [next?, afterTrivia_shift, token?_shift, h]
  rfl

/-- The same tokens are read from a place that is that much further on. -/
theorem Reads.shift (h : c.Reads ts d) : (c.shift n).Reads ts (d.shift n) := by
  induction ts generalizing c with
  | nil =>
    obtain ⟨⟨count, rfl⟩, htrivia⟩ := h
    refine ⟨⟨count, (advance_shift count).symm⟩, ?_⟩
    rw [afterTrivia_shift, afterTrivia_shift, htrivia]
  | cons t ts ih =>
    obtain ⟨e, he, hrest⟩ := h
    exact ⟨_, next?_shift he, ih hrest⟩

end Cursor

/-! ## Positions -/

namespace Text

theorem byteLength_lineFeed : byteLength ['\n'] = 1 := rfl

theorem takeBytes_add (above below : List Char) (k : Nat) :
    takeBytes (byteLength above + k) (above ++ below) = above ++ takeBytes k below := by
  induction above with
  | nil => simp
  | cons c above ih =>
    have hpos := c.utf8Size_pos
    have hne : c.utf8Size + byteLength above + k ≠ 0 := by omega
    have hsub : c.utf8Size + byteLength above + k - c.utf8Size = byteLength above + k := by omega
    rw [byteLength_cons, List.cons_append, takeBytes, if_neg hne, hsub, ih, List.cons_append]

/-- The last line of a text does not depend on the lines above. -/
theorem lastLine_append_lineFeed (above below : List Char) :
    lastLine (above ++ '\n' :: below) = lastLine below := by
  have hreverse : (above ++ '\n' :: below).reverse = below.reverse ++ '\n' :: above.reverse := by
    simp
  rw [lastLine, lastLine, hreverse, List.takeWhile_append]
  split
  · rename_i hall
    rw [(List.takeWhile_prefix _).eq_of_length hall]
    simp
  · rfl

theorem lineFeeds_append_lineFeed (above below : List Char) :
    lineFeeds (above ++ '\n' :: below) = lineFeeds above + 1 + lineFeeds below := by
  simp only [lineFeeds, List.count_append, List.count_cons_self]
  omega

end Text

namespace Position

/-- The position below so many bytes in so many lines. -/
def movedDown (bytes lines : Nat) (p : Position) : Position :=
  ⟨p.offset + bytes, p.line + lines, p.column⟩

/-- Positions in a text below another one. -/
theorem ofOffset_below (above below : String) (offset : Nat) :
    ofOffset (above ++ "\n" ++ below) (offset + (Text.byteLength above.toList + 1))
      = (ofOffset below offset).movedDown (Text.byteLength above.toList + 1)
          (Text.lineFeeds above.toList + 1) := by
  have htake : Text.takeBytes (offset + (Text.byteLength above.toList + 1))
      (above ++ "\n" ++ below).toList
        = above.toList ++ '\n' :: Text.takeBytes offset below.toList := by
    have hadd := Text.takeBytes_add (above.toList ++ ['\n']) below.toList offset
    rw [Text.byteLength_append, Text.byteLength_lineFeed, Nat.add_comm] at hadd
    simpa using hadd
  have hbytes : Text.byteLength (above.toList ++ '\n' :: Text.takeBytes offset below.toList)
      = Text.byteLength (Text.takeBytes offset below.toList) + (Text.byteLength above.toList + 1) := by
    have hfeed : ('\n' : Char).utf8Size = 1 := by decide
    rw [Text.byteLength_append, Text.byteLength_cons, hfeed]
    omega
  rw [ofOffset, htake, after, hbytes, Text.lineFeeds_append_lineFeed, Text.lastLine_append_lineFeed]
  simp only [ofOffset, after, movedDown, mk.injEq, true_and, and_true]
  omega

end Position

end SceneScript
