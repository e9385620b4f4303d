import SceneScript.Proofs.Parser.Justified
import SceneScript.Proofs.Parser.Reached

/-!
# Reserved words in the place of names

A parse that is ended by a reserved word is ended for good, although the alternatives that were not
tried yet could have read the word.  So it has to be right that a name was meant: every name fits
there, and what stands around the word says that one is due.
-/

namespace SceneScript

open Grammar Cursor SceneScript.Parser

/-- At the place of the error a reserved word stands in the place of a name.  With any name behind
the tokens before it they begin a sentence, and the word stands there as a name does. -/
structure InPlaceOfName (source : String) (e : ParseError) (word : String) (ts : List Token)
    (c : Cursor) : Prop where
  reads : (start source).Reads ts c
  settled : c.Settled
  pos : c.pos = e.position.offset
  mem : word ∈ reservedWords
  word? : c.word? = some word
  isViable : ∀ t name, IsName t name → IsViable (ts ++ [t])
  standsAsName : StandsAsName ts c word

namespace Parser

variable {source word : String}

/-- A program that ends early is refused neither for a reserved word nor for its nesting. -/
theorem kind_leftoverError_ne (source : String) (f : Farthest) (c : Cursor) :
    (∀ word, (leftoverError source f c).kind ≠ .reservedWord word)
      ∧ ∀ limit, (leftoverError source f c).kind ≠ .nestingTooDeep limit := by
  cases leftover_leftoverError source f c with
  | stray _ hkind => simp [hkind]
  | failure _ _ hkind =>
    rw [hkind, Farthest.kind]
    split <;> simp
  | trailing _ _ _ hkind =>
    rw [hkind, trailingKind]
    split <;> simp

/-- What is known of the place from the tokens that may come there, and from the rule that ended the
parse there. -/
theorem inPlaceOfName_of_aborted {c : Cursor}
    (h : (level .nothing nestingLimit).statement.many (State.start source)
      = .aborted (.reservedWord c word)) :
    ∃ ts, InPlaceOfName source ((Abort.reservedWord c word).error source) word ts c := by
  obtain ⟨ts, hdue⟩ := due_of_aborted h
  obtain ⟨hword, hreserved, hnames⟩ := hdue.reserved c word rfl
  have hjustified : Rule.Justified [] (level .nothing nestingLimit).statement.many :=
    justified_body (within_level nestingLimit) (justified_level nestingLimit)
  obtain ⟨us, hus, hstands⟩ := hjustified _ _ h
  -- both have come to the same place, so by the same tokens
  obtain rfl := Reads.tokens_unique hus hdue.reads hdue.settled
  exact ⟨us, {
    reads := hus
    settled := hdue.settled
    pos := (offset_ofOffset hus.onward).symm
    mem := List.contains_iff_mem.1 hreserved
    word? := hword
    isViable := fun t name hname => hnames _ ⟨t, name, rfl, hname⟩
    standsAsName := hstands }⟩

end Parser

/-- A source is refused for a reserved word only where a name was due. -/
theorem reserved_word_in_place_of_name {source : String} {e : ParseError} {word : String}
    (h : parse source = .error e) (hkind : e.kind = .reservedWord word) :
    ∃ ts c, InPlaceOfName source e word ts c := by
  have hparse : parse source = parseWith .nothing source := parseWith_tables source
  rw [hparse] at h
  rcases refused_of_parseWith h with ⟨a, haborted, rfl⟩ | ⟨ss, s, _, _, rfl⟩
  · cases a with
    | tooDeep place => cases hkind
    | reservedWord c other =>
      cases hkind
      obtain ⟨ts, hplace⟩ := inPlaceOfName_of_aborted haborted
      exact ⟨ts, c, hplace⟩
  · exact absurd hkind ((kind_leftoverError_ne _ _ _).1 _)

/-- A parameter that is a reserved word. -/
theorem reserved_word_in_place_of_parameter :
    ∃ e, parse "function f(a, cube) end" = .error e ∧ e.kind = .reservedWord "cube"
      ∧ e.position.offset = 14 ∧ ∃ ts c, InPlaceOfName "function f(a, cube) end" e "cube" ts c := by
  obtain ⟨e, he, hkind, hoffset⟩ : ∃ e, parse "function f(a, cube) end" = .error e
      ∧ e.kind = .reservedWord "cube" ∧ e.position.offset = 14 :=
    exists_error_of_decide (by decide +kernel)
  exact ⟨e, he, hkind, hoffset, reserved_word_in_place_of_name he hkind⟩

end SceneScript
