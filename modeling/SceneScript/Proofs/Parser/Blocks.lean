import SceneScript.Proofs.Parser.Lockstep
import SceneScript.Proofs.Parser.Yields

/-!
# Statements in lockstep

The rules for statements note more than those for expressions: where a block was opened, and which
word stands where a name is due.  `Blocks` says when two parsers stay in lockstep through that, if
where they may stand does not depend on how far an expression has been read.
-/

namespace SceneScript.Parser

open Rule

/-- Lockstep through statements. -/
structure Blocks (L : Lockstep) where
  uniform : L.Uniform
  /-- Places that are noted for messages. -/
  places : Cursor → Cursor → Prop
  place {m : Mode} {c d : Cursor} : L.cursors m c d → c.Settled → d.Settled → places c d
  reserved {c d : Cursor} (word : String) : places c d →
    L.aborts (.reservedWord c word) (.reservedWord d word)
  unclosed {m : Mode} {s t : State} {c d : Cursor} (word : String) : places c d →
    L.cursors m s.cursor t.cursor → s.cursor.Settled → t.cursor.Settled → L.states s t →
    L.states (s.blame (.unclosed word c)) (t.blame (.unclosed word d))

namespace Blocks

variable {L : Lockstep} {m n : Mode} {c d : Cursor} {s t : State}

/-- Two places of which both are known, or neither. -/
def OptionalPlaces (B : Blocks L) : Option Cursor → Option Cursor → Prop
  | some c, some d => B.places c d
  | none, none => True
  | _, _ => False

/-! ## Words -/

/-- The same word stands at both places, or at neither. -/
theorem word?_eq (h : L.cursors m c d) (hc : c.Settled) (hd : d.Settled) : c.word? = d.word? := by
  rcases L.next h hc hd with ⟨hn, hn'⟩ | ⟨t, c', d', hsome, hsome', _⟩
  · have hnone : ∀ e : Cursor, e.Settled → e.next? = none → e.word? = none := by
      intro e he hne
      rw [Option.eq_none_iff_forall_ne_some]
      intro w hw
      rw [(Cursor.word?_eq_some_iff he).1 hw] at hne
      cases hne
    rw [hnone c hc hn, hnone d hd hn']
  · apply Option.ext
    intro w
    rw [Cursor.word?_eq_some_iff hc, Cursor.word?_eq_some_iff hd, hsome, hsome']
    constructor
    · intro hw
      obtain ⟨rfl, _⟩ := Prod.mk.inj (Option.some.inj hw)
      rw [Cursor.eq_afterWord_of_next? hd hsome']
    · intro hw
      obtain ⟨rfl, _⟩ := Prod.mk.inj (Option.some.inj hw)
      rw [Cursor.eq_afterWord_of_next? hc hsome]

/-- The same symbol stands at both places, or at neither. -/
theorem isSome_afterSymbol? {symbol : String} {tok : Token} (hs : Cursor.IsSymbol symbol tok)
    (h : L.cursors m c d) (hc : c.Settled) (hd : d.Settled) :
    (c.afterSymbol? symbol).isSome = (d.afterSymbol? symbol).isSome := by
  rw [Bool.eq_iff_iff, Option.isSome_iff_exists, Option.isSome_iff_exists]
  simp only [Cursor.afterSymbol?_eq_some_iff hc hs, Cursor.afterSymbol?_eq_some_iff hd hs]
  rcases L.next h hc hd with ⟨hn, hn'⟩ | ⟨t, c', d', hsome, hsome', _⟩
  · simp [hn, hn']
  · simp [hsome, hsome']

/-- Behind the same word, the two still go in lockstep. -/
theorem cursors_afterWord (hu : L.Uniform) {word : String} (h : L.cursors m c d)
    (hc : c.Settled) (hd : d.Settled) (hw : c.word? = some word) :
    L.cursors m (c.afterWord word) (d.afterWord word) := by
  have hw' : d.word? = some word := (word?_eq h hc hd).symm.trans hw
  obtain ⟨n, hm⟩ := Mode.step_inside 0 (Token.ofWord word)
  have hin : L.cursors (.inside 0) c d := hu.cursors h
  rcases L.next hin hc hd with ⟨hn, _⟩ | ⟨tok, e, f, he, hf, hstep⟩
  · rw [(Cursor.word?_eq_some_iff hc).1 hw] at hn
    cases hn
  · rw [(Cursor.word?_eq_some_iff hc).1 hw] at he
    rw [(Cursor.word?_eq_some_iff hd).1 hw'] at hf
    obtain ⟨rfl, rfl⟩ := Prod.mk.inj (Option.some.inj he)
    obtain ⟨_, rfl⟩ := Prod.mk.inj (Option.some.inj hf)
    exact hu.cursors (hstep n hm)

/-! ## Opening and closing -/

theorem opening_paired (B : Blocks L) {word : String} (hw : Cursor.IsWord word) :
    Paired (L.At m) (fun v w s t => B.places v w ∧ L.At n s t) (L.At m) L.aborts
      (opening word) (opening word) := by
  refine (Lockstep.trivia_paired (V := fun _ _ => L.SettledAt m) fun _ _ hst => hst).bind
    fun _ _ => ?_
  intro s t hst
  have hmove := B.uniform.move_keyword (m := m) (n := n) hw s t hst
  show Reply.Paired _ _ _ ((move (Cursor.afterKeyword? word) >>= fun _ => pure s.cursor) s)
    ((move (Cursor.afterKeyword? word) >>= fun _ => pure t.cursor) t)
  rw [bind_apply, bind_apply]
  cases hx : move (Cursor.afterKeyword? word) s <;> cases hy : move (Cursor.afterKeyword? word) t <;>
    simp only [hx, hy, Reply.Paired] at hmove
  · exact ⟨B.place hst.1.1 hst.2.1 hst.2.2, hmove.2⟩
  · exact hmove.1
  · exact hmove

theorem closing_agree (B : Blocks L) (word : String) (hplace : B.places c d) :
    L.Agree m n (closing word c) (closing word d) := by
  refine Lockstep.Keeps.after_trivia ((B.uniform.move_keyword (by decide)).loose.orElse ?_)
  intro s t hst
  have hexpect := L.expect (.literal "end") hst.1.1 hst.2.1 hst.2.2 hst.1.2
  exact B.unclosed word hplace (s := s.expect (.literal "end")) (t := t.expect (.literal "end"))
    hst.1.1 hst.2.1 hst.2.2 hexpect

/-! ## Names -/

theorem name_keeps (B : Blocks L) : L.Keeps (L.SettledAt m) L.states n Rule.name Rule.name := by
  have hname := Lockstep.name_keeps (L := L) (m := .inside 0) (by decide)
  refine hname.mono (fun _ _ => B.uniform.settledAt) ?_ fun _ _ hst => hst
  rintro v w s t ⟨hvw, hst⟩
  exact ⟨hvw, B.uniform.at hst⟩

theorem dueName_firm (B : Blocks L) (what : Expectation) :
    L.Firm m n (dueName what) (dueName what) := by
  refine Lockstep.Keeps.after_trivia (Lockstep.Keeps.firm (B.name_keeps.orElse ?_))
  intro s t hst
  dsimp only
  rw [← word?_eq hst.1.1 hst.2.1 hst.2.2]
  split
  · exact B.reserved _ (B.place hst.1.1 hst.2.1 hst.2.2)
  · exact Lockstep.unmet_keeps what s t hst

theorem parameter_firm (B : Blocks L) : L.Firm m n parameter parameter := by
  refine Lockstep.Keeps.bind (B.dueName_firm .parameterName (n := n)) fun name => ?_
  have hcomma : L.Firm n n (Rule.symbol ",") (Rule.symbol ",") :=
    B.uniform.symbol Cursor.isSymbol_comma
  have hopt : L.Keeps (L.At n) (L.At m) n (optionally (Rule.symbol ","))
      (optionally (Rule.symbol ",")) :=
    Paired.optionally (hcomma.mono (fun _ _ hst => hst) (fun _ _ _ _ hst => hst)
      fun _ _ hst => ⟨rfl, hst⟩)
  exact hopt.bind fun _ => Lockstep.keeps_pure name

/-! ## Assignments -/

theorem localKeyword_paired (B : Blocks L) : Paired (L.At m)
    (fun v w s t => B.OptionalPlaces v w ∧ L.At m s t) (L.At m) L.aborts
    localKeyword localKeyword := by
  have hlocal : Paired (L.At m) (fun v w s t => B.OptionalPlaces v w ∧ L.At m s t) (L.At m)
      L.aborts (do return some (← opening "local")) (do return some (← opening "local")) := by
    refine (B.opening_paired (by decide) (n := m)).bind fun v w => ?_
    exact paired_pure fun s t hst => hst
  have hnone : Paired (L.At m) (fun v w s t => B.OptionalPlaces v w ∧ L.At m s t) (L.At m)
      L.aborts (pure none) (pure none) :=
    paired_pure fun s t hst => ⟨trivial, hst⟩
  exact hlocal.orElse (fun s t s' t' hst hst' => ⟨hst.1, L.moveTo _ _ hst'.2⟩) hnone

theorem unnamed_keeps (B : Blocks L) {place place' : Option Cursor}
    --  none =>|without a word, `local` itself may have been meant as the name
    --  some word =>|a word is reserved here, and is refused if a `=` is behind it
    (h : B.OptionalPlaces place place') :
    L.Keeps (L.SettledAt m) L.states n (unnamed place) (unnamed place') := by
  intro s t hst
  have hword := word?_eq hst.1.1 hst.2.1 hst.2.2
  have hplace := B.place hst.1.1 hst.2.1 hst.2.2
  unfold unnamed
  dsimp only
  cases hw : s.cursor.word? with
  | some word =>
    rw [hw] at hword
    rw [← hword]
    have hbehind := cursors_afterWord B.uniform hst.1.1 hst.2.1 hst.2.2 hw
    have hequals := isSome_afterSymbol? Cursor.isSymbol_equals (L.trivia hbehind)
      (Cursor.settled_afterTrivia _) (Cursor.settled_afterTrivia _)
    cases place <;> cases place' <;> simp only [OptionalPlaces] at h
    · dsimp only
      rw [hequals]
      split
      · exact B.reserved word hplace
      · exact hst.1.2
    · exact B.reserved word hplace
  | none =>
    rw [hw] at hword
    rw [← hword]
    have hequals := isSome_afterSymbol? Cursor.isSymbol_equals hst.1.1 hst.2.1 hst.2.2
    cases place <;> cases place' <;> simp only [OptionalPlaces] at h
    · exact hst.1.2
    · dsimp only
      rw [hequals]
      split
      · exact B.reserved "local" h
      · exact (Lockstep.unmet_keeps (n := n) .identifier).loose s t hst

theorem assignee_agree (B : Blocks L) : L.Agree m m assignee assignee := by
  have hlocal := B.localKeyword_paired.mono (R := L.states) (fun _ _ hst => hst)
    (fun _ _ _ _ hst => hst) fun _ _ (hst : L.At m _ _) => hst.2
  refine hlocal.bind fun place place' => ?_
  intro s t hst
  obtain ⟨hplace, hst⟩ := hst
  have htarget : L.Keeps (L.SettledAt m) L.states m (Rule.name.orElse (unnamed place))
      (Rule.name.orElse (unnamed place')) := B.name_keeps.orElse (B.unnamed_keeps hplace)
  have hisSome : place.isSome = place'.isSome := by
    cases place <;> cases place' <;> first | rfl | exact hplace.elim
  rw [hisSome]
  refine Lockstep.Keeps.after_trivia (L := L) (htarget.bind fun target => ?_) s t hst
  refine Lockstep.Keeps.bind (m := m)
    (B.uniform.dueSymbol Cursor.isSymbol_equals).agree fun _ => ?_
  exact Lockstep.keeps_pure (place'.isSome, target)

end Blocks

end SceneScript.Parser
