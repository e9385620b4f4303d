import SceneScript.Proofs.Grammar.Languages
import SceneScript.Proofs.Parser.Paired
import SceneScript.Proofs.Parser.Parses
import SceneScript.Proofs.Parser.Steady

/-!
# Two parsers in tandem

Two parsers go in tandem if they read the same tokens, and match and fail alike on the way.
`Tandem` says what that asks of the places where the two stand when some tokens have been read, and
of the rest of their states.  It leaves two ways out.  Where all that is found is a word for one and
another word or nothing for the other, the two still do the same if no word can come next there.
And once the first parser has looked `beyond` what the two have in common, nothing more is said of
it than that it has.

`T.Tracks P U ts L V x y` says of two rules that they keep this up: if all of `L` can come behind
`ts`, then from `P` both match, with values in `V`, and have read a phrase of `L`, or neither
matches and `U` is left.
-/

namespace SceneScript

namespace Cursor

/-- Nothing but perhaps a word stands here. -/
def Bare (c : Cursor) : Prop := c.isEnd = true ∨ ∃ word, c.word? = some word

variable {c d : Cursor}

/-- The only token at a bare place is a word. -/
theorem Bare.next? {t : Token} (h : c.Bare) (hc : c.Settled) (ht : c.next? = some (t, d)) :
    ∃ word, t = Token.ofWord word := by
  rcases h with hend | ⟨word, hword⟩
  · rw [next?_eq_none_of_isEnd (hc.symm ▸ hend)] at ht
    cases ht
  · rw [(word?_eq_some_iff hc).1 hword] at ht
    exact ⟨word, (Prod.mk.inj (Option.some.inj ht)).1.symm⟩

theorem Bare.number? (h : c.Bare) : c.number? = .ok none := by
  rcases h with hend | ⟨word, hword⟩
  · have hr : c.rest = [] := List.isEmpty_iff.1 hend
    simp [Cursor.number?, hr, Numeral.leading]
  · obtain ⟨x, rest, hr, hx⟩ := rest_eq_cons_of_word? hword
    exact number?_eq_none hr (isDigit_eq_false_of_isWordStart hx)

theorem Bare.text? (h : c.Bare) : c.text? = .ok none := by
  rcases h with hend | ⟨word, hword⟩
  · have hr : c.rest = [] := List.isEmpty_iff.1 hend
    simp [Cursor.text?, hr]
  · obtain ⟨x, rest, hr, hx⟩ := rest_eq_cons_of_word? hword
    refine text?_eq_none hr fun hquote => ?_
    rw [(isWordStart_eq_false_of_quote hquote).1] at hx
    cases hx

end Cursor

namespace Parser

open Grammar Cursor Computability

/-! ## What can stand where something is expected -/

/-- The phrases that an expectation speaks of. -/
def Expectation.phrases : Expectation → Language Token
  | .literal text => {ts | ∃ t, ts = [t] ∧ (IsSymbol text t ∨ IsWord text ∧ t = Token.ofWord text)}
  | .statement => Grammar.statements
  | .value => values
  | .identifier | .functionName | .parameterName => names

/-- The expectation is that of a name, whatever it is the name of. -/
def Expectation.IsName : Expectation → Prop
  | .identifier | .functionName | .parameterName => True
  | _ => False

/-- A spelling is that of one token. -/
theorem IsSymbol.unique {symbol : String} {t u : Token} (ht : IsSymbol symbol t)
    (hu : IsSymbol symbol u) : t = u := by
  obtain ⟨c, hc, hct⟩ := ht
  obtain ⟨d, hd, hdu⟩ := hu
  obtain ⟨rfl, _⟩ := List.cons.inj (hc.symm.trans hd)
  exact Option.some.inj (hct.symm.trans hdu)

theorem IsSymbol.not_isWord {symbol : String} {t : Token} (ht : IsSymbol symbol t) :
    ¬IsWord symbol := by
  rintro ⟨hstart, _⟩
  obtain ⟨c, hc, hct⟩ := ht
  rw [hc] at hstart
  have hfalse := (isWordStart_eq_false_of_ofChar? hct).1
  have htrue : isWordStart c = true := hstart
  rw [hfalse] at htrue
  cases htrue

theorem phrases_symbol {symbol : String} {t : Token} (ht : IsSymbol symbol t) :
    (Expectation.literal symbol).phrases = token t := by
  ext ts
  constructor
  · rintro ⟨u, rfl, hu | ⟨hword, _⟩⟩
    · rw [IsSymbol.unique ht hu]
      rfl
    · exact absurd hword (IsSymbol.not_isWord ht)
  · rintro rfl
    exact ⟨t, rfl, .inl ht⟩

theorem phrases_word {word : String} (hw : IsWord word) :
    (Expectation.literal word).phrases = token (Token.ofWord word) := by
  ext ts
  constructor
  · rintro ⟨u, rfl, hu | ⟨_, rfl⟩⟩
    · exact absurd hw (IsSymbol.not_isWord hu)
    · rfl
  · rintro rfl
    exact ⟨_, rfl, .inr ⟨hw, rfl⟩⟩

/-! ## Tandems -/

/-- What two parsers keep that go in tandem. -/
structure Tandem where
  /-- What may have been read. -/
  viable : Language Token
  viable_of_append {ts us : List Token} : ts ++ us ∈ viable → ts ∈ viable
  /-- Where the two stand when the tokens have been read. -/
  cursors : List Token → Cursor → Cursor → Prop
  /-- The rest of their states, where the cursors are of no account. -/
  states : State → State → Prop
  aborts : Abort → Abort → Prop
  /-- The offset is past what the two have in common. -/
  beyond : Nat → Prop
  beyond_of_le {p q : Nat} : p ≤ q → beyond p → beyond q
  not_beyond {ts : List Token} {c d : Cursor} : cursors ts c d → ¬beyond c.pos
  moveTo {s t : State} (c d : Cursor) : states s t → states (s.moveTo c) (t.moveTo d)
  trivia {ts : List Token} {c d : Cursor} : cursors ts c d →
    cursors ts c.afterTrivia d.afterTrivia
  /-- The same token comes next for both, or none for either, or no word can come next and nothing
  else is there. -/
  next {ts : List Token} {c d : Cursor} : cursors ts c d → c.Settled → d.Settled →
    (∃ t c' d', c.next? = some (t, c') ∧ d.next? = some (t, d') ∧
        (cursors (ts ++ [t]) c' d' ∨ beyond c'.pos))
      ∨ (c.next? = none ∧ d.next? = none)
      ∨ c.Bare ∧ d.Bare ∧ ∀ word, ts ++ [Token.ofWord word] ∉ viable
  number {ts : List Token} {s t : State} : cursors ts s.cursor t.cursor → s.cursor.Settled →
    t.cursor.Settled → s.cursor.next? = none → t.cursor.next? = none → ts ∈ viable → states s t →
    Reply.Paired (fun _ _ _ _ => False) states aborts (Rule.literal number? s)
      (Rule.literal number? t)
  text {ts : List Token} {s t : State} : cursors ts s.cursor t.cursor → s.cursor.Settled →
    t.cursor.Settled → s.cursor.next? = none → t.cursor.next? = none → ts ∈ viable → states s t →
    Reply.Paired (fun _ _ _ _ => False) states aborts (Rule.literal text? s)
      (Rule.literal text? t)
  expect {ts : List Token} {s t : State} (e : Expectation) : cursors ts s.cursor t.cursor →
    s.cursor.Settled → t.cursor.Settled → (∃ us, us ∈ e.phrases) →
    (∀ us ∈ e.phrases, ts ++ us ∈ viable) →
    (e.IsName → s.cursor.word? = none ∧ t.cursor.word? = none) →
    states s t → states (s.expect e) (t.expect e)
  unclosed {ts us : List Token} {s t : State} {c d : Cursor} {keyword : String} :
    cursors ts c d → c.Settled → d.Settled → IsOpen keyword us →
    cursors (ts ++ us) s.cursor t.cursor → s.cursor.Settled → t.cursor.Settled →
    ts ++ us ++ [word "end"] ∈ viable → states s t →
    states (s.blame (.unclosed keyword c)) (t.blame (.unclosed keyword d))
  tooDeep {ts : List Token} {c d : Cursor} : cursors ts c d → c.Settled → d.Settled →
    ts ∈ viable → aborts (.tooDeep c) (.tooDeep d)
  reserved {ts : List Token} {c d : Cursor} {word : String} : cursors ts c d → c.Settled →
    d.Settled → c.word? = some word → isReserved word = true →
    (∀ us ∈ names, ts ++ us ∈ viable) → aborts (.reservedWord c word) (.reservedWord d word)

namespace Tandem

open Rule

variable (T : Tandem) {α β γ δ : Type} {ts : List Token} {L M : Language Token}
variable {s t u w : State}

/-- The two have read the tokens. -/
def At (ts : List Token) (s t : State) : Prop := T.cursors ts s.cursor t.cursor ∧ T.states s t

/-- The two have read the tokens and stand before no trivia. -/
def SettledAt (ts : List Token) (s t : State) : Prop :=
  T.At ts s t ∧ s.cursor.Settled ∧ t.cursor.Settled

/-- All phrases of a kind can come behind the tokens. -/
def Allows (ts : List Token) (L : Language Token) : Prop := ∀ us ∈ L, ts ++ us ∈ T.viable

/-- The first parser has looked beyond what the two have in common. -/
def Gone (s : State) : Prop := T.beyond s.cursor.pos ∨ T.beyond s.farthest.place.pos

/-- An answer of the first parser after which it has looked beyond. -/
def Lost : Reply α → Prop
  | .matched _ s => T.Gone s
  | .unmatched s => T.beyond s.farthest.place.pos
  | .aborted _ => ∃ p, T.beyond p

/-- An answer of the second parser after which nothing is said: if something is beyond, a reserved
word may be refused because of what comes behind it. -/
def Excused (r : Reply α) : Prop :=
  (∃ place word, r = .aborted (.reservedWord place word)) ∧ ∃ p, T.beyond p

/-- The two answer alike, or the first has looked beyond. -/
def Alike (V : α → β → State → State → Prop) (U : State → State → Prop) (r : Reply α)
    (q : Reply β) : Prop :=
  Reply.Paired V U T.aborts r q ∨ T.Lost r ∨ T.Excused q

/-- From `P` the two rules read a phrase of `L` behind the tokens, and yield values in `V`, or do
not match and leave `U`, if all of `L` can come there. -/
def Tracks (P U : State → State → Prop) (ts : List Token) (L : Language Token) (V : α → β → Prop)
    (x : Rule α) (y : Rule β) : Prop :=
  T.Allows ts L → ∀ s t, P s t →
    T.Alike (fun v w s' t' => V v w ∧ ∃ us ∈ L, T.At (ts ++ us) s' t') U (x s) (y t)

/-- The rule reads a phrase of `L` behind any tokens.  Where it does not match, the cursors may be
anywhere. -/
def Explores (L : Language Token) (x : Rule α) : Prop :=
  ∀ ts, T.Tracks (T.At ts) T.states ts L Eq x x

/-- The rule reads a phrase of `L` behind any tokens, and passes nothing but trivia where it does
not match. -/
def Firm (L : Language Token) (x : Rule α) : Prop :=
  ∀ ts, T.Tracks (T.At ts) (T.At ts) ts L Eq x x

variable {T} {P P' U U' : State → State → Prop} {V V' : α → β → Prop} {W : γ → δ → Prop}
variable {x x' : Rule α} {y y' : Rule β}

/-! ## What is lost stays lost -/

/-- What has looked too far is not brought back. -/
theorem Gone.upto (h : T.Gone s) (hst : s.Upto t) : T.Gone t := by
  rcases h with h | h
  · exact .inl (T.beyond_of_le hst.cursor h)
  · exact .inr (T.beyond_of_le hst.farthest h)

theorem Gone.exists (h : T.Gone s) : ∃ p, T.beyond p := by
  rcases h with h | h <;> exact ⟨_, h⟩

theorem Lost.exists {r : Reply α} (h : T.Lost r) : ∃ p, T.beyond p := by
  cases r with
  | matched v s => exact Gone.exists h
  | unmatched s => exact ⟨_, h⟩
  | aborted a => exact h

/-- If nothing is beyond, the two answer alike. -/
theorem Alike.paired {V : α → β → State → State → Prop} {r : Reply α} {q : Reply β}
    (h : T.Alike V U r q) (hnone : ∀ p, ¬T.beyond p) : Reply.Paired V U T.aborts r q := by
  rcases h with hpair | hlost | ⟨_, p, hp⟩
  · exact hpair
  · obtain ⟨p, hp⟩ := hlost.exists
    exact absurd hp (hnone p)
  · exact absurd hp (hnone p)

/-- A loud rule leaves a mark of what it looked at. -/
theorem Gone.lost [hx : Loud x] (h : T.Gone s) : T.Lost (x s) := by
  cases hxs : x s with
  | matched v t => exact h.upto (Steady.matched hxs)
  | unmatched t =>
    rcases h with h | h
    · exact T.beyond_of_le (Loud.loud hxs) h
    · exact T.beyond_of_le (Steady.unmatched hxs).farthest h
  | aborted a => exact h.exists

/-- A mark that was left beyond stays there. -/
theorem lost_of_beyond [Steady x] (h : T.beyond s.farthest.place.pos) : T.Lost (x s) := by
  cases hxs : x s with
  | matched v t => exact .inr (T.beyond_of_le (Steady.matched hxs).farthest h)
  | unmatched t => exact T.beyond_of_le (Steady.unmatched hxs).farthest h
  | aborted a => exact ⟨_, h⟩

/-- If a sequence loses the two in its first part, it loses them. -/
theorem Lost.bind {f : α → Rule γ} (h : T.Lost (x s))
    (hf : ∀ v u, x s = .matched v u → T.Gone u → T.Lost (f v u)) : T.Lost ((x >>= f) s) := by
  rw [bind_apply]
  cases hx : x s <;> rw [hx] at h
  · exact hf _ _ hx h
  · exact h
  · exact h

/-- A rule that has looked too far has done so as the first of two choices. -/
theorem Lost.orElse [Steady x'] (h : T.Lost (x s)) : T.Lost (x.orElse x' s) := by
  cases hx : x s <;> rw [hx] at h
  · rw [orElse_of_matched hx]
    exact h
  · rw [orElse_of_unmatched hx]
    exact lost_of_beyond h
  · rw [orElse_of_aborted hx]
    exact h

theorem Lost.attempt (h : T.Lost (x s)) : T.Lost (x.attempt s) := by
  unfold Rule.attempt
  cases hx : x s <;> rw [hx] at h <;> exact h

theorem Lost.optionally {x : Rule Unit} (h : T.Lost (x s)) : T.Lost (x.optionally s) := by
  unfold Rule.optionally
  cases hx : x s <;> rw [hx] at h
  · exact h
  · exact .inr h
  · exact h

theorem many_of_matched (hx : Advances x) {v : α} (h : x s = .matched v t) :
    x.many s = (x.many t).map (v :: ·) := by
  rw [Rule.many, h]
  exact if_pos (hx s v t h)

theorem many_of_unmatched (h : x s = .unmatched t) : x.many s = .matched [] t := by
  rw [Rule.many, h]

theorem many_of_aborted {a : Abort} (h : x s = .aborted a) : x.many s = .aborted a := by
  rw [Rule.many, h]

/-- A repeated rule ends where the rule does not match, or it goes on behind a match. -/
theorem matched_many (hx : Advances x) {vs : List α} (h : x.many s = .matched vs t) :
    vs = [] ∧ x s = .unmatched t
      ∨ ∃ v more u, vs = v :: more ∧ x s = .matched v u ∧ x.many u = .matched more t := by
  cases hone : x s with
  | unmatched u =>
    rw [many_of_unmatched hone] at h
    cases h
    exact .inl ⟨rfl, rfl⟩
  | aborted a =>
    rw [many_of_aborted hone] at h
    cases h
  | matched v u =>
    rw [many_of_matched hx hone] at h
    cases hmore : x.many u <;> rw [hmore] at h <;> cases h
    exact .inr ⟨v, _, u, rfl, rfl, hmore⟩

/-- A rule that has looked too far in one round has done so in all of them. -/
theorem Lost.many [Steady x] (hadv : Advances x) (h : T.Lost (x s)) : T.Lost (x.many s) := by
  cases hx : x s <;> rw [hx] at h
  · rename_i v u
    have hmore : T.Lost (x.many u) := Gone.lost h
    rw [many_of_matched hadv hx]
    cases hmx : x.many u <;> rw [hmx] at hmore <;> exact hmore
  · rw [many_of_unmatched hx]
    exact .inr h
  · rw [many_of_aborted hx]
    exact h

/-! ## Weakening -/

theorem Allows.mono (h : T.Allows ts M) (hLM : L ≤ M) : T.Allows ts L :=
  fun us hus => h us (hLM hus)

/-- What can come before something can come. -/
theorem Allows.left [hM : Occurs M] (h : T.Allows ts (L * M)) : T.Allows ts L := by
  intro us hus
  -- some phrase of `M` can follow, and what may have been read is closed under beginnings
  obtain ⟨vs, hvs⟩ := hM.exists_mem
  have hmem := h (us ++ vs) (Language.append_mem_mul hus hvs)
  rw [← List.append_assoc] at hmem
  exact T.viable_of_append hmem

/-- Behind a phrase of the first kind all of the second can come. -/
theorem Allows.right {us : List Token} (h : T.Allows ts (L * M)) (hus : us ∈ L) :
    T.Allows (ts ++ us) M := by
  intro vs hvs
  rw [List.append_assoc]
  exact h _ (Language.append_mem_mul hus hvs)

theorem Allows.viable [hL : Occurs L] (h : T.Allows ts L) : ts ∈ T.viable := by
  obtain ⟨us, hus⟩ := hL.exists_mem
  exact T.viable_of_append (h us hus)

/-- Answers that are alike are so with less said of the values and of the states. -/
theorem Alike.mono {V V' : α → β → State → State → Prop} {r : Reply α} {q : Reply β}
    (h : T.Alike V U r q) (hV : ∀ v w s t, V v w s t → V' v w s t)
    (hU : ∀ s t, U s t → U' s t) : T.Alike V' U' r q :=
  h.imp_left fun hpair => hpair.mono hV hU

/-- Rules that keep together over some phrases do so over more. -/
theorem Tracks.mono (h : T.Tracks P U ts L V x y) (hLM : L ≤ M) : T.Tracks P U ts M V x y := by
  intro hM s t hst
  refine (h (hM.mono hLM) s t hst).mono ?_ fun _ _ hU => hU
  rintro v w s' t' ⟨hvw, us, hus, hat⟩
  exact ⟨hvw, us, mem_of_le hLM hus, hat⟩

/-- Two rules keep together from fewer states, with less said of where they are left. -/
theorem Tracks.weaken (h : T.Tracks P U ts L V x y) (hP : ∀ s t, P' s t → P s t)
    (hU : ∀ s t, U s t → U' s t) : T.Tracks P' U' ts L V x y :=
  fun hL s t hst => (h hL s t (hP s t hst)).mono (fun _ _ _ _ hV => hV) hU

/-- Where the rules do not match, the cursors are of no account. -/
theorem Tracks.anywhere (h : T.Tracks P (T.At ts) ts L V x y) : T.Tracks P T.states ts L V x y :=
  h.weaken (fun _ _ hst => hst) fun _ _ hst => hst.2

theorem Explores.mono (h : T.Explores L x) (hLM : L ≤ M) : T.Explores M x :=
  fun ts => (h ts).mono hLM

theorem Firm.mono (h : T.Firm L x) (hLM : L ≤ M) : T.Firm M x := fun ts => (h ts).mono hLM

theorem Firm.explores (h : T.Firm L x) : T.Explores L x :=
  fun ts => (h ts).anywhere

/-- What explores from any place does so from a settled one. -/
theorem Explores.settled (h : T.Explores L x) :
    T.Tracks (T.SettledAt ts) T.states ts L Eq x x :=
  (h ts).weaken (fun _ _ hst => hst.1) fun _ _ hst => hst

theorem Tracks.loose (h : T.Tracks P (T.SettledAt ts) ts L V x y) :
    T.Tracks P T.states ts L V x y :=
  h.weaken (fun _ _ hst => hst) fun _ _ hst => hst.1.2

theorem Tracks.firm (h : T.Tracks P (T.SettledAt ts) ts L V x y) :
    T.Tracks P (T.At ts) ts L V x y :=
  h.weaken (fun _ _ hst => hst) fun _ _ hst => hst.1

/-! ## Sequence -/

/-- Rules that read nothing keep together if their values do. -/
theorem tracks_pure {v : α} {w : β} (h : V v w) :
    T.Tracks (T.At ts) U ts 1 V (pure v) (pure w) := by
  intro _ s t hst
  exact .inl ⟨h, [], rfl, by simpa using hst⟩

/-- One rule after the other, where what the second does once the first has looked beyond is
given. -/
theorem Tracks.bind_of [Occurs M] {f : α → Rule γ} {g : β → Rule δ}
    (h : T.Tracks P U ts L V x y)
    (hfg : ∀ us v w, us ∈ L → V v w → T.Tracks (T.At (ts ++ us)) U (ts ++ us) M W (f v) (g w))
    (hlost : ∀ s t u v, P s t → x s = .matched v u → T.Gone u → T.Lost (f v u)) :
    T.Tracks P U ts (L * M) W (x >>= f) (y >>= g) := by
  intro hLM s t hst
  rcases h hLM.left s t hst with hpair | hgone | hexcused
  · rw [bind_apply, bind_apply]
    cases hx : x s <;> cases hy : y t <;> simp only [hx, hy, Reply.Paired] at hpair
    · -- both read a phrase of `L`, and the second rules go on behind it
      rename_i v s' w t'
      obtain ⟨hvw, us, hus, hat⟩ := hpair
      refine (hfg us v w hus hvw (hLM.right hus) s' t' hat).mono ?_ fun _ _ hU => hU
      rintro v' w' s'' t'' ⟨hvw', vs, hvs, hat'⟩
      rw [List.append_assoc] at hat'
      exact ⟨hvw', us ++ vs, Language.append_mem_mul hus hvs, hat'⟩
    · exact .inl hpair
    · exact .inl hpair
  · -- the first parser has looked beyond in the first part, and `hlost` keeps that
    exact .inr (.inl (hgone.bind fun v u => hlost s t u v hst))
  · obtain ⟨⟨place, word, hy⟩, hbeyond⟩ := hexcused
    exact .inr (.inr ⟨⟨place, word, aborted_bind hy⟩, hbeyond⟩)

/-- One after the other: the second rules keep together behind every phrase of the first. -/
theorem Tracks.bind [Occurs M] {f : α → Rule γ} {g : β → Rule δ} [∀ v, Loud (f v)]
    (h : T.Tracks P U ts L V x y)
    (hfg : ∀ us v w, us ∈ L → V v w → T.Tracks (T.At (ts ++ us)) U (ts ++ us) M W (f v) (g w)) :
    T.Tracks P U ts (L * M) W (x >>= f) (y >>= g) :=
  h.bind_of hfg fun _ _ _ _ _ _ hgone => hgone.lost

/-- A value made from what a rule yields. -/
theorem Tracks.map {make : α → γ} {make' : β → δ} (h : T.Tracks P U ts L V x y)
    (hW : ∀ v w, V v w → W (make v) (make' w)) :
    T.Tracks P U ts L W (x >>= fun v => pure (make v)) (y >>= fun w => pure (make' w)) := by
  have hbind := h.bind (M := 1) fun us _ _ _ hvw => tracks_pure (hW _ _ hvw)
  rwa [mul_one] at hbind

/-- One after the other, for a rule and itself. -/
theorem Explores.bind [Occurs M] {f : α → Rule β} [∀ v, Loud (f v)] (h : T.Explores L x)
    (hf : ∀ v, T.Explores M (f v)) : T.Explores (L * M) (x >>= f) := by
  refine fun ts => (h ts).bind ?_
  rintro us v _ _ rfl
  exact hf v (ts ++ us)

theorem Tracks.congr (make : α → γ) {x y : Rule α} (h : T.Tracks P U ts L Eq x y) :
    T.Tracks P U ts L Eq (x >>= fun v => pure (make v)) (y >>= fun v => pure (make v)) :=
  h.map fun _ _ hvw => congrArg make hvw

theorem Explores.map {make : α → β} (h : T.Explores L x) :
    T.Explores L (x >>= fun v => pure (make v)) :=
  fun ts => (h ts).congr make

/-- Rules behind trivia. -/
theorem Tracks.afterTrivia {f : Unit → Rule α} {g : Unit → Rule β}
    (h : T.Tracks (T.SettledAt ts) U ts L V (f ()) (g ())) :
    T.Tracks (T.At ts) U ts L V (Rule.trivia >>= f) (Rule.trivia >>= g) := by
  intro hL s t hst
  have hsettled : T.SettledAt ts (s.moveTo s.cursor.afterTrivia) (t.moveTo t.cursor.afterTrivia) :=
    ⟨⟨T.trivia hst.1, T.moveTo _ _ hst.2⟩, settled_afterTrivia _, settled_afterTrivia _⟩
  exact h hL _ _ hsettled

/-! ## Choice -/

/-- Sent back to where they were, the two stand again where the same tokens have been read. -/
theorem settledAt_back (h : T.SettledAt ts s t) (hst : T.states u w) :
    T.SettledAt ts (u.moveTo s.cursor) (w.moveTo t.cursor) :=
  ⟨⟨h.1.1, T.moveTo _ _ hst⟩, h.2⟩

theorem at_back (h : T.At ts s t) (hst : T.states u w) :
    T.At ts (u.moveTo s.cursor) (w.moveTo t.cursor) :=
  ⟨h.1, T.moveTo _ _ hst⟩

/-- The second alternatives start from what the first ones leave. -/
theorem Tracks.orElse [Steady x'] (h : T.Tracks P T.states ts L V x y)
    (hback : ∀ s t u w, P s t → T.states u w → P (u.moveTo s.cursor) (w.moveTo t.cursor))
    (h' : T.Tracks P U ts L V x' y') : T.Tracks P U ts L V (x.orElse x') (y.orElse y') := by
  intro hL s t hst
  rcases h hL s t hst with hpair | hgone | hexcused
  · cases hx : x s <;> cases hy : y t <;> simp only [hx, hy, Reply.Paired] at hpair
    · rw [orElse_of_matched hx, orElse_of_matched hy]
      exact .inl hpair
    · -- both go back, and their states agree apart from the cursors
      rw [orElse_of_unmatched hx, orElse_of_unmatched hy]
      exact h' hL _ _ (hback _ _ _ _ hst hpair)
    · rw [orElse_of_aborted hx, orElse_of_aborted hy]
      exact .inl hpair
  · exact .inr (.inl hgone.orElse)
  · obtain ⟨⟨place, word, hy⟩, hbeyond⟩ := hexcused
    exact .inr (.inr ⟨⟨place, word, orElse_of_aborted hy⟩, hbeyond⟩)

/-- Two choices keep together if both of each do, where nothing has to be skipped first. -/
theorem Tracks.orElse_settled [Steady x'] (h : T.Tracks (T.SettledAt ts) T.states ts L V x y)
    (h' : T.Tracks (T.SettledAt ts) U ts L V x' y') :
    T.Tracks (T.SettledAt ts) U ts L V (x.orElse x') (y.orElse y') :=
  h.orElse (fun _ _ _ _ hst hback => settledAt_back hst hback) h'

/-- Two choices keep together if both of each do, with trivia still to be skipped. -/
theorem Tracks.orElse_at [Steady x'] (h : T.Tracks (T.At ts) T.states ts L V x y)
    (h' : T.Tracks (T.At ts) U ts L V x' y') :
    T.Tracks (T.At ts) U ts L V (x.orElse x') (y.orElse y') :=
  h.orElse (fun _ _ _ _ hst hback => at_back hst hback) h'

theorem tracks_firstOf_nil : T.Tracks P P ts L V (firstOf []) (firstOf []) :=
  fun _ _ _ hst => .inl hst

/-- Putting the cursor back leaves the rest of what an unmatched rule did. -/
theorem Tracks.attempt (h : T.Tracks P T.states ts L V x y)
    (hback : ∀ s t u w, P s t → T.states u w → P (u.moveTo s.cursor) (w.moveTo t.cursor)) :
    T.Tracks P P ts L V x.attempt y.attempt := by
  intro hL s t hst
  rcases h hL s t hst with hpair | hgone | ⟨⟨place, word, hy⟩, hbeyond⟩
  · unfold Rule.attempt
    cases hx : x s <;> cases hy : y t <;> simp only [hx, hy, Reply.Paired] at hpair
    · exact .inl hpair
    · exact .inl (hback _ _ _ _ hst hpair)
    · exact .inl hpair
  · exact .inr (.inl hgone.attempt)
  · refine .inr (.inr ⟨⟨place, word, ?_⟩, hbeyond⟩)
    unfold Rule.attempt
    rw [hy]

/-- A rule that goes back if it does not match leaves the two where they were. -/
theorem Explores.attempt (h : T.Explores L x) : T.Firm L x.attempt :=
  fun ts => (h ts).attempt fun _ _ _ _ hst hback => at_back hst hback

/-- Something else could have stood here, a name only where there is no word. -/
theorem SettledAt.unmet {e : Expectation} [hocc : Occurs L] (h : T.SettledAt ts s t)
    (he : e.phrases = L) (hname : e.IsName → s.cursor.word? = none ∧ t.cursor.word? = none)
    (hL : T.Allows ts L) : T.SettledAt ts (s.expect e) (t.expect e) := by
  subst he
  exact ⟨⟨h.1.1, T.expect e h.1.1 h.2.1 h.2.2 hocc.exists_mem hL hname h.1.2⟩, h.2⟩

/-- Both expect the same thing, and neither matches. -/
theorem tracks_unmet {e : Expectation} [Occurs L] (he : e.phrases = L) (hname : ¬e.IsName) :
    T.Tracks (T.SettledAt ts) (T.SettledAt ts) ts L V (unmet e : Rule α) (unmet e : Rule β) :=
  fun hL _ _ hst => .inl (hst.unmet he (fun h => absurd h hname) hL)

/-! ## Repetition -/

/-- A rule that may be left out. -/
theorem Firm.optionally {x : Rule Unit} (h : T.Firm L x) :
    T.Tracks (T.At ts) U ts (1 + L) Eq x.optionally x.optionally := by
  intro hL s t hst
  have hL' : T.Allows ts L := fun us hus => hL us (.inr hus)
  rcases h ts hL' s t hst with hpair | hgone | ⟨⟨place, word, hy⟩, hbeyond⟩
  · unfold Rule.optionally
    cases hx : x s <;> cases hy : x t <;> simp only [hx, hy, Reply.Paired] at hpair
    · obtain ⟨_, us, hus, hat⟩ := hpair
      exact .inl ⟨rfl, us, .inr hus, hat⟩
    · exact .inl ⟨rfl, [], .inl rfl, by simpa using hpair⟩
    · exact .inl hpair
  · exact .inr (.inl hgone.optionally)
  · refine .inr (.inr ⟨⟨place, word, ?_⟩, hbeyond⟩)
    unfold Rule.optionally
    rw [hy]

/-- A rule that always goes on is repeated until it does not match. -/
theorem Firm.many [Steady x] (h : T.Firm L x) (hadv : Advances x) :
    T.Tracks (T.At ts) U ts L∗ Eq x.many x.many := by
  intro hL s t hst
  -- induction on what is left of the first source: each round reads something
  induction hn : s.cursor.rest.length using Nat.strongRecOn generalizing ts s t with
  | ind n ih =>
    have hone : T.Allows ts L := hL.mono (le_kstar (a := L))
    rcases h ts hone s t hst with hpair | hgone | hexcused
    · cases hx : x s <;> cases hy : x t <;> simp only [hx, hy, Reply.Paired] at hpair
      · rename_i v s' w t'
        obtain ⟨rfl, us, hus, hat⟩ := hpair
        have hstep : L * L∗ ≤ L∗ := mul_kstar_le_kstar
        have hmore := ih _ (hn ▸ hadv s v s' hx) ((hL.mono hstep).right hus) s' t' hat rfl
        rw [many_of_matched hadv hx, many_of_matched hadv hy]
        -- the first item is put in front of whatever the other rounds answer
        rcases hmore with hpair | hgone | hexcused
        · cases hmx : x.many s' <;> cases hmy : x.many t' <;>
            simp only [hmx, hmy, Reply.Paired] at hpair
          · obtain ⟨rfl, vs, hvs, hat⟩ := hpair
            rw [List.append_assoc] at hat
            exact .inl ⟨rfl, us ++ vs, hstep (Language.append_mem_mul hus hvs), hat⟩
          · exact absurd hmx (many_ne_unmatched _ _ _)
          · exact .inl hpair
        · refine .inr (.inl ?_)
          cases hmx : x.many s' <;> rw [hmx] at hgone <;> exact hgone
        · obtain ⟨⟨place, word, hmy⟩, hbeyond⟩ := hexcused
          refine .inr (.inr ⟨⟨place, word, ?_⟩, hbeyond⟩)
          rw [hmy]
          rfl
      · rw [many_of_unmatched hx, many_of_unmatched hy]
        exact .inl ⟨rfl, [], Language.nil_mem_kstar L, by simpa using hpair⟩
      · rw [many_of_aborted hx, many_of_aborted hy]
        exact .inl hpair
    · exact .inr (.inl (hgone.many hadv))
    · obtain ⟨⟨place, word, hy⟩, hbeyond⟩ := hexcused
      exact .inr (.inr ⟨⟨place, word, many_of_aborted hy⟩, hbeyond⟩)

end Tandem

end Parser

end SceneScript
