import SceneScript.Proofs.Number.Json

/-!
# JSON texts are read in one way

A text is that of one value at most, and where a value's text ends in a longer text can be told, as long
as what follows does not go on a number.  The first character tells what kind of value it is.  Strings
end at the first quote that is not escaped, lists and objects at the bracket behind their last part, and
numbers where no more of their characters follow.
-/

namespace SceneScript.Json

/-- The text does not go on a number before it. -/
def Stops (rest : List Char) : Prop :=
  ∀ c, rest.head? = some c → isNumberChar c = false

/-- The text does not go on blanks before it. -/
def Dark (rest : List Char) : Prop :=
  ∀ c, rest.head? = some c → isBlank c = false

/-- What has this text has no other value, and where the text ends can be told, whatever follows that
does not go on a number. -/
def Told {α : Type} (is : α → List Char → Prop) (x : α) : Prop :=
  ∀ y a b r s, is x a → is y b → Stops r → Stops s → a ++ r = b ++ s → x = y ∧ r = s

variable {c d : Char} {a b r s : List Char}

/-- Texts of characters of one sort, with other characters behind them, can be told. -/
theorem eq_of_append_eq {p : Char → Bool} (ha : ∀ c ∈ a, p c = true)
    (hb : ∀ c ∈ b, p c = true) (hr : ∀ c, r.head? = some c → p c = false)
    (hs : ∀ c, s.head? = some c → p c = false) (h : a ++ r = b ++ s) : a = b ∧ r = s := by
  have hstop : ∀ {rest : List Char}, (∀ c, rest.head? = some c → p c = false) →
      rest.takeWhile p = [] := by
    intro rest hrest
    cases rest with
    | nil => rfl
    | cons c rest => rw [List.takeWhile_cons, hrest c rfl]; rfl
  have htext := congrArg (List.takeWhile p) h
  rw [List.takeWhile_append_of_pos ha, List.takeWhile_append_of_pos hb, hstop hr, hstop hs,
    List.append_nil, List.append_nil] at htext
  subst htext
  exact ⟨rfl, List.append_cancel_left h⟩

theorem stops_cons (h : isNumberChar c = false) (rest : List Char) : Stops (c :: rest) := by
  intro d hd
  cases hd
  exact h

theorem dark_cons (h : isBlank c = false) (rest : List Char) : Dark (c :: rest) := by
  intro d hd
  cases hd
  exact h

/-- Blanks do not go on a number. -/
theorem Blank.stops (ha : Blank a) (hr : Stops r) : Stops (a ++ r) := by
  cases a with
  | nil => exact hr
  | cons c a =>
    have hc := ha c (List.mem_cons_self ..)
    simp only [isBlank, Bool.or_eq_true, beq_iff_eq] at hc
    refine stops_cons ?_ _
    obtain ((rfl | rfl) | rfl) | rfl := hc <;> rfl

/-- What stands behind blanks can be told. -/
theorem Blank.eq_of_append_eq (ha : Blank a) (hb : Blank b) (hr : Dark r) (hs : Dark s)
    (h : a ++ r = b ++ s) : r = s :=
  (Json.eq_of_append_eq ha hb hr hs h).2

/-! ## Numbers and strings -/

/-- A number ends where no more of its characters follow. -/
theorem told_number (x : Binary64) : Told IsNumber x := by
  rintro y a b r s hx hy hr hs h
  obtain ⟨m, hm, rfl, hmx⟩ := id hx
  obtain ⟨n, hn, rfl, hny⟩ := id hy
  obtain ⟨htext, hrest⟩ := eq_of_append_eq (fun c => NumberParts.isNumberChar_of_mem_text hm)
    (fun c => NumberParts.isNumberChar_of_mem_text hn) hr hs h
  exact ⟨hx.unique (htext ▸ hy), hrest⟩

/-- The character whose code stands first, or two of whose surrogates do, and what follows it. -/
def unescapeCode : List Char → Option (Char × List Char)
  | h :: i :: j :: k :: rest => do
    let code ← codeUnit? h i j k
    if 0xd800 ≤ code ∧ code < 0xdc00 then
      match rest with
      | '\\' :: 'u' :: h :: i :: j :: k :: rest =>
        return (Char.ofNat (ofSurrogates code (← codeUnit? h i j k)), rest)
      | _ => none
    else return (Char.ofNat code, rest)
  | _ => none

/-- The character that stands first inside a string, and what follows it. -/
def unescape : List Char → Option (Char × List Char)
  | c :: rest =>
    if c = '\\' then
      match rest with
      | letter :: rest =>
        if letter = 'u' then unescapeCode rest else (shortEscapes.lookup letter).map (·, rest)
      | [] => none
    else some (c, rest)
  | [] => none

theorem unescape_u (rest : List Char) : unescape ('\\' :: 'u' :: rest) = unescapeCode rest := rfl

/-- A character is no surrogate. -/
theorem not_surrogate (c : Char) : ¬(0xd800 ≤ c.toNat ∧ c.toNat < 0xdc00) := by
  have hvalid : c.toNat < 0xd800 ∨ 0xdfff < c.toNat ∧ c.toNat < 0x110000 := c.valid
  omega

/-- A character is read back from its escape, whatever follows. -/
theorem unescape_append (h : IsEscape c a) (rest : List Char) :
    unescape (a ++ rest) = some (c, rest) := by
  cases h with
  | itself _ hslash _ => exact if_neg hslash
  | short hmem =>
    have htable : ∀ p ∈ shortEscapes, p.1 ≠ 'u' ∧ shortEscapes.lookup p.1 = some p.2 := by decide
    obtain ⟨hletter, hlookup⟩ := htable _ hmem
    show (if _ = 'u' then unescapeCode rest else (shortEscapes.lookup _).map (·, rest)) = _
    rw [if_neg hletter, hlookup, Option.map_some]
  | code hcode =>
    rw [List.cons_append, List.cons_append, unescape_u]
    simp [unescapeCode, hcode, not_surrogate c]
  | pair hhigh hlow hle hlt hle' hlt' hpair =>
    rw [List.cons_append, List.cons_append, unescape_u]
    simp [unescapeCode, hhigh, hlow, hle, hlt, hpair]

/-- No escape begins with the quote that ends a string. -/
theorem IsEscape.append_ne_quote (h : IsEscape c a) (rest more : List Char) :
    a ++ rest ≠ '"' :: more := by
  cases h with
  | itself hquote _ _ => exact fun h => hquote (List.cons.inj h).1
  | short | code | pair => exact nofun

/-- A string ends at the first quote that is not escaped. -/
theorem IsInside.unique {cs ds : List Char} (ha : IsInside cs a) (hb : IsInside ds b)
    (h : a ++ '"' :: r = b ++ '"' :: s) : cs = ds ∧ r = s := by
  induction ha generalizing ds b with
  | nil =>
    cases hb with
    | nil => exact ⟨rfl, (List.cons.inj h).2⟩
    | cons hd _ =>
      rw [List.append_assoc] at h
      exact absurd h.symm (hd.append_ne_quote _ _)
  | cons hc _ ih =>
    cases hb with
    | nil =>
      rw [List.append_assoc] at h
      exact absurd h (hc.append_ne_quote _ _)
    | cons hd hds =>
      rw [List.append_assoc, List.append_assoc] at h
      have hread := congrArg unescape h
      rw [unescape_append hc, unescape_append hd, Option.some.injEq, Prod.mk.injEq] at hread
      obtain ⟨rfl, hrest⟩ := hread
      obtain ⟨rfl, hsame⟩ := ih hds hrest
      exact ⟨rfl, hsame⟩

theorem IsString.unique {x y : String} (ha : IsString x a) (hb : IsString y b)
    (h : a ++ r = b ++ s) : x = y ∧ r = s := by
  obtain ⟨hx⟩ := ha
  obtain ⟨hy⟩ := hb
  rw [List.cons_append, List.cons_append, List.append_assoc, List.append_assoc] at h
  obtain ⟨htext, hrest⟩ := hx.unique hy (List.cons.inj h).2
  exact ⟨String.toList_inj.1 htext, hrest⟩

/-! ## Parts between brackets -/

section Parts

variable {α : Type} {is : α → List Char → Prop} {close : Char} {xs ys : List α}

/-- A bracket neither goes on what is before it nor is a comma. -/
theorem closing_facts (hclose : close ∈ [']', '\x7d']) :
    isNumberChar close = false ∧ isBlank close = false ∧ close ≠ ',' := by
  simp only [List.mem_cons, List.not_mem_nil, or_false] at hclose
  rcases hclose with rfl | rfl <;> decide

/-- The parts' texts begin neither with a blank nor with the closing bracket. -/
def Distinct (is : α → List Char → Prop) (close : Char) : Prop :=
  ∀ x text, is x text → ∃ c rest, text = c :: rest ∧ isBlank c = false ∧ c ≠ close

theorem Distinct.dark (h : Distinct is close) {x : α} (hx : is x a) (rest : List Char) :
    Dark (a ++ rest) := by
  obtain ⟨c, text, rfl, hblank, -⟩ := h x a hx
  exact dark_cons hblank _

theorem Distinct.ne (h : Distinct is close) {x : α} (hx : is x a) (rest more : List Char) :
    a ++ rest ≠ close :: more := by
  obtain ⟨c, text, rfl, -, hne⟩ := h x a hx
  exact fun heq => hne (List.cons.inj heq).1

theorem IsFollowing.stops (hclose : close ∈ [']', '\x7d']) (h : IsFollowing is close xs a)
    (rest : List Char) : Stops (a ++ rest) := by
  cases h with
  | close hblanks =>
    rw [List.append_assoc]
    exact hblanks.stops (stops_cons (closing_facts hclose).1 _)
  | comma hblanks _ _ _ =>
    rw [List.append_assoc]
    exact hblanks.stops (stops_cons (by decide) _)

/-- Parts that follow another one end at the first bracket behind a part. -/
theorem IsFollowing.unique (hclose : close ∈ [']', '\x7d']) (hdistinct : Distinct is close)
    (hxs : ∀ x ∈ xs, Told is x) (ha : IsFollowing is close xs a) (hb : IsFollowing is close ys b)
    (h : a ++ r = b ++ s) : xs = ys ∧ r = s := by
  obtain ⟨-, hdark, hcomma⟩ := closing_facts hclose
  have hdarkComma : isBlank ',' = false := rfl
  -- the induction is on the first reading; both go on with a comma, or both close
  induction ha generalizing ys b with
  | close hblanks =>
    cases hb with
    | close hblanks' =>
      rw [List.append_assoc, List.append_assoc] at h
      have hrest := hblanks.eq_of_append_eq hblanks' (dark_cons hdark _) (dark_cons hdark _) h
      exact ⟨rfl, (List.cons.inj hrest).2⟩
    | comma hblanks' =>
      rw [List.append_assoc, List.append_assoc] at h
      have hrest := hblanks.eq_of_append_eq hblanks' (dark_cons hdark _) (dark_cons hdarkComma _) h
      exact absurd (List.cons.inj hrest).1 hcomma
  | comma hblanks hmore hx hrest ih =>
    cases hb with
    | close hblanks' =>
      rw [List.append_assoc, List.append_assoc] at h
      have hrest := hblanks.eq_of_append_eq hblanks' (dark_cons hdarkComma _) (dark_cons hdark _) h
      exact absurd (List.cons.inj hrest).1.symm hcomma
    | comma hblanks' hmore' hy hrest' =>
      rw [List.forall_mem_cons] at hxs
      simp only [List.append_assoc, List.cons_append] at h
      have hbehind := (List.cons.inj (hblanks.eq_of_append_eq hblanks' (dark_cons hdarkComma _)
        (dark_cons hdarkComma _) h)).2
      -- behind the comma the next part is told apart, and then what follows it
      have htexts := hmore.eq_of_append_eq hmore' (hdistinct.dark hx _) (hdistinct.dark hy _) hbehind
      obtain ⟨rfl, hsame⟩ := hxs.1 _ _ _ _ _ hx hy (hrest.stops hclose _) (hrest'.stops hclose _)
        htexts
      obtain ⟨rfl, hfollowing⟩ := ih hxs.2 hrest' hsame
      exact ⟨rfl, hfollowing⟩

/-- Parts between brackets can be told if each of them can. -/
theorem IsParts.unique (hclose : close ∈ [']', '\x7d']) (hdistinct : Distinct is close)
    (hxs : ∀ x ∈ xs, Told is x) (ha : IsParts is close xs a) (hb : IsParts is close ys b)
    (h : a ++ r = b ++ s) : xs = ys ∧ r = s := by
  obtain ⟨-, hdark, -⟩ := closing_facts hclose
  cases ha with
  | empty hblanks =>
    cases hb with
    | empty hblanks' =>
      rw [List.append_assoc, List.append_assoc] at h
      have hrest := hblanks.eq_of_append_eq hblanks' (dark_cons hdark _) (dark_cons hdark _) h
      exact ⟨rfl, (List.cons.inj hrest).2⟩
    | cons hblanks' hy _ =>
      rw [List.append_assoc, List.append_assoc, List.append_assoc] at h
      have hrest := hblanks.eq_of_append_eq hblanks' (dark_cons hdark _) (hdistinct.dark hy _) h
      exact absurd hrest.symm (hdistinct.ne hy _ _)
  | cons hblanks hx hfollowing =>
    cases hb with
    | empty hblanks' =>
      rw [List.append_assoc, List.append_assoc, List.append_assoc] at h
      have hrest := hblanks.eq_of_append_eq hblanks' (hdistinct.dark hx _) (dark_cons hdark _) h
      exact absurd hrest (hdistinct.ne hx _ _)
    | cons hblanks' hy hfollowing' =>
      rw [List.forall_mem_cons] at hxs
      simp only [List.append_assoc] at h
      have htexts := hblanks.eq_of_append_eq hblanks' (hdistinct.dark hx _) (hdistinct.dark hy _) h
      obtain ⟨rfl, hsame⟩ := hxs.1 _ _ _ _ _ hx hy (hfollowing.stops hclose _)
        (hfollowing'.stops hclose _) htexts
      obtain ⟨rfl, hrest⟩ := hfollowing.unique hclose hdistinct hxs.2 hfollowing' hsame
      exact ⟨rfl, hrest⟩

end Parts

/-! ## Values -/

/-- The kinds of value. -/
inductive Kind where
  | bool
  | number
  | text
  | list
  | object

/-- The kind of a value. -/
def kind : Json → Kind
  | .bool _ => .bool
  | .number _ => .number
  | .text _ => .text
  | .list _ => .list
  | .object _ => .object

/-- What kind of value begins with a character, if any does. -/
def Kind.ofChar? (c : Char) : Option Kind :=
  if c = '-' ∨ c.isDigit then some .number
  else match c with
    | '"' => some .text
    | '[' => some .list
    | '\x7b' => some .object
    | 't' | 'f' => some .bool
    | _ => none

variable {v w : Json} {items : List Json} {fields : List (String × Json)}

/-- The first character of a value tells its kind. -/
theorem IsText.exists_first (h : IsText v a) :
    ∃ c rest, a = c :: rest ∧ Kind.ofChar? c = some v.kind := by
  cases h with
  | bool value => cases value <;> exact ⟨_, _, rfl, rfl⟩
  | number hx =>
    obtain ⟨n, hn, rfl, -⟩ := hx
    obtain ⟨c, hhead, hc⟩ := NumberParts.head?_text hn
    obtain ⟨rest, hrest⟩ := List.head?_eq_some_iff.1 hhead
    exact ⟨c, rest, hrest, if_pos hc⟩
  | text hs =>
    obtain ⟨_⟩ := hs
    exact ⟨'"', _, rfl, rfl⟩
  | list | object => exact ⟨_, _, rfl, rfl⟩

/-- Values with the same text are of the same kind. -/
theorem IsText.kind_eq (ha : IsText v a) (hb : IsText w b) (h : a ++ r = b ++ s) :
    v.kind = w.kind := by
  obtain ⟨c, rest, rfl, hc⟩ := ha.exists_first
  obtain ⟨d, more, rfl, hd⟩ := hb.exists_first
  rw [(List.cons.inj h).1, hd] at hc
  exact (Option.some.inj hc).symm

/-- No value begins with a blank or with the bracket that ends a list. -/
theorem distinct_isText : Distinct IsText ']' := by
  intro v a h
  obtain ⟨c, rest, rfl, hc⟩ := h.exists_first
  refine ⟨c, rest, rfl, Bool.eq_false_iff.2 ?_, ?_⟩
  · intro hblank
    simp only [isBlank, Bool.or_eq_true, beq_iff_eq] at hblank
    obtain ((rfl | rfl) | rfl) | rfl := hblank <;> cases hc
  · rintro rfl
    cases hc

theorem distinct_isField {is : Json → List Char → Prop} : Distinct (IsField is) '\x7d' := by
  rintro _ _ ⟨⟨_⟩, _, _, _⟩
  exact ⟨'"', _, rfl, by decide, by decide⟩

/-- A field can be told if its value can. -/
theorem told_field {key : String} (h : Told IsText v) : Told (IsField IsText) (key, v) := by
  rintro _ _ _ r s ⟨hname, hblanks, hmore, hv⟩ ⟨hname', hblanks', hmore', hw⟩ hr hs heq
  have hdark : isBlank ':' = false := rfl
  simp only [List.append_assoc, List.cons_append] at heq
  obtain ⟨rfl, hcolon⟩ := hname.unique hname' heq
  have hvalue := (List.cons.inj (hblanks.eq_of_append_eq hblanks' (dark_cons hdark _)
    (dark_cons hdark _) hcolon)).2
  have htext := hmore.eq_of_append_eq hmore' (distinct_isText.dark hv _) (distinct_isText.dark hw _)
    hvalue
  obtain ⟨rfl, hrest⟩ := h _ _ _ _ _ hv hw hr hs htext
  exact ⟨rfl, hrest⟩

mutual

/-- A value can be told from its text, whatever follows. -/
theorem told_text : (v : Json) → Told IsText v
  | .bool value => by
    intro w a b r s ha hb hr hs h
    -- the first character tells the kind, and then the parts of that kind are told apart
    have hkind := ha.kind_eq hb h
    cases w <;> cases hkind
    rename_i other
    cases ha
    cases hb
    cases value <;> cases other
    · exact ⟨rfl, List.append_cancel_left h⟩
    · cases h
    · cases h
    · exact ⟨rfl, List.append_cancel_left h⟩
  | .number value => by
    rintro w a b r s ha hb hr hs h
    have hkind := ha.kind_eq hb h
    cases w <;> cases hkind
    cases ha with | number hx
    cases hb with | number hy
    obtain ⟨rfl, hrest⟩ := told_number value _ _ _ _ _ hx hy hr hs h
    exact ⟨rfl, hrest⟩
  | .text value => by
    rintro w a b r s ha hb hr hs h
    have hkind := ha.kind_eq hb h
    cases w <;> cases hkind
    cases ha with | text hx
    cases hb with | text hy
    obtain ⟨rfl, hrest⟩ := hx.unique hy h
    exact ⟨rfl, hrest⟩
  | .list items => by
    rintro w a b r s ha hb hr hs h
    have hkind := ha.kind_eq hb h
    cases w <;> cases hkind
    cases ha with | list hx
    cases hb with | list hy
    obtain ⟨rfl, hrest⟩ := hx.unique (by decide) distinct_isText (told_items items) hy
      (List.cons.inj h).2
    exact ⟨rfl, hrest⟩
  | .object fields => by
    rintro w a b r s ha hb hr hs h
    have hkind := ha.kind_eq hb h
    cases w <;> cases hkind
    cases ha with | object hx
    cases hb with | object hy
    obtain ⟨rfl, hrest⟩ := hx.unique (by decide) distinct_isField (told_fields fields) hy
      (List.cons.inj h).2
    exact ⟨rfl, hrest⟩

theorem told_items : (items : List Json) → ∀ item ∈ items, Told IsText item
  | [] => nofun
  | item :: items => List.forall_mem_cons.2 ⟨told_text item, told_items items⟩

theorem told_fields : (fields : List (String × Json)) → ∀ field ∈ fields,
    Told (IsField IsText) field
  | [] => nofun
  | (_, value) :: fields => List.forall_mem_cons.2 ⟨told_field (told_text value), told_fields fields⟩

end

/-- A text is that of one value. -/
theorem IsText.unique (ha : IsText v a) (hb : IsText w a) : v = w := by
  have hstops : Stops [] := fun _ hc => by cases hc
  exact (told_text v w a a [] [] ha hb hstops hstops rfl).1

/-- A printer has a text for every value, and values with the same text are the same. -/
theorem Prints.exists_text {printer : Printer} (h : Prints printer) (hv : v.AllFinite)
    (hw : w.AllFinite) :
    ∃ text other, printer v = .ok text ∧ printer w = .ok other ∧ (text = other → v = w) := by
  obtain ⟨text, htext, hread⟩ := h v hv
  obtain ⟨other, hother, hread'⟩ := h w hw
  exact ⟨text, other, htext, hother, fun heq => hread.unique (heq ▸ hread')⟩

end SceneScript.Json
