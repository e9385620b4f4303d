import SceneScript.Proofs.Number.Json

/-!
# What is printed is JSON

Both texts of a value, the one without blanks and the indented one, are JSON texts of it, if its numbers
are finite.  They differ in the blanks between the parts alone.
-/

namespace SceneScript.Json

/-! ## Strings -/

/-- The digits of a control character's code are read back. -/
theorem codeUnit?_control : ∀ n < 0x20, codeUnit? '0' '0' (Nat.digitChar (n / 16))
    (Nat.digitChar (n % 16)) = some n := by
  decide

/-- All characters with a letter of their own are escaped by it, but for the stroke. -/
theorem escape_of_mem : ∀ p ∈ shortEscapes, p.2 ≠ '/' → escape p.2 = ['\\', p.1] := by
  decide

/-- A character without a letter of its own is escaped by its code, or not at all. -/
theorem escape_of_not_mem {c : Char} (h : c ∉ (shortEscapes.map (·.2)).erase '/') :
    escape c = if c.toNat < 0x20
      then ['\\', 'u', '0', '0', Nat.digitChar (c.toNat / 16), Nat.digitChar (c.toNat % 16)]
      else [c] := by
  have hlist : (shortEscapes.map (·.2)).erase '/'
      = ['"', '\\', '\x08', '\x0c', '\n', '\r', '\t'] := by decide
  rw [hlist] at h
  simp only [List.mem_cons, List.not_mem_nil, or_false, not_or] at h
  simp [escape, h]

/-- A character is escaped as it may be. -/
theorem isEscape_escape (c : Char) : IsEscape c (escape c) := by
  by_cases hmem : c ∈ (shortEscapes.map (·.2)).erase '/'
  · have hne : c ≠ '/' := by
      rintro rfl
      revert hmem
      decide
    obtain ⟨p, hp, rfl⟩ := List.mem_map.1 (List.mem_of_mem_erase hmem)
    rw [escape_of_mem p hp hne]
    exact .short hp
  · rw [escape_of_not_mem hmem]
    split
    · rename_i hcontrol
      exact .code (codeUnit?_control c.toNat hcontrol)
    · rename_i hcontrol
      have hquote : c ≠ '"' := fun h => hmem (by rw [h]; decide)
      have hslash : c ≠ '\\' := fun h => hmem (by rw [h]; decide)
      exact .itself hquote hslash (Nat.not_lt.1 hcontrol)

theorem isString_quote (s : String) : IsString s (quote s).toList := by
  have hinside : ∀ cs : List Char, IsInside cs (cs.flatMap escape) := by
    intro cs
    induction cs with
    | nil => exact .nil
    | cons c cs ih => exact .cons (isEscape_escape c) ih
  rw [quote, String.toList_ofList]
  exact .quoted (hinside s.toList)

/-! ## Parts between brackets -/

section Parts

variable {α : Type} {is : α → List Char → Prop} {close : Char} {text : α → List Char}
  {before between after : List Char} {xs : List α}

theorem intercalate_map_cons (x : α) (xs : List α) :
    (',' :: between).intercalate ((x :: xs).map text)
      = text x ++ xs.flatMap fun x => ',' :: (between ++ text x) := by
  induction xs generalizing x with
  | nil => simp
  | cons y xs ih =>
    rw [List.map_cons, List.map_cons, List.intercalate_cons_cons, ← List.map_cons, ih,
      List.flatMap_cons]
    simp

theorem isFollowing_flatMap (hbetween : Blank between) (hafter : Blank after)
    (h : ∀ x ∈ xs, is x (text x)) : IsFollowing is close xs
      (xs.flatMap (fun x => ',' :: (between ++ text x)) ++ (after ++ [close])) := by
  induction xs with
  | nil => exact .close hafter
  | cons x xs ih =>
    rw [List.forall_mem_cons] at h
    rw [List.flatMap_cons, List.append_assoc, List.cons_append, List.append_assoc]
    exact .comma blank_nil hbetween h.1 (ih h.2)

/-- Parts with commas and blanks between them. -/
theorem isParts_intercalate (hbefore : Blank before) (hbetween : Blank between)
    (hafter : Blank after) (h : ∀ x ∈ xs, is x (text x)) : IsParts is close xs
      (before ++ ((',' :: between).intercalate (xs.map text) ++ (after ++ [close]))) := by
  cases xs with
  | nil =>
    have hblank : Blank (before ++ after) := List.forall_mem_append.2 ⟨hbefore, hafter⟩
    rw [List.map_nil, List.intercalate_nil, List.nil_append, ← List.append_assoc]
    exact .empty hblank
  | cons x xs =>
    rw [List.forall_mem_cons] at h
    rw [intercalate_map_cons, List.append_assoc]
    exact .cons hbefore h.1 (isFollowing_flatMap hbetween hafter h.2)

end Parts

/-! ## The compact text -/

theorem compactItems_eq_map (items : List Json) : compactItems items = items.map compact := by
  induction items with
  | nil => rfl
  | cons item items ih => rw [compactItems, ih, List.map_cons]

theorem compactFields_eq_map (fields : List (String × Json)) :
    compactFields fields = fields.map fun field => quote field.1 ++ ":" ++ field.2.compact := by
  induction fields with
  | nil => rfl
  | cons field fields ih => rw [compactFields, ih, List.map_cons]

theorem isField_compact {key : String} {value : Json} (h : IsText value value.compact.toList) :
    IsField IsText (key, value) (quote key ++ ":" ++ value.compact).toList := by
  rw [String.toList_append, String.toList_append, List.append_assoc]
  exact .intro (isString_quote key) blank_nil blank_nil h

mutual

/-- The compact text is one of the value. -/
theorem isText_compact : (v : Json) → v.AllFinite → IsText v v.compact.toList
  | .bool value, _ => by
    cases value
    · exact .bool false
    · exact .bool true
  | .number _, h => .number (Layout.isNumber_json h)
  | .text value, _ => .text (isString_quote value)
  | .list items, h => by
    have hparts : IsParts IsText ']' items _ := isParts_intercalate blank_nil blank_nil
      blank_nil (isText_compactItems items h)
    rw [compact, compactItems_eq_map, String.toList_append, String.toList_append,
      String.toList_intercalate, List.map_map]
    exact .list hparts
  | .object fields, h => by
    have hparts : IsParts (IsField IsText) '\x7d' fields _ := isParts_intercalate blank_nil
      blank_nil blank_nil (isField_compactFields fields h)
    rw [compact, compactFields_eq_map, String.toList_append, String.toList_append,
      String.toList_intercalate, List.map_map]
    exact .object hparts

theorem isText_compactItems : (items : List Json) → AllFiniteItems items →
    ∀ item ∈ items, IsText item item.compact.toList
  | [], _ => nofun
  | item :: items, h =>
    List.forall_mem_cons.2 ⟨isText_compact item h.1, isText_compactItems items h.2⟩

theorem isField_compactFields : (fields : List (String × Json)) → AllFiniteFields fields →
    ∀ field ∈ fields, IsField IsText field (quote field.1 ++ ":" ++ field.2.compact).toList
  | [], _ => nofun
  | (_, value) :: fields, h =>
    List.forall_mem_cons.2 ⟨isField_compact (isText_compact value h.1),
      isField_compactFields fields h.2⟩

end

/-! ## The indented text -/

theorem prettyItems_eq_map (depth : Nat) (items : List Json) :
    prettyItems depth items = items.map (prettyAt depth) := by
  induction items with
  | nil => rfl
  | cons item items ih => rw [prettyItems, ih, List.map_cons]

theorem prettyFields_eq_map (depth : Nat) (fields : List (String × Json)) :
    prettyFields depth fields
      = fields.map fun field => quote field.1 ++ ": " ++ field.2.prettyAt depth := by
  induction fields with
  | nil => rfl
  | cons field fields ih => rw [prettyFields, ih, List.map_cons]

theorem blank_newLine (depth : Nat) : Blank (newLine depth).toList := by
  intro c hc
  simp only [newLine, String.toList_append, String.toList_ofList] at hc
  rcases List.mem_append.1 hc with hline | hspace
  · rw [List.mem_singleton.1 hline]
    rfl
  · rw [List.eq_of_mem_replicate hspace]
    rfl

theorem isField_pretty {depth : Nat} {key : String} {value : Json}
    (h : IsText value (value.prettyAt depth).toList) :
    IsField IsText (key, value) (quote key ++ ": " ++ value.prettyAt depth).toList := by
  have hspace : Blank [' '] := List.forall_mem_singleton.2 rfl
  rw [String.toList_append, String.toList_append, List.append_assoc]
  exact .intro (isString_quote key) blank_nil hspace h

/-- Parts on lines of their own between brackets, or none. -/
theorem exists_bracketed {α : Type} {is : α → List Char → Prop} {xs : List α} {text : α → String}
    (opening close : Char) (depth : Nat) (h : ∀ x ∈ xs, is x (text x).toList) :
    ∃ parts, (bracketed (String.singleton opening) (String.singleton close) depth
        (xs.map text)).toList = opening :: parts ∧ IsParts is close xs parts := by
  cases xs with
  | nil => exact ⟨[close], by simp [bracketed], .empty blank_nil⟩
  | cons x xs =>
    refine ⟨_, ?_, isParts_intercalate (blank_newLine (depth + 1)) (blank_newLine (depth + 1))
      (blank_newLine depth) h⟩
    simp [bracketed, String.toList_intercalate, Function.comp_def]

mutual

/-- The indented text is one of the value, however deep the value stands. -/
theorem isText_pretty : (v : Json) → (depth : Nat) → v.AllFinite →
    IsText v (v.prettyAt depth).toList
  | .bool value, _, _ => by
    cases value
    · exact .bool false
    · exact .bool true
  | .number _, _, h => .number (Layout.isNumber_json h)
  | .text value, _, _ => .text (isString_quote value)
  | .list items, depth, h => by
    obtain ⟨parts, htext, hparts⟩ := exists_bracketed '[' ']' depth
      (isText_prettyItems items (depth + 1) h)
    rw [prettyAt, prettyItems_eq_map]
    exact htext ▸ .list hparts
  | .object fields, depth, h => by
    obtain ⟨parts, htext, hparts⟩ := exists_bracketed '\x7b' '\x7d' depth
      (isField_prettyFields fields (depth + 1) h)
    rw [prettyAt, prettyFields_eq_map]
    exact htext ▸ .object hparts

theorem isText_prettyItems : (items : List Json) → (depth : Nat) → AllFiniteItems items →
    ∀ item ∈ items, IsText item (item.prettyAt depth).toList
  | [], _, _ => nofun
  | item :: items, depth, h =>
    List.forall_mem_cons.2 ⟨isText_pretty item depth h.1, isText_prettyItems items depth h.2⟩

theorem isField_prettyFields : (fields : List (String × Json)) → (depth : Nat) →
    AllFiniteFields fields → ∀ field ∈ fields,
      IsField IsText field (quote field.1 ++ ": " ++ field.2.prettyAt depth).toList
  | [], _, _ => nofun
  | (_, value) :: fields, depth, h =>
    List.forall_mem_cons.2 ⟨isField_pretty (isText_pretty value depth h.1),
      isField_prettyFields fields depth h.2⟩

end

/-! ## Both are printed -/

theorem prints_compact : Prints fun value => .ok value.compact :=
  fun value h => ⟨_, rfl, isText_compact value h⟩

theorem prints_pretty : Prints fun value => .ok value.pretty :=
  fun value h => ⟨_, rfl, isText_pretty value 0 h⟩

end SceneScript.Json
