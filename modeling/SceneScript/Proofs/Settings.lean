import Mathlib.Data.List.TakeWhile
import SceneScript.Proofs.Text.Lines
import SceneScript.Settings

/-!
# Settings files below one another

A settings file is read line by line, and a line is told by what is left of it without the blanks at
its ends: a remark, a value for a key, or a fault.  So whether a line is allowed depends on the line
alone, and what a key is in the end depends on the last line for it.  Two files one below the other
are read like the second one after the first.
-/

namespace SceneScript

/-- The error as it is if more lines stand above. -/
def SettingsError.movedDown (count : Nat) : SettingsError → SettingsError
  | .malformedLine line content => .malformedLine (line + count) content
  | .invalidColor line value => .invalidColor (line + count) value

namespace Settings

/-- The line says nothing: it is blank, or its first character that is not blank is a number
sign. -/
def IsRemark (line : List Char) : Prop :=
  Text.trim line = [] ∨ (Text.trim line).head? = some '#'

/-- The line gives a value to a key.  The first equals sign parts them. -/
structure Assigns (line : List Char) (key value : String) : Prop where
  not_isRemark : ¬IsRemark line
  parted : ∃ before after, Text.trim line = before ++ '=' :: after ∧ '=' ∉ before
    ∧ key = String.ofList (Text.trim before) ∧ value = String.ofList (Text.trim after)

/-- Some of the lines gives a value to the key. -/
def Mentions (lines : List (List Char)) (key : String) : Prop :=
  ∃ line ∈ lines, ∃ value, Assigns line key value

/-- The last of the lines for the key gives it the value. -/
def LastAssigns (lines : List (List Char)) (key value : String) : Prop :=
  ∃ above line below, lines = above ++ line :: below ∧ Assigns line key value
    ∧ ¬Mentions below key

/-- The line says nothing, or it gives a value to a key and, if that is the color, one that there
is. -/
def IsAllowed (line : List Char) : Prop :=
  IsRemark line ∨ '=' ∈ Text.trim line
    ∧ ∀ value, Assigns line "color" value → value ∈ ["auto", "always", "never"]

/-- What is wrong with a line of the number given. -/
inductive Faulty (number : Nat) (line : List Char) : SettingsError → Prop where
  | malformed (h : ¬IsRemark line) (hmem : '=' ∉ Text.trim line) :
    Faulty number line (.malformedLine number (String.ofList (Text.trim line)))
  | color {value : String} (h : Assigns line "color" value)
      (hvalue : value ∉ ["auto", "always", "never"]) :
    Faulty number line (.invalidColor number value)

variable {line : List Char} {lines : List (List Char)} {key value : String} {number count : Nat}
  {s t r q : Settings} {e : SettingsError}

/-! ## What a line says -/

theorem takeWhile_ne_append {before : List Char} (h : '=' ∉ before) (after : List Char) :
    (before ++ '=' :: after).takeWhile (· != '=') = before := by
  have hbefore : ∀ c ∈ before, (c != '=') = true := by
    rintro c hc
    exact bne_iff_ne.2 fun heq => h (heq ▸ hc)
  rw [List.takeWhile_append_of_pos hbefore]
  simp

theorem Assigns.mem (h : Assigns line key value) : '=' ∈ Text.trim line := by
  obtain ⟨before, after, hline, _⟩ := h.parted
  rw [hline]
  exact List.mem_append_right _ (List.mem_cons_self ..)

/-- A line gives one value to one key. -/
theorem Assigns.unique {key' value' : String} (h : Assigns line key value)
    (h' : Assigns line key' value') : key = key' ∧ value = value' := by
  obtain ⟨before, after, hline, hbefore, rfl, rfl⟩ := h.parted
  obtain ⟨before', after', hline', hbefore', rfl, rfl⟩ := h'.parted
  rw [hline] at hline'
  have hsame : before = before' := by
    rw [← takeWhile_ne_append hbefore after, hline', takeWhile_ne_append hbefore']
  subst hsame
  obtain rfl : after = after' := by simpa using hline'
  exact ⟨rfl, rfl⟩

/-- A line is a remark, or gives a value to a key, or has no equals sign. -/
theorem line_cases (line : List Char) :
    IsRemark line ∨ (∃ key value, Assigns line key value)
      ∨ (¬IsRemark line ∧ '=' ∉ Text.trim line) := by
  by_cases hremark : IsRemark line
  · exact .inl hremark
  · by_cases hmem : '=' ∈ Text.trim line
    · obtain ⟨before, after, hline, hbefore⟩ := List.eq_append_cons_of_mem hmem
      exact .inr (.inl ⟨_, _, hremark, before, after, hline, hbefore, rfl, rfl⟩)
    · exact .inr (.inr ⟨hremark, hmem⟩)

/-! ## Reading a line -/

theorem readLine_of_isRemark (h : IsRemark line) : s.readLine number line = .ok s := by
  unfold readLine
  exact if_pos h

theorem readLine_of_assigns (h : Assigns line key value) :
    s.readLine number line = s.set number key value := by
  obtain ⟨before, after, hline, hbefore, rfl, rfl⟩ := h.parted
  have hremark : ¬(Text.trim line = [] ∨ (Text.trim line).head? = some '#') := h.not_isRemark
  unfold readLine
  dsimp only
  rw [if_neg hremark, hline, takeWhile_ne_append hbefore, if_pos (by simp), ← List.drop_drop,
    List.drop_left, List.drop_succ_cons, List.drop_zero]

theorem readLine_of_not_mem (h : ¬IsRemark line) (hmem : '=' ∉ Text.trim line) :
    s.readLine number line = .error (.malformedLine number (String.ofList (Text.trim line))) := by
  have hall : (Text.trim line).takeWhile (· != '=') = Text.trim line := by
    rw [List.takeWhile_eq_self_iff]
    exact fun c hc => bne_iff_ne.2 fun heq => hmem (heq ▸ hc)
  have hremark : ¬(Text.trim line = [] ∨ (Text.trim line).head? = some '#') := h
  unfold readLine
  dsimp only
  rw [if_neg hremark, hall, if_neg (Nat.lt_irrefl _)]

theorem set_color (s : Settings) (number : Nat) (value : String) :
    s.set number "color" value = match ColorMode.ofText? value with
      | some choice => .ok { s with color := choice }
      | none => .error (.invalidColor number value) := rfl

theorem set_other (hscene : key ≠ "default_scene") (hcolor : key ≠ "color") :
    s.set number key value = .ok s := by
  unfold set
  rw [if_neg hscene, if_neg hcolor]

theorem isSome_ofText?_iff :
    (ColorMode.ofText? value).isSome ↔ value ∈ ["auto", "always", "never"] := by
  unfold ColorMode.ofText?
  split <;> simp_all

/-- A setting with that key is refused just if it is of the color and there is no such color. -/
theorem exists_set_iff : (∃ r, s.set number key value = .ok r)
    ↔ (key = "color" → value ∈ ["auto", "always", "never"]) := by
  by_cases hcolor : key = "color"
  · subst hcolor
    rw [set_color, ← isSome_ofText?_iff]
    cases ColorMode.ofText? value <;> simp
  · have hset : ∃ r, s.set number key value = .ok r := by
      by_cases hscene : key = "default_scene"
      · exact ⟨_, if_pos hscene⟩
      · exact ⟨s, set_other hscene hcolor⟩
    exact iff_of_true hset fun heq => absurd heq hcolor

/-- A line is read just if it is allowed, whatever was read before. -/
theorem exists_readLine_iff : (∃ r, s.readLine number line = .ok r) ↔ IsAllowed line := by
  rcases line_cases line with hremark | ⟨key, value, hassigns⟩ | ⟨hremark, hmem⟩
  · exact iff_of_true ⟨s, readLine_of_isRemark hremark⟩ (.inl hremark)
  · rw [readLine_of_assigns hassigns, exists_set_iff]
    constructor
    · intro h
      refine .inr ⟨hassigns.mem, fun value' hcolor => ?_⟩
      obtain ⟨hkey, rfl⟩ := hassigns.unique hcolor
      exact h hkey
    · rintro (hremark | ⟨_, hvalue⟩) rfl
      · exact absurd hremark hassigns.not_isRemark
      · exact hvalue value hassigns
  · rw [readLine_of_not_mem hremark hmem]
    refine iff_of_false (by rintro ⟨r, hr⟩; cases hr) ?_
    rintro (h | ⟨h, _⟩)
    · exact hremark h
    · exact hmem h

/-- What a line can do to the settings. -/
theorem readLine_cases (h : s.readLine number line = .ok r) :
    r = s
      ∨ (∃ value, Assigns line "default_scene" value ∧ r = { s with defaultScene := some value })
      ∨ ∃ value choice, Assigns line "color" value ∧ ColorMode.ofText? value = some choice
        ∧ r = { s with color := choice } := by
  rcases line_cases line with hremark | ⟨key, value, hassigns⟩ | ⟨hremark, hmem⟩
  · rw [readLine_of_isRemark hremark] at h
    cases h
    exact .inl rfl
  · rw [readLine_of_assigns hassigns] at h
    by_cases hscene : key = "default_scene"
    · subst hscene
      cases h
      exact .inr (.inl ⟨value, hassigns, rfl⟩)
    · by_cases hcolor : key = "color"
      · subst hcolor
        rw [set_color] at h
        split at h
        · cases h
          exact .inr (.inr ⟨value, _, hassigns, ‹_›, rfl⟩)
        · cases h
      · rw [set_other hscene hcolor] at h
        cases h
        exact .inl rfl
  · rw [readLine_of_not_mem hremark hmem] at h
    cases h

/-- A line is refused for what is wrong with it, whatever was read before. -/
theorem readLine_error_iff : s.readLine number line = .error e ↔ Faulty number line e := by
  constructor
  · intro h
    rcases line_cases line with hremark | ⟨key, value, hassigns⟩ | ⟨hremark, hmem⟩
    · rw [readLine_of_isRemark hremark] at h
      cases h
    · rw [readLine_of_assigns hassigns] at h
      have hrefused : ¬∃ r, s.set number key value = .ok r := by simp [h]
      rw [exists_set_iff, Classical.not_imp] at hrefused
      obtain ⟨rfl, hvalue⟩ := hrefused
      rw [set_color] at h
      split at h
      · cases h
      · cases h
        exact .color hassigns hvalue
    · rw [readLine_of_not_mem hremark hmem] at h
      cases h
      exact .malformed hremark hmem
  · rintro (⟨hremark, hmem⟩ | ⟨hassigns, hvalue⟩)
    · exact readLine_of_not_mem hremark hmem
    · rw [← isSome_ofText?_iff, Option.not_isSome_iff_eq_none] at hvalue
      rw [readLine_of_assigns hassigns, set_color, hvalue]

/-- The fault of a line is the same further down. -/
theorem Faulty.movedDown (h : Faulty number line e) :
    Faulty (number + count) line (e.movedDown count) := by
  cases h with
  | malformed hremark hmem => exact .malformed hremark hmem
  | color hassigns hvalue => exact .color hassigns hvalue

/-! ## What a key is set to -/

/-- A part of the settings is what the lines for a key say, and no other line changes it. -/
structure Follows {α : Type} (key : String) (part : Settings → α) (meaning : String → Option α) :
    Prop where
  set_eq : ∀ {s r : Settings} {number : Nat} {line : List Char} {value : String},
    s.readLine number line = .ok r → Assigns line key value → meaning value = some (part r)
  kept : ∀ {s r : Settings} {number : Nat} {line : List Char},
    s.readLine number line = .ok r → (∀ value, ¬Assigns line key value) → part r = part s

theorem follows_defaultScene : Follows "default_scene" defaultScene (some ∘ some) where
  set_eq h hassigns := by
    rw [readLine_of_assigns hassigns] at h
    cases h
    rfl
  kept h hnot := by
    obtain rfl | ⟨value, hscene, rfl⟩ | ⟨value, choice, _, _, rfl⟩ := readLine_cases h
    · rfl
    · exact absurd hscene (hnot value)
    · rfl

theorem follows_color : Follows "color" color ColorMode.ofText? where
  set_eq h hassigns := by
    rw [readLine_of_assigns hassigns, set_color] at h
    split at h
    · cases h
      assumption
    · cases h
  kept h hnot := by
    obtain rfl | ⟨value, _, rfl⟩ | ⟨value, choice, hcolor, _, rfl⟩ := readLine_cases h
    · rfl
    · rfl
    · exact absurd hcolor (hnot value)

/-! ## Reading lines -/

theorem readLines_cons_ok_iff : s.readLines number (line :: lines) = .ok r
    ↔ ∃ t, s.readLine number line = .ok t ∧ t.readLines (number + 1) lines = .ok r := by
  rw [readLines]
  cases s.readLine number line <;> simp

theorem readLines_cons_error_iff : s.readLines number (line :: lines) = .error e
    ↔ s.readLine number line = .error e
      ∨ ∃ t, s.readLine number line = .ok t ∧ t.readLines (number + 1) lines = .error e := by
  rw [readLines]
  cases s.readLine number line <;> simp

/-- The lines above are read first. -/
theorem readLines_append (s : Settings) (number : Nat) (upper lower : List (List Char)) :
    s.readLines number (upper ++ lower) = match s.readLines number upper with
      | .ok r => r.readLines (number + upper.length) lower
      | .error e => .error e := by
  induction upper generalizing s number with
  | nil => rfl
  | cons line upper ih =>
    rw [List.cons_append, readLines, readLines]
    cases s.readLine number line with
    | ok t =>
      dsimp only
      rw [ih, List.length_cons, Nat.add_right_comm, Nat.add_assoc]
    | error e => rfl

theorem exists_readLines_iff :
    (∃ r, s.readLines number lines = .ok r) ↔ ∀ line ∈ lines, IsAllowed line := by
  induction lines generalizing s number with
  | nil => exact iff_of_true ⟨s, rfl⟩ nofun
  | cons line lines ih =>
    have hline : (∃ t, s.readLine number line = .ok t) ↔ IsAllowed line := exists_readLine_iff
    rw [List.forall_mem_cons, ← hline]
    constructor
    · rintro ⟨r, hr⟩
      obtain ⟨t, ht, hmore⟩ := readLines_cons_ok_iff.1 hr
      exact ⟨⟨t, ht⟩, ih.1 ⟨r, hmore⟩⟩
    · rintro ⟨⟨t, ht⟩, hmore⟩
      obtain ⟨r, hr⟩ : ∃ r, t.readLines (number + 1) lines = .ok r := ih.2 hmore
      exact ⟨r, readLines_cons_ok_iff.2 ⟨t, ht, hr⟩⟩

/-- Some lines are refused for the first one that is not allowed. -/
theorem readLines_error_iff : s.readLines number lines = .error e
    ↔ ∃ above line below, lines = above ++ line :: below ∧ (∀ l ∈ above, IsAllowed l)
      ∧ Faulty (number + above.length) line e := by
  induction lines generalizing s number with
  | nil => simp [readLines]
  | cons line lines ih =>
    rw [readLines_cons_error_iff]
    constructor
    · rintro (hline | ⟨t, ht, hmore⟩)
      · exact ⟨[], line, lines, rfl, nofun, readLine_error_iff.1 hline⟩
      · obtain ⟨above, fault, below, rfl, habove, hfault⟩ := ih.1 hmore
        refine ⟨line :: above, fault, below, rfl, ?_, ?_⟩
        · exact List.forall_mem_cons.2 ⟨exists_readLine_iff.1 ⟨t, ht⟩, habove⟩
        · rwa [List.length_cons, Nat.add_comm above.length, ← Nat.add_assoc]
    · rintro ⟨above, fault, below, hlines, habove, hfault⟩
      cases above with
      | nil =>
        obtain ⟨rfl, rfl⟩ := List.cons.inj hlines
        exact .inl (readLine_error_iff.2 hfault)
      | cons first above =>
        obtain ⟨rfl, rfl⟩ := List.cons.inj hlines
        obtain ⟨hfirst, habove⟩ := List.forall_mem_cons.1 habove
        obtain ⟨t, ht⟩ := exists_readLine_iff.2 hfirst
        refine .inr ⟨t, ht, ih.2 ⟨above, fault, below, rfl, habove, ?_⟩⟩
        rwa [List.length_cons, Nat.add_comm above.length, ← Nat.add_assoc] at hfault

/-- The first fault of some lines is the same further down, and behind other settings. -/
theorem readLines_movedDown (h : s.readLines number lines = .error e) :
    t.readLines (number + count) lines = .error (e.movedDown count) := by
  induction lines generalizing s t number with
  | nil => cases h
  | cons line lines ih =>
    rcases readLines_cons_error_iff.1 h with hline | ⟨s', hline, hmore⟩
    · have hfault : Faulty (number + count) line (e.movedDown count) :=
        (readLine_error_iff.1 hline).movedDown
      exact readLines_cons_error_iff.2 (.inl (readLine_error_iff.2 hfault))
    · obtain ⟨t', ht⟩ := exists_readLine_iff.2 (exists_readLine_iff.1 ⟨s', hline⟩)
      refine readLines_cons_error_iff.2 (.inr ⟨t', ht, ?_⟩)
      rw [Nat.add_right_comm]
      exact ih hmore

variable {α : Type} {part : Settings → α} {meaning : String → Option α} {other : Nat}

theorem mentions_cons_iff : Mentions (line :: lines) key
    ↔ (∃ value, Assigns line key value) ∨ Mentions lines key := by
  simp [Mentions]

/-- Without a line for its key a part is what it was before. -/
theorem Follows.kept_of_readLines (h : Follows key part meaning)
    (hr : s.readLines number lines = .ok r) (hnot : ¬Mentions lines key) : part r = part s := by
  induction lines generalizing s number with
  | nil => cases hr; rfl
  | cons line lines ih =>
    obtain ⟨t, ht, hmore⟩ := readLines_cons_ok_iff.1 hr
    rw [mentions_cons_iff, not_or, not_exists] at hnot
    rw [ih hmore hnot.2, h.kept ht hnot.1]

/-- A part is what the last line for its key says. -/
theorem Follows.eq_of_lastAssigns (h : Follows key part meaning)
    (hr : s.readLines number lines = .ok r) (hlast : LastAssigns lines key value) :
    meaning value = some (part r) := by
  obtain ⟨above, line, below, rfl, hassigns, hnot⟩ := hlast
  rw [readLines_append] at hr
  split at hr
  · obtain ⟨t, ht, hbelow⟩ := readLines_cons_ok_iff.1 hr
    rw [h.kept_of_readLines hbelow hnot]
    exact h.set_eq ht hassigns
  · cases hr

/-- With a line for its key a part does not depend on what it was before. -/
theorem Follows.eq_of_readLines (h : Follows key part meaning)
    (hr : s.readLines number lines = .ok r) (hq : t.readLines other lines = .ok q)
    (hmentions : Mentions lines key) : part r = part q := by
  induction lines generalizing s t number other with
  | nil => obtain ⟨line, hline, _⟩ := hmentions; cases hline
  | cons line lines ih =>
    obtain ⟨s', hs, hr⟩ := readLines_cons_ok_iff.1 hr
    obtain ⟨t', ht, hq⟩ := readLines_cons_ok_iff.1 hq
    by_cases hmore : Mentions lines key
    · exact ih hr hq hmore
    · obtain ⟨value, hassigns⟩ := (mentions_cons_iff.1 hmentions).resolve_right hmore
      rw [h.kept_of_readLines hr hmore, h.kept_of_readLines hq hmore]
      exact Option.some.inj ((h.set_eq hs hassigns).symm.trans (h.set_eq ht hassigns))

/-! ## Two files -/

/-- A carriage return at the end of a line is a blank. -/
theorem trim_carriageReturn (line : List Char) : Text.trim (line ++ ['\r']) = Text.trim line := by
  have hblank : Text.isBlank '\r' = true := by decide
  rw [Text.trim, Text.trim, List.dropWhile_append]
  split
  · rename_i hall
    rw [List.isEmpty_iff.1 hall, List.dropWhile_cons_of_pos hblank, List.dropWhile_nil]
  · rw [Text.trimEnd, List.reverse_append, List.reverse_singleton, List.singleton_append,
      List.dropWhile_cons_of_pos hblank, Text.trimEnd]

theorem readLine_carriageReturn (line : List Char) :
    s.readLine number (line ++ ['\r']) = s.readLine number line := by
  unfold readLine
  rw [trim_carriageReturn]

/-- A line feed behind the last line changes nothing. -/
theorem readLines_of_ended {opened closed : List (List Char)} (h : Text.Ended opened closed) :
    s.readLines number closed = s.readLines number opened := by
  induction h generalizing s number with
  | empty => rfl
  | same line => rfl
  | carriageReturn line => rw [readLines, readLines, readLine_carriageReturn]
  | cons line _ ih =>
    rw [readLines, readLines]
    cases s.readLine number line with
    | ok t => exact ih
    | error e => rfl

/-- The lower of two files is read like the upper one goes on. -/
theorem parse_append (upper lower : String) :
    parse (upper ++ "\n" ++ lower) = match parse upper with
      | .ok s => s.readLines (1 + (Text.lineFeeds upper.toList + 1)) (Text.lines lower.toList)
      | .error e => .error e := by
  obtain ⟨above, hlength, habove⟩ := Text.exists_lines_above upper.toList
  have hupper : default.readLines 1 above = parse upper := by
    have hends := habove []
    rw [Text.lines_nil, List.append_nil] at hends
    rw [parse, ← readLines_of_ended (Text.ended_lines upper.toList), hends]
  have htext : (upper ++ "\n" ++ lower).toList = upper.toList ++ '\n' :: lower.toList := by
    rw [String.toList_append, String.toList_append, List.append_assoc]
    rfl
  rw [parse, htext, habove, readLines_append, hupper, hlength]

end Settings

open Settings

open Classical in
/-- The first fault in two settings files, one below the other, is that of the upper one, or else
that of the lower one with its line counted from the top.  Without a fault a key has its value from
the lower file if it has a line there, and from the upper one if not.  A file has a fault just if one
of its lines is not allowed, and the first such line is the fault.  Without a fault the last line for a
key gives the value, and a key without a line has that of a user without settings. -/
theorem parse_settings_append (upper lower : String) :
    (match Settings.parse upper, Settings.parse lower with
      | .error e, _ => Settings.parse (upper ++ "\n" ++ lower) = .error e
      | .ok _, .error e => Settings.parse (upper ++ "\n" ++ lower)
        = .error (e.movedDown (Text.lineFeeds upper.toList + 1))
      | .ok s, .ok t => Settings.parse (upper ++ "\n" ++ lower) = .ok
        ⟨if Mentions (Text.lines lower.toList) "default_scene" then t.defaultScene
          else s.defaultScene,
        if Mentions (Text.lines lower.toList) "color" then t.color else s.color⟩)
      ∧ ((∃ s, Settings.parse upper = .ok s) ↔ ∀ line ∈ Text.lines upper.toList, IsAllowed line)
      ∧ (∀ e, Settings.parse upper = .error e
        ↔ ∃ above line below, Text.lines upper.toList = above ++ line :: below
          ∧ (∀ l ∈ above, IsAllowed l) ∧ Faulty (above.length + 1) line e)
      ∧ ∀ s, Settings.parse upper = .ok s →
        (∀ value, LastAssigns (Text.lines upper.toList) "default_scene" value →
          s.defaultScene = some value)
        ∧ (∀ value, LastAssigns (Text.lines upper.toList) "color" value →
          ColorMode.ofText? value = some s.color)
        ∧ (¬Mentions (Text.lines upper.toList) "default_scene" → s.defaultScene = none)
        ∧ (¬Mentions (Text.lines upper.toList) "color" → s.color = .auto) := by
  refine ⟨?_, exists_readLines_iff, fun e => ?_, fun s hs => ⟨?_, ?_, ?_, ?_⟩⟩
  · cases hupper : Settings.parse upper with
    | error e => rw [parse_append, hupper]
    | ok s =>
      rw [parse_append, hupper]
      cases hlower : Settings.parse lower with
      | error e => exact readLines_movedDown hlower
      | ok t =>
        -- the lower lines are read from what the upper ones have set, and fail for no such reason
        have hallowed := exists_readLines_iff.1 ⟨t, hlower⟩
        obtain ⟨r, hr⟩ : ∃ r, s.readLines (1 + (Text.lineFeeds upper.toList + 1))
            (Text.lines lower.toList) = .ok r := exists_readLines_iff.2 hallowed
        have hscene : r.defaultScene = if Mentions (Text.lines lower.toList) "default_scene"
            then t.defaultScene else s.defaultScene := by
          split
          · exact follows_defaultScene.eq_of_readLines hr hlower ‹_›
          · exact follows_defaultScene.kept_of_readLines hr ‹_›
        have hcolor : r.color = if Mentions (Text.lines lower.toList) "color"
            then t.color else s.color := by
          split
          · exact follows_color.eq_of_readLines hr hlower ‹_›
          · exact follows_color.kept_of_readLines hr ‹_›
        dsimp only
        rw [hr, ← hscene, ← hcolor]
  · rw [Settings.parse, readLines_error_iff]
    simp only [Nat.add_comm 1]
  · exact fun value hlast => Option.some.inj (follows_defaultScene.eq_of_lastAssigns hs hlast).symm
  · exact fun value => follows_color.eq_of_lastAssigns hs
  · exact follows_defaultScene.kept_of_readLines hs
  · exact follows_color.kept_of_readLines hs

/-- A carriage return before the line feed between the files, a remark, and a line without an equals
sign. -/
example : Settings.parse ("color=never\r" ++ "\n" ++ "# more\nwords")
    = .error (.malformedLine 3 "words") := by
  decide

end SceneScript
