import SceneScript.Position
import SceneScript.Proofs.Cursor.Ahead

/-!
# Places by their offsets

A place that a cursor has come to is told by its byte offset: it is the place that is sought there,
and the offset is between two characters of the source.  What stands between two such offsets is the
text that the cursor has passed.
-/

namespace SceneScript

variable {source : String}

namespace Text

/-- The length of a text in bytes is that of the string. -/
theorem utf8ByteSize_ofList (text : List Char) :
    (String.ofList text).utf8ByteSize = byteLength text := by
  induction text with
  | nil => rfl
  | cons c text ih =>
    rw [String.ofList_cons, String.utf8ByteSize_append, String.utf8ByteSize_singleton, ih,
      byteLength_cons]

/-- What stands in a text between two byte offsets. -/
def between (text : List Char) (start stop : Nat) : List Char :=
  takeBytes (stop - start) (dropBytes start text)

end Text

namespace Cursor

variable {c d : Cursor} {count : Nat}

theorem pos_advance_start :
    ((start source).advance count).pos = Text.byteLength (source.toList.take count) := by
  simp [start]

/-- The text before a place. -/
theorem takeBytes_pos :
    Text.takeBytes ((start source).advance count).pos source.toList = source.toList.take count := by
  have htake := Text.takeBytes_byteLength_append (source.toList.take count)
    (source.toList.drop count)
  rwa [List.take_append_drop, ← pos_advance_start] at htake

/-- The text behind a place. -/
theorem dropBytes_pos :
    Text.dropBytes ((start source).advance count).pos source.toList = source.toList.drop count := by
  have hdrop := Text.dropBytes_byteLength_append (source.toList.take count)
    (source.toList.drop count)
  rwa [List.take_append_drop, ← pos_advance_start] at hdrop

/-- The position of a place in a source has the offset of the place. -/
theorem offset_ofOffset (h : (start source).Onward c) :
    (Position.ofOffset source c.pos).offset = c.pos := by
  obtain ⟨count, rfl⟩ := h
  rw [Position.ofOffset, takeBytes_pos, pos_advance_start]
  rfl

theorem seek_pos (h : (start source).Onward c) : seek source c.pos = c := by
  obtain ⟨count, rfl⟩ := h
  rw [seek, dropBytes_pos]
  rfl

/-- No place is past the end of the source. -/
theorem pos_le_byteLength (h : (start source).Onward c) :
    c.pos ≤ Text.byteLength source.toList := by
  obtain ⟨count, rfl⟩ := h
  have hsplit := Text.byteLength_append (source.toList.take count) (source.toList.drop count)
  rw [List.take_append_drop] at hsplit
  rw [pos_advance_start]
  omega

/-- The end of a source has all its bytes before it. -/
theorem pos_of_isEnd (h : (start source).Onward c) (hend : c.isEnd = true) :
    c.pos = Text.byteLength source.toList := by
  obtain ⟨count, rfl⟩ := h
  have hdrop : source.toList.drop count = [] := List.isEmpty_iff.1 hend
  have hsplit := List.take_append_drop count source.toList
  rw [hdrop, List.append_nil] at hsplit
  rw [pos_advance_start, hsplit]

theorem atOffset_pos (h : (start source).Onward c) : atOffset source c.pos = c := by
  rw [atOffset, Nat.min_eq_left (pos_le_byteLength h), seek_pos h]

/-- A place is between two characters. -/
theorem isValid_pos (h : (start source).Onward c) : String.Pos.Raw.IsValid source ⟨c.pos⟩ := by
  obtain ⟨count, rfl⟩ := h
  rw [String.Pos.Raw.isValid_iff_exists_append]
  refine ⟨String.ofList (source.toList.take count), String.ofList (source.toList.drop count),
    ?_, ?_⟩
  · rw [← String.ofList_append, List.take_append_drop, String.ofList_toList]
  · simp [String.rawEndPos, Text.utf8ByteSize_ofList, start]

/-- An offset between two characters parts the source. -/
theorem exists_split_of_isValid {offset : Nat} (h : String.Pos.Raw.IsValid source ⟨offset⟩) :
    ∃ before below, source.toList = before ++ below ∧ offset = Text.byteLength before := by
  obtain ⟨first, second, rfl, hoffset⟩ := String.Pos.Raw.isValid_iff_exists_append.1 h
  refine ⟨first.toList, second.toList, String.toList_append, ?_⟩
  have hbytes : offset = first.utf8ByteSize := congrArg String.Pos.Raw.byteIdx hoffset
  rw [hbytes, ← Text.utf8ByteSize_ofList, String.ofList_toList]

/-- A cursor comes to every place between two characters. -/
theorem onward_seek {offset : Nat} (h : String.Pos.Raw.IsValid source ⟨offset⟩) :
    (start source).Onward (seek source offset) := by
  obtain ⟨before, below, hsource, rfl⟩ := exists_split_of_isValid h
  refine ⟨before.length, ?_⟩
  rw [seek, start, advance, hsource, Text.dropBytes_byteLength_append, List.drop_left,
    List.take_left, Nat.zero_add]

/-- Of two places on the way from one place, the one with the larger offset has less behind it. -/
theorem Onward.length_rest_lt {b c d : Cursor} (hc : b.Onward c) (hd : b.Onward d)
    (h : c.pos < d.pos) : d.rest.length < c.rest.length := by
  obtain ⟨m, rfl⟩ := hc
  obtain ⟨n, rfl⟩ := hd
  simp only [pos_advance, rest_advance, List.length_drop] at h ⊢
  have hmn : m < n := by
    refine Nat.lt_of_not_le fun hle => ?_
    have hback : (b.advance n).Onward (b.advance m) :=
      ⟨m - n, by rw [advance_advance, Nat.add_sub_cancel' hle]⟩
    have hpos := hback.pos_le
    simp only [pos_advance] at hpos
    omega
  have hm : m < b.rest.length := by
    refine Nat.lt_of_not_le fun hle => ?_
    rw [List.take_of_length_le hle, List.take_of_length_le (by omega)] at h
    exact Nat.lt_irrefl _ h
  omega

/-- What stands between two places is what there is behind the first before there is what is behind
the second. -/
theorem rest_eq_between_append (h : (start source).Onward c) (k : c.Onward d) :
    c.rest = Text.between source.toList c.pos d.pos ++ d.rest := by
  obtain ⟨count, rfl⟩ := k
  have hdrop : Text.dropBytes c.pos source.toList = c.rest := congrArg Cursor.rest (seek_pos h)
  have hlength : (c.advance count).pos - c.pos = Text.byteLength (c.rest.take count) := by simp
  have htake := Text.takeBytes_byteLength_append (c.rest.take count) (c.rest.drop count)
  rw [List.take_append_drop] at htake
  rw [Text.between, hdrop, hlength, htake, rest_advance, List.take_append_drop]

end Cursor

end SceneScript
