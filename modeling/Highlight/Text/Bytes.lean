/-!
# Byte positions in a text

A text is kept as UTF-8 and positions in it are byte offsets. A range of bytes is a piece of the
text only if both of its ends lie on the edge of a character; `slice?` cuts out such a range, and
`slice?_eq_some_iff` says exactly when it does and what it returns. A position inside a character
is moved to its edge by `floorBoundary` or `ceilBoundary`.
-/

namespace Highlight.Text

/-- The number of bytes that the characters take in UTF-8. -/
def byteSize : List Char → Nat
  | [] => 0
  | c :: rest => c.utf8Size + byteSize rest

/-- No characters take no bytes. -/
@[simp]
theorem byteSize_nil : byteSize [] = 0 := rfl

/-- The first character takes its bytes and the others theirs. -/
@[simp]
theorem byteSize_cons (c : Char) (rest : List Char) :
    byteSize (c :: rest) = c.utf8Size + byteSize rest := rfl

/-- Two texts take the bytes of both. -/
@[simp]
theorem byteSize_append (left right : List Char) :
    byteSize (left ++ right) = byteSize left + byteSize right := by
  induction left with
  | nil => simp
  | cons c left ih => simp [ih, Nat.add_assoc]

/-- The bytes of a string are counted character by character. -/
theorem byteSize_toList (text : String) : byteSize text.toList = text.utf8ByteSize := by
  suffices ∀ chars : List Char, byteSize chars = (String.ofList chars).utf8ByteSize by
    simpa using this text.toList
  intro chars
  induction chars with
  | nil => rfl
  | cons c rest ih => simp [ih, String.ofList_cons, String.utf8ByteSize_append]

/-- The piece of `text` from byte `start` to byte `stop`. There is none if the range leaves the
text, runs backwards or has an end inside a character. -/
def slice? (text : String) (start stop : Nat) : Option String :=
  if inside : String.Pos.Raw.IsValid text ⟨start⟩ ∧ String.Pos.Raw.IsValid text ⟨stop⟩ ∧
      start ≤ stop then
    some (text.extract (text.pos ⟨start⟩ inside.1) (text.pos ⟨stop⟩ inside.2.1))
  else
    none

/-- Cutting the middle out of a text of three parts. -/
theorem extract_middle {before piece after : String}
    {first last : (before ++ piece ++ after).Pos}
    (hfirst : first.offset.byteIdx = before.utf8ByteSize)
    (hlast : last.offset.byteIdx = before.utf8ByteSize + piece.utf8ByteSize) :
    (before ++ piece ++ after).extract first last = piece := by
  apply String.toByteArray_inj.mp
  rw [String.toByteArray_extract, hfirst, hlast]
  simp only [String.toByteArray_append, ← String.size_toByteArray]
  rw [ByteArray.append_assoc, ← Nat.add_zero before.toByteArray.size, Nat.add_assoc,
    ByteArray.extract_append_size_add, Nat.zero_add, ByteArray.extract_append_eq_left rfl]

/-- Only the empty text has no bytes. -/
theorem eq_nil_of_byteSize_eq_zero {chars : List Char} (h : byteSize chars = 0) : chars = [] := by
  cases chars with
  | nil => rfl
  | cons c rest =>
      have := c.utf8Size_pos
      rw [byteSize_cons] at h
      omega

/-- Of two ways to cut a text in two, the one with fewer bytes in its first part comes first. -/
theorem exists_middle {left right left' right' : List Char} (h : left ++ right = left' ++ right')
    (hle : byteSize left ≤ byteSize left') :
    ∃ middle, left' = left ++ middle ∧ right = middle ++ right' := by
  obtain hparts | ⟨middle, rfl, rfl⟩ := List.append_eq_append_iff.mp h
  · exact hparts
  · rw [byteSize_append] at hle
    obtain rfl : middle = [] := eq_nil_of_byteSize_eq_zero (by omega)
    exact ⟨[], by simp, rfl⟩

/-- Of two ways to cut a text in two, the one with the longer first part has the other's first
part as the front of its own. -/
theorem exists_between {left right left' right' : String} (h : left ++ right = left' ++ right')
    (hle : left.utf8ByteSize ≤ left'.utf8ByteSize) : ∃ middle, left' = left ++ middle := by
  have hchars := congrArg String.toList h
  simp only [String.toList_append] at hchars
  rw [← byteSize_toList, ← byteSize_toList left'] at hle
  obtain ⟨middle, hmiddle, -⟩ := exists_middle hchars hle
  exact ⟨String.ofList middle, String.toList_inj.mp (by simpa using hmiddle)⟩

/-- A slice is the middle of a text of three parts, cut at the given bytes. -/
theorem slice?_eq_some_iff {text piece : String} {start stop : Nat} :
    slice? text start stop = some piece ↔
      ∃ before after, text = before ++ piece ++ after ∧ before.utf8ByteSize = start ∧
        start + piece.utf8ByteSize = stop := by
  constructor
  · intro h
    unfold slice? at h
    split at h
    · rename_i inside
      obtain ⟨hstart, hstop, hle⟩ := inside
      obtain ⟨before, rest, htext, hbefore⟩ := String.Pos.Raw.isValid_iff_exists_append.mp hstart
      obtain ⟨longer, after, htext', hlonger⟩ := String.Pos.Raw.isValid_iff_exists_append.mp hstop
      have hbefore := congrArg String.Pos.Raw.byteIdx hbefore
      have hlonger := congrArg String.Pos.Raw.byteIdx hlonger
      simp only [String.byteIdx_rawEndPos] at hbefore hlonger
      obtain ⟨middle, rfl⟩ := exists_between (htext.symm.trans htext') (by omega)
      subst htext'
      rw [String.utf8ByteSize_append] at hlonger
      rw [extract_middle (by simpa using hbefore) (by simpa using hlonger)] at h
      obtain rfl := Option.some.inj h
      exact ⟨before, after, rfl, hbefore.symm, by omega⟩
    · simp at h
  · rintro ⟨before, after, rfl, rfl, rfl⟩
    unfold slice?
    rw [dif_pos]
    · rw [extract_middle] <;> simp
    · refine ⟨?_, ?_, by omega⟩
      · exact String.Pos.Raw.isValid_iff_exists_append.mpr
          ⟨before, piece ++ after, by simp [String.append_assoc], rfl⟩
      · exact String.Pos.Raw.isValid_iff_exists_append.mpr
          ⟨before ++ piece, after, rfl, by simp [String.Pos.Raw.ext_iff]⟩

/-- The nearest edge of a character at or before a byte position; a position beyond the text is
moved to its end. -/
def floorBoundary : List Char → Nat → Nat
  | [], _ => 0
  | c :: rest, position =>
      if position < c.utf8Size then 0
      else c.utf8Size + floorBoundary rest (position - c.utf8Size)

/-- The nearest edge of a character at or after a byte position; a position beyond the text is
moved to its end. -/
def ceilBoundary : List Char → Nat → Nat
  | [], _ => 0
  | c :: rest, position =>
      if position = 0 then 0
      else c.utf8Size + ceilBoundary rest (position - c.utf8Size)

/-- The byte position of a character, counted from the front; a count beyond the text is its
end. -/
def byteOffset (text : List Char) (count : Nat) : Nat :=
  byteSize (text.take count)

/-- The first character is at the first byte. -/
@[simp]
theorem byteOffset_zero (text : List Char) : byteOffset text 0 = 0 := rfl

/-- Behind all characters are all bytes. -/
@[simp]
theorem byteOffset_length (text : List Char) : byteOffset text text.length = byteSize text := by
  rw [byteOffset, List.take_length]

/-- A text can be cut at each of its characters. -/
theorem slice?_byteOffset (text : String) {first last : Nat} (h : first ≤ last) :
    slice? text (byteOffset text.toList first) (byteOffset text.toList last) =
      some (String.ofList ((text.toList.drop first).take (last - first))) := by
  have htake : text.toList.take last =
      text.toList.take first ++ (text.toList.drop first).take (last - first) := by
    rw [← List.take_add, Nat.add_sub_cancel' h]
  refine slice?_eq_some_iff.mpr ⟨String.ofList (text.toList.take first),
    String.ofList (text.toList.drop last), ?_, ?_, ?_⟩
  · apply String.toList_inj.mp
    simp only [String.toList_append, String.toList_ofList]
    rw [← htake, List.take_append_drop]
  · rw [← byteSize_toList, String.toList_ofList, byteOffset]
  · rw [← byteSize_toList, String.toList_ofList, byteOffset, byteOffset, htake, byteSize_append]

end Highlight.Text
