import Highlight.FileStore
import Highlight.LineSource
import Highlight.Text.Bytes

/-!
# Text buffers

A buffer holds a text and knows where its lines start. Offsets into it count characters. An edit
changes the text, moves the line starts behind it, and reports what it did, so that whoever keeps
something about the lines can follow.
-/

namespace Highlight

/-- The two ways to edit a text. -/
inductive EditKind where
  | insertion
  | removal
  deriving DecidableEq, Repr

/-- An edit that was made: the text that came in or went out at an offset in characters. -/
structure Edit where
  kind : EditKind
  offset : Nat
  text : String
  deriving DecidableEq, Repr

/-- An edit was asked for beyond the end of a text. -/
structure OffsetOutOfRange where
  offset : Nat
  /-- The length of the text in characters. -/
  length : Nat
  deriving DecidableEq, Repr

/-- The complaint about an offset beyond the end. -/
def OffsetOutOfRange.message (error : OffsetOutOfRange) : String :=
  s!"Offset {error.offset} is outside the buffer (length {error.length})"

/-- A text with the byte offsets at which its lines start. -/
structure TextBuffer where
  text : String
  lineStarts : Array Nat
  /-- The name of the file that the text was read from. -/
  fileName? : Option String
  deriving DecidableEq, Repr

namespace TextBuffer

/-- The byte offset just past each line break of a text that begins at byte `position`. -/
def startsAfterBreaks (position : Nat) : List Char → List Nat
  | [] => []
  | c :: rest =>
      let next := position + c.utf8Size
      if c = '\n' then next :: startsAfterBreaks next rest else startsAfterBreaks next rest

/-- The byte offsets at which the lines of a text start. There is always a first line. -/
def indexLines (chars : List Char) : List Nat :=
  0 :: startsAfterBreaks 0 chars

/-- The line starts after a text was inserted at byte `position`: those behind it move back by its
size, and its own line breaks start new lines. -/
def startsAfterInsert (starts : List Nat) (position : Nat) (inserted : List Char) : List Nat :=
  starts.takeWhile (· ≤ position) ++ startsAfterBreaks position inserted ++
    (starts.dropWhile (· ≤ position)).map (· + Text.byteSize inserted)

/-- The line starts after the bytes from `first` to `last` were removed: those within are gone and
those behind move forward. -/
def startsAfterRemove (starts : List Nat) (first last : Nat) : List Nat :=
  starts.takeWhile (· ≤ first) ++ (starts.dropWhile (· ≤ last)).map (· - (last - first))

/-- A buffer that holds a text. -/
def ofText (text : String) : TextBuffer :=
  ⟨text, (indexLines text.toList).toArray, none⟩

/-- An empty buffer has one empty line. -/
def empty : TextBuffer :=
  ofText ""

/-- A buffer that holds the text of a file and knows its name. -/
def load (store : FileStore) (path : String) : Except Failure TextBuffer := do
  let text ← store.readText path
  return { ofText text with fileName? := some path }

/-- The length of the text in characters. -/
def length (buffer : TextBuffer) : Nat :=
  buffer.text.length

/-- The byte offset of a character. The end of the text counts as one. -/
def byteOffset (buffer : TextBuffer) (offset : Nat) : Except OffsetOutOfRange Nat :=
  if offset ≤ buffer.length then .ok (Text.byteOffset buffer.text.toList offset)
  else .error ⟨offset, buffer.length⟩

/-- What becomes of a request for an edit: the edit that was made or a complaint, and the buffer
that is left. -/
abbrev Outcome := Except OffsetOutOfRange Edit × TextBuffer

/-- Insert a text at an offset. The text that is there is cut in two at the byte position of the
offset; there is no outcome if it cannot be cut there. -/
def insertInPlace? (buffer : TextBuffer) (offset : Nat) (inserted : String) : Option Outcome :=
  match buffer.byteOffset offset with
  | .error error => some (.error error, buffer)
  | .ok position => do
      let before ← Text.slice? buffer.text 0 position
      let after ← Text.slice? buffer.text position buffer.text.utf8ByteSize
      let starts := startsAfterInsert buffer.lineStarts.toList position inserted.toList
      return (.ok ⟨.insertion, offset, inserted⟩,
        { buffer with text := before ++ inserted ++ after, lineStarts := starts.toArray })

/-- Remove `count` characters from an offset on. Their bytes are cut out of the text; there is no
outcome if they cannot be. -/
def removeInPlace? (buffer : TextBuffer) (offset count : Nat) : Option Outcome :=
  match buffer.byteOffset offset with
  | .error error => some (.error error, buffer)
  | .ok first =>
      match buffer.byteOffset (offset + count) with
      | .error error => some (.error error, buffer)
      | .ok last => do
          let before ← Text.slice? buffer.text 0 first
          let removed ← Text.slice? buffer.text first last
          let after ← Text.slice? buffer.text last buffer.text.utf8ByteSize
          let starts := startsAfterRemove buffer.lineStarts.toList first last
          return (.ok ⟨.removal, offset, removed⟩,
            { buffer with text := before ++ after, lineStarts := starts.toArray })

/-- What is before a character of a text. -/
theorem slice?_before (text : String) (offset : Nat) :
    Text.slice? text 0 (Text.byteOffset text.toList offset) =
      some (String.ofList (text.toList.take offset)) := by
  have h := Text.slice?_byteOffset text (Nat.zero_le offset)
  rwa [Text.byteOffset_zero, List.drop_zero, Nat.sub_zero] at h

/-- What is behind a character of a text. -/
theorem slice?_behind {text : String} {offset : Nat} (h : offset ≤ text.length) :
    Text.slice? text (Text.byteOffset text.toList offset) text.utf8ByteSize =
      some (String.ofList (text.toList.drop offset)) := by
  rw [← String.length_toList] at h
  have hslice := Text.slice?_byteOffset text h
  rwa [Text.byteOffset_length, Text.byteSize_toList, List.take_of_length_le (by simp)] at hslice

/-- The buffer with a text between the characters before an offset and those behind it. -/
def withInserted (buffer : TextBuffer) (offset : Nat) (inserted : String) : TextBuffer :=
  let chars := buffer.text.toList
  let position := Text.byteOffset chars offset
  { buffer with
    text := String.ofList (chars.take offset ++ inserted.toList ++ chars.drop offset)
    lineStarts :=
      (startsAfterInsert buffer.lineStarts.toList position inserted.toList).toArray }

/-- The buffer without the `count` characters from an offset on. -/
def withRemoved (buffer : TextBuffer) (offset count : Nat) : TextBuffer :=
  let chars := buffer.text.toList
  let first := Text.byteOffset chars offset
  let last := Text.byteOffset chars (offset + count)
  { buffer with
    text := String.ofList (chars.take offset ++ chars.drop (offset + count))
    lineStarts := (startsAfterRemove buffer.lineStarts.toList first last).toArray }

/-- A text is cut at the character of the offset. A buffer without that offset stays as it is. -/
theorem insertInPlace?_eq (buffer : TextBuffer) (offset : Nat) (inserted : String) :
    buffer.insertInPlace? offset inserted = some
      (if offset ≤ buffer.length then
        (.ok ⟨.insertion, offset, inserted⟩, buffer.withInserted offset inserted)
      else
        (.error ⟨offset, buffer.length⟩, buffer)) := by
  rw [insertInPlace?, byteOffset, withInserted]
  by_cases hoffset : offset ≤ buffer.length
  · simp only [if_pos hoffset, slice?_before, slice?_behind hoffset, Option.bind_eq_bind,
      Option.bind_some, String.ofList_append, String.ofList_toList]
    rfl
  · simp only [if_neg hoffset]

/-- A text is cut at the characters where the removal begins and where it ends. A buffer that does
not have all of the characters stays as it is. -/
theorem removeInPlace?_eq (buffer : TextBuffer) (offset count : Nat) :
    buffer.removeInPlace? offset count = some
      (if offset ≤ buffer.length then
        if offset + count ≤ buffer.length then
          (.ok ⟨.removal, offset, String.ofList ((buffer.text.toList.drop offset).take count)⟩,
            buffer.withRemoved offset count)
        else
          (.error ⟨offset + count, buffer.length⟩, buffer)
      else
        (.error ⟨offset, buffer.length⟩, buffer)) := by
  rw [removeInPlace?, byteOffset, byteOffset, withRemoved]
  by_cases hoffset : offset ≤ buffer.length
  · by_cases hend : offset + count ≤ buffer.length
    · have hremoved := Text.slice?_byteOffset buffer.text (Nat.le_add_right offset count)
      rw [Nat.add_sub_cancel_left] at hremoved
      simp only [if_pos hoffset, if_pos hend, slice?_before, slice?_behind hend, hremoved,
        Option.bind_eq_bind, Option.bind_some, String.ofList_append]
      rfl
    · simp only [if_pos hoffset, if_neg hend]
  · simp only [if_neg hoffset]

/-- Insert a text at an offset. There is an outcome, because offsets are edges of characters. -/
def insertInPlace (buffer : TextBuffer) (offset : Nat) (inserted : String) : Outcome :=
  (buffer.insertInPlace? offset inserted).get (by rw [insertInPlace?_eq]; rfl)

/-- Remove `count` characters from an offset on. -/
def removeInPlace (buffer : TextBuffer) (offset count : Nat) : Outcome :=
  (buffer.removeInPlace? offset count).get (by rw [removeInPlace?_eq]; rfl)

/-- The edited buffer and the edit, if one was made. -/
def Outcome.edited (outcome : Outcome) : Except OffsetOutOfRange (TextBuffer × Edit) :=
  outcome.1.map fun edit => (outcome.2, edit)

/-- Insert a text at an offset. -/
def insert (buffer : TextBuffer) (offset : Nat) (inserted : String) :
    Except OffsetOutOfRange (TextBuffer × Edit) :=
  Outcome.edited (buffer.insertInPlace offset inserted)

/-- Remove `count` characters from an offset on. -/
def remove (buffer : TextBuffer) (offset count : Nat) :
    Except OffsetOutOfRange (TextBuffer × Edit) :=
  Outcome.edited (buffer.removeInPlace offset count)

/-- How a text is inserted, told by its characters. -/
theorem insert_eq (buffer : TextBuffer) (offset : Nat) (inserted : String) :
    buffer.insert offset inserted =
      if offset ≤ buffer.length then
        .ok (buffer.withInserted offset inserted, ⟨.insertion, offset, inserted⟩)
      else
        .error ⟨offset, buffer.length⟩ := by
  simp only [insert, insertInPlace, insertInPlace?_eq, Option.get_some]
  split <;> rfl

/-- How a text is removed, told by its characters. -/
theorem remove_eq (buffer : TextBuffer) (offset count : Nat) :
    buffer.remove offset count =
      if offset ≤ buffer.length then
        if offset + count ≤ buffer.length then
          .ok (buffer.withRemoved offset count,
            ⟨.removal, offset, String.ofList ((buffer.text.toList.drop offset).take count)⟩)
        else
          .error ⟨offset + count, buffer.length⟩
      else
        .error ⟨offset, buffer.length⟩ := by
  simp only [remove, removeInPlace, removeInPlace?_eq, Option.get_some]
  split
  · split <;> rfl
  · rfl

/-- A buffer that refuses an edit is left as it was, and one that was edited is the edited one. -/
theorem insertInPlace_eq (buffer : TextBuffer) (offset : Nat) (inserted : String) :
    buffer.insertInPlace offset inserted =
      match buffer.insert offset inserted with
      | .ok (edited, edit) => (.ok edit, edited)
      | .error error => (.error error, buffer) := by
  rw [insert_eq]
  simp only [insertInPlace, insertInPlace?_eq, Option.get_some]
  split <;> rfl

/-- The same holds for removals. -/
theorem removeInPlace_eq (buffer : TextBuffer) (offset count : Nat) :
    buffer.removeInPlace offset count =
      match buffer.remove offset count with
      | .ok (edited, edit) => (.ok edit, edited)
      | .error error => (.error error, buffer) := by
  rw [remove_eq]
  simp only [removeInPlace, removeInPlace?_eq, Option.get_some]
  split
  · split <;> rfl
  · rfl

/-- Put another text in the place of the whole one. The file name stays. -/
def replaceAll (buffer : TextBuffer) (text : String) : TextBuffer :=
  { ofText text with fileName? := buffer.fileName? }

/-- The characters from offset `start` to offset `stop`, as far as the text goes. -/
def sliceChars (buffer : TextBuffer) (start stop : Nat) : List Char :=
  (buffer.text.toList.drop start).take (stop - start)

/-- The index of the line that holds an offset; beyond the end it is the last line. -/
def lineIndexOf (buffer : TextBuffer) (offset : Nat) : Nat :=
  let position := Text.byteOffset buffer.text.toList offset
  (buffer.lineStarts.toList.takeWhile (· ≤ position)).length - 1

/-- A line without its line break: the text from where it starts to just before the next line. -/
def line? (buffer : TextBuffer) (index : Nat) : Option String := do
  let start ← buffer.lineStarts[index]?
  let stop :=
    match buffer.lineStarts[index + 1]? with
    | some next => next - 1
    | none => buffer.text.utf8ByteSize
  Text.slice? buffer.text start stop

/-- The lines of a buffer. -/
instance : LineSource TextBuffer where
  lineCount buffer := buffer.lineStarts.size
  line? := line?

/-- All lines in order. -/
def lines (buffer : TextBuffer) : List String :=
  (List.range (lineCount buffer)).map (LineSource.lineText buffer)

end TextBuffer

end Highlight
