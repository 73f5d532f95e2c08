import Highlight.Proofs.Session

/-!
# The history of a buffer

A buffer is given one command after the other and replies to each. `TextBuffer.Holds` says that a
buffer stands for a plain list of characters and that its line index is the one that list would be
given anew. `Holds.respond` shows that one command keeps this and is replied to as the list would,
and `Holds.runAll` the same of any number of commands. From it follow the two main results about
all histories: `replies_as_plain_text`, that a buffer replies what a plain list of characters
replies, and `linesOfText_of_history`, that its lines are those of its text.
-/

namespace Highlight

/-- What can be asked of a text. -/
inductive Command where
  | edit (request : Request)
  | replaceAll (text : String)
  /-- How many characters are there? -/
  | length
  /-- The characters from offset `start` to offset `stop`. -/
  | slice (start stop : Nat)
  /-- Which line holds the offset? -/
  | lineIndexOf (offset : Nat)
  deriving DecidableEq, Repr

/-- What is replied to a command. -/
inductive Reply where
  | edited (edit : Edit)
  | refused (error : OffsetOutOfRange)
  | replaced
  | number (value : Nat)
  | slice (chars : List Char)
  deriving DecidableEq, Repr

/-- Give commands one after the other, and collect the replies. -/
def Command.runAll {State : Type} (respond : State → Command → State × Reply) (state : State) :
    List Command → State × List Reply
  | [] => (state, [])
  | command :: rest =>
      let first := respond state command
      let later := runAll respond first.1 rest
      (later.1, first.2 :: later.2)

/-! ## Plain lists of characters -/

namespace Text

/-- Insert a text at an offset of a list of characters. -/
def insert (chars : List Char) (offset : Nat) (text : String) :
    Except OffsetOutOfRange (List Char × Edit) :=
  if offset ≤ chars.length then
    .ok (chars.take offset ++ text.toList ++ chars.drop offset, ⟨.insertion, offset, text⟩)
  else
    .error ⟨offset, chars.length⟩

/-- Remove `count` characters from an offset on. If they are not all there, the complaint is about
the first of the two ends that is out of range. -/
def remove (chars : List Char) (offset count : Nat) :
    Except OffsetOutOfRange (List Char × Edit) :=
  if offset + count ≤ chars.length then
    .ok (chars.take offset ++ chars.drop (offset + count),
      ⟨.removal, offset, String.ofList ((chars.take (offset + count)).drop offset)⟩)
  else
    .error ⟨if chars.length < offset then offset else offset + count, chars.length⟩

/-- Carry out an edit on a list of characters. -/
def perform (chars : List Char) : Request → Except OffsetOutOfRange (List Char × Edit)
  | .insert offset text => insert chars offset text
  | .remove offset count => remove chars offset count

/-- What a command makes of a list of characters, and the reply to it. -/
def respond (chars : List Char) : Command → List Char × Reply
  | .edit request =>
      match perform chars request with
      | .ok (edited, edit) => (edited, .edited edit)
      | .error error => (chars, .refused error)
  | .replaceAll text => (text.toList, .replaced)
  | .length => (chars, .number chars.length)
  | .slice start stop => (chars, .slice ((chars.take stop).drop start))
  | .lineIndexOf offset =>
      (chars, .number ((chars.take (min offset chars.length)).count '\n'))

end Text

/-! ## Buffers -/

namespace TextBuffer

/-- What a command makes of a buffer, and the reply to it. -/
def respond (buffer : TextBuffer) : Command → TextBuffer × Reply
  | .edit request =>
      match buffer.performInPlace request with
      | (.ok edit, edited) => (edited, .edited edit)
      | (.error error, left) => (left, .refused error)
  | .replaceAll text => (buffer.replaceAll text, .replaced)
  | .length => (buffer, .number buffer.length)
  | .slice start stop => (buffer, .slice (buffer.sliceChars start stop))
  | .lineIndexOf offset => (buffer, .number (buffer.lineIndexOf offset))

/-- The characters of an edited buffer, with the edit that was reported. -/
def outcome (edited : TextBuffer × Edit) : List Char × Edit :=
  (edited.1.text.toList, edited.2)

/-- Inserting into a buffer inserts into its text. -/
theorem map_insert (buffer : TextBuffer) (offset : Nat) (text : String) :
    (buffer.insert offset text).map outcome = Text.insert buffer.text.toList offset text := by
  rw [insert_eq, Text.insert, TextBuffer.length, ← String.length_toList]
  split
  · simp [Except.map, outcome, withInserted]
  · rfl

/-- Removing from a buffer removes from its text. -/
theorem map_remove (buffer : TextBuffer) (offset count : Nat) :
    (buffer.remove offset count).map outcome = Text.remove buffer.text.toList offset count := by
  rw [remove_eq, Text.remove, TextBuffer.length, ← String.length_toList]
  by_cases hend : offset + count ≤ buffer.text.toList.length
  · rw [if_pos hend, if_pos hend, if_pos (Nat.le_of_add_right_le hend)]
    simp [Except.map, outcome, withRemoved, List.drop_take]
  · rw [if_neg hend, if_neg hend]
    -- The offset is looked up first, so it is the one that is complained about.
    by_cases hoffset : offset ≤ buffer.text.toList.length
    · rw [if_pos hoffset, if_neg (Nat.not_lt.mpr hoffset)]
      rfl
    · rw [if_neg hoffset, if_pos (Nat.lt_of_not_le hoffset)]
      rfl

/-- Edits succeed, fail and turn out as on the characters alone. -/
theorem map_perform (buffer : TextBuffer) (request : Request) :
    (buffer.perform request).map outcome = Text.perform buffer.text.toList request := by
  cases request with
  | insert offset text => exact map_insert buffer offset text
  | remove offset count => exact map_remove buffer offset count

/-- A buffer with an index of its lines that holds the characters. -/
structure Holds (buffer : TextBuffer) (chars : List Char) : Prop where
  indexed : buffer.Indexed
  toList_text : buffer.text.toList = chars

variable {buffer : TextBuffer} {chars : List Char}

/-- A buffer that refuses an edit does so for the reason that its characters give. -/
theorem Holds.perform_of_error (h : buffer.Holds chars) {request : Request}
    {error : OffsetOutOfRange} (hperform : buffer.perform request = .error error) :
    Text.perform chars request = .error error := by
  rw [← h.toList_text, ← map_perform, hperform]
  rfl

/-- A buffer that was edited holds the edited characters. -/
theorem Holds.perform_of_ok (h : buffer.Holds chars) {request : Request} {edited : TextBuffer}
    {edit : Edit} (hperform : buffer.perform request = .ok (edited, edit)) :
    Text.perform chars request = .ok (edited.text.toList, edit) ∧
      edited.Holds edited.text.toList := by
  refine ⟨?_, (h.indexed.perform hperform).1, rfl⟩
  rw [← h.toList_text, ← map_perform, hperform]
  rfl

/-- A command has the same reply whether it is given to a buffer or to the characters that it
holds, and both go on to hold the same. -/
theorem Holds.respond (h : buffer.Holds chars) (command : Command) :
    (buffer.respond command).2 = (Text.respond chars command).2 ∧
      (buffer.respond command).1.Holds (Text.respond chars command).1 := by
  cases command with
  | edit request =>
      rw [TextBuffer.respond, Text.respond, performInPlace_eq]
      cases hperform : buffer.perform request with
      | error error =>
          rw [h.perform_of_error hperform]
          exact ⟨rfl, h⟩
      | ok result =>
          obtain ⟨edited, edit⟩ := result
          obtain ⟨hchars, hedited⟩ := h.perform_of_ok hperform
          rw [hchars]
          exact ⟨rfl, hedited⟩
  | replaceAll text => exact ⟨rfl, buffer.indexed_replaceAll text, rfl⟩
  | length =>
      refine ⟨?_, h⟩
      rw [TextBuffer.respond, Text.respond, TextBuffer.length, ← String.length_toList,
        h.toList_text]
  | slice start stop =>
      refine ⟨?_, h⟩
      rw [TextBuffer.respond, Text.respond, sliceChars, h.toList_text, List.drop_take]
  | lineIndexOf offset =>
      refine ⟨?_, h⟩
      rw [TextBuffer.respond, Text.respond, h.indexed.lineIndexOf_eq, h.toList_text,
        ← List.take_eq_take_min]

/-- The same is true of commands one after the other. -/
theorem Holds.runAll (h : buffer.Holds chars) (commands : List Command) :
    (Command.runAll TextBuffer.respond buffer commands).2 =
        (Command.runAll Text.respond chars commands).2 ∧
      (Command.runAll TextBuffer.respond buffer commands).1.Holds
        (Command.runAll Text.respond chars commands).1 := by
  induction commands generalizing buffer chars with
  | nil => exact ⟨rfl, h⟩
  | cons command rest ih =>
      obtain ⟨hreply, hnext⟩ := h.respond command
      obtain ⟨hreplies, hlast⟩ := ih hnext
      refine ⟨?_, hlast⟩
      rw [Command.runAll, Command.runAll, hreply, hreplies]

/-- Whatever is asked of a buffer, it replies what a plain list of characters replies, and holds
what the list then is, with its lines indexed anew. -/
theorem replies_as_plain_text (fileName? : Option String) (text : String)
    (commands : List Command) :
    let start : TextBuffer := { ofText text with fileName? := fileName? }
    let last := Command.runAll TextBuffer.respond start commands
    let plain := Command.runAll Text.respond text.toList commands
    last.2 = plain.2 ∧ last.1.text.toList = plain.1 ∧
      last.1.lineStarts.toList = indexLines plain.1 := by
  have hstart : Holds { ofText text with fileName? := fileName? } text.toList :=
    ⟨indexed_ofText text, rfl⟩
  obtain ⟨hreplies, hlast⟩ := hstart.runAll commands
  exact ⟨hreplies, hlast.toList_text, hlast.toList_text ▸ hlast.indexed⟩

/-! ## Lines -/

/-- The starts of lines ascend. -/
theorem pairwise_startsAfterBreaks (position : Nat) (chars : List Char) :
    (startsAfterBreaks position chars).Pairwise (· < ·) := by
  induction chars generalizing position with
  | nil => exact List.Pairwise.nil
  | cons c rest ih =>
      rw [startsAfterBreaks]
      split
      · exact List.Pairwise.cons (fun start hstart => (bounds_of_mem_startsAfterBreaks hstart).1)
          (ih _)
      · exact ih _

/-- The line starts of a text increase. -/
theorem pairwise_indexLines (chars : List Char) : (indexLines chars).Pairwise (· < ·) :=
  List.Pairwise.cons (fun _ hstart => (bounds_of_mem_startsAfterBreaks hstart).1)
    (pairwise_startsAfterBreaks 0 chars)

/-- The lines of an indexed buffer are those of its text. -/
theorem Indexed.lines_eq (h : buffer.Indexed) :
    buffer.lines = (Text.lines buffer.text.toList).map String.ofList := by
  apply List.ext_getElem
  · rw [TextBuffer.lines, List.length_map, List.length_range, h.lineCount_eq, List.length_map]
  · intro index hleft hright
    rw [List.length_map] at hright
    simp only [TextBuffer.lines, List.getElem_map, List.getElem_range]
    rw [h.lineText_eq, List.getElem?_eq_getElem hright]
    rfl

/-- The lines of a buffer are those of its text. -/
theorem Indexed.map_toList_lines (h : buffer.Indexed) :
    buffer.lines.map String.toList = Text.lines buffer.text.toList := by
  simp [h.lines_eq, Function.comp_def]

/-- The lines of a buffer are those of its text. -/
structure LinesOfText (buffer : TextBuffer) : Prop where
  /-- The kept line starts are those of a new index. -/
  lineStarts_eq : buffer.lineStarts = (ofText buffer.text).lineStarts
  /-- The line starts increase, so that they can be searched by halving. -/
  pairwise_lineStarts : buffer.lineStarts.toList.Pairwise (· < ·)
  /-- Every line can be cut out of the text, and no other. -/
  isSome_line? : ∀ index, (buffer.line? index).isSome ↔ index < lineCount buffer
  lineCount_eq : lineCount buffer = buffer.text.toList.count '\n' + 1
  toList_lines : buffer.lines.map String.toList = buffer.text.toList.splitOn '\n'
  not_mem_line : ∀ line ∈ buffer.lines, '\n' ∉ line.toList
  intercalate_lines : "\n".intercalate buffer.lines = buffer.text

/-- A buffer whose index fits its text has the lines of the text. -/
theorem Indexed.linesOfText (h : buffer.Indexed) : buffer.LinesOfText where
  lineStarts_eq := Array.toList_inj.mp h
  pairwise_lineStarts := h ▸ pairwise_indexLines buffer.text.toList
  isSome_line? index := by
    rw [h.line?_eq, Option.isSome_map, h.lineCount_eq, Option.isSome_iff_ne_none, ne_eq,
      List.getElem?_eq_none_iff, Nat.not_le]
  lineCount_eq := by rw [h.lineCount_eq, Text.length_lines]
  toList_lines := h.map_toList_lines
  not_mem_line := by
    intro line hline
    have hchars := List.mem_map_of_mem (f := String.toList) hline
    rw [h.map_toList_lines] at hchars
    exact Text.not_mem_of_mem_lines hchars
  intercalate_lines := by
    apply String.toList_inj.mp
    rw [String.toList_intercalate, h.map_toList_lines]
    exact List.intercalate_splitOn '\n'

/-- After any commands, those that are refused among them, the lines of a buffer are those of its
text. -/
theorem linesOfText_of_history (text : String) (commands : List Command) :
    (Command.runAll TextBuffer.respond (ofText text) commands).1.LinesOfText :=
  (Holds.runAll ⟨indexed_ofText text, rfl⟩ commands).2.indexed.linesOfText

end TextBuffer
end Highlight
