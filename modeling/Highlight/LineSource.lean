/-!
# Sources of lines

The styling of a text reads its lines by index from whoever holds them: a list, an array or a text
buffer.
-/

namespace Highlight

/-- A text that can be read line by line. -/
class LineSource (α : Type) where
  lineCount : α → Nat
  /-- The text of a line without its line break, if there is such a line. -/
  line? : α → Nat → Option String

export LineSource (lineCount)

namespace LineSource

variable {α : Type} [LineSource α]

/-- The text of a line; a line that is missing reads as an empty one. -/
def lineText (lines : α) (index : Nat) : String :=
  (line? lines index).getD ""

end LineSource

/-- A list of lines. -/
instance : LineSource (List String) where
  lineCount := List.length
  line? lines index := lines[index]?

/-- An array of lines. -/
instance : LineSource (Array String) where
  lineCount := Array.size
  line? lines index := lines[index]?

/-- A line was asked for that its source does not have. -/
structure LineOutOfRange where
  line : Nat
  lineCount : Nat
  deriving DecidableEq, Repr

/-- The complaint about a missing line. -/
def LineOutOfRange.message (error : LineOutOfRange) : String :=
  s!"line {error.line} out of range ({error.lineCount} lines)"

end Highlight
