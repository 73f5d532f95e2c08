import Highlight.Lexeme

/-!
# Scanning a line

A line is scanned on its own, given whether it begins inside a block comment. That is all that one
line hands to the next: strings and line comments end with their line. Here a line is read by its
characters; `scanBytes?` is the loop over its bytes.
-/

namespace Highlight

/-- The outcome of scanning a line. -/
structure LineScan where
  /-- Spans that make up the whole line in order. -/
  spans : List Span
  /-- The next line begins inside a block comment. -/
  endsInComment : Bool
  deriving DecidableEq, Repr

namespace Line

/-- The lexemes of a line, which may begin inside a block comment. -/
def read (startsInComment shellComments : Bool) (line : String) : Lexeme.Reading :=
  if startsInComment then Lexeme.readComment shellComments line.toList
  else Lexeme.readCode shellComments line.toList

/-- Scan a line into spans. -/
def scan (line : String) (startsInComment shellComments : Bool) : LineScan :=
  let reading := read startsInComment shellComments line
  ⟨Lexeme.layOut 0 reading.lexemes, reading.inComment⟩

/-- Whether the line after this one begins inside a block comment. -/
def endsInComment (line : String) (startsInComment shellComments : Bool) : Bool :=
  (read startsInComment shellComments line).inComment

/-- The lexemes of a line make it up. -/
theorem flatten_read (startsInComment shellComments : Bool) (line : String) :
    Lexeme.flatten (read startsInComment shellComments line).lexemes = line.toList := by
  rw [read]
  split
  · exact Lexeme.flatten_readComment shellComments line.toList
  · exact Lexeme.flatten_readCode shellComments line.toList

/-- The spans of a line make it up. -/
theorem concat_scan (line : String) (startsInComment shellComments : Bool) :
    Span.concat (scan line startsInComment shellComments).spans = line := by
  apply String.toList_inj.mp
  rw [scan, Lexeme.toList_concat_layOut, flatten_read]

/-- The scan and the comment state alone agree. -/
theorem scan_endsInComment (line : String) (startsInComment shellComments : Bool) :
    (scan line startsInComment shellComments).endsInComment =
      endsInComment line startsInComment shellComments := rfl

end Line

end Highlight
