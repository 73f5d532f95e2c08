/-!
# Blanks and comments in TOML

Between the parts of a document stand blanks, comments and line breaks. A line break is a line feed
with or without a carriage return before it; `normalizeBreaks` removes that carriage return once and
for all, so any that is left is out of place.
-/

namespace Highlight.Toml

/-- Turn every carriage return with a line feed into a line feed. -/
def normalizeBreaks : List Char → List Char
  | '\r' :: '\n' :: rest => '\n' :: normalizeBreaks rest
  | c :: rest => c :: normalizeBreaks rest
  | [] => []

/-- A blank within a line. -/
def isBlank (c : Char) : Bool :=
  c == ' ' || c == '\t'

/-- A blank or a line break. -/
def isBlankOrBreak (c : Char) : Bool :=
  isBlank c || c == '\n'

/-- A character that may stand for itself in a comment or a string: no control but the tab. -/
def isTextChar (c : Char) : Bool :=
  c == '\t' || (0x20 ≤ c.toNat && c.toNat != 0x7f)

/-- Leave out the blanks at the front. -/
def skipBlanks (chars : List Char) : List Char :=
  chars.dropWhile isBlank

/-- Leave out blanks, line breaks and comments at the front. The flag says that the text begins
inside a comment. -/
def skipFiller : Bool → List Char → List Char
  | _, [] => []
  | false, c :: rest =>
      if isBlankOrBreak c then skipFiller false rest
      else if c = '#' then skipFiller true rest
      else c :: rest
  | true, c :: rest =>
      if c = '\n' then skipFiller false rest
      else if isTextChar c then skipFiller true rest
      else c :: rest

/-- Leave out the rest of a line, which may hold a comment and nothing else. -/
def endLine? (chars : List Char) : Option (List Char) :=
  let after :=
    match skipBlanks chars with
    | '#' :: comment => comment.dropWhile isTextChar
    | rest => rest
  match after with
  | [] => some []
  | '\n' :: rest => some rest
  | _ => none

end Highlight.Toml
