import Highlight.Text.Bytes

/-!
# Spans of a line

A line is shown as a row of spans: pieces of its text, each with its lexical kind and the byte
offset at which it starts. `Span.clip?` cuts a span to a window of bytes and keeps whole
characters.
-/

namespace Highlight

/-- The lexical kinds of text. -/
inductive SpanKind where
  /-- Plain source text. -/
  | normal
  /-- A quoted string or character literal with its quotes. -/
  | string
  /-- A comment up to the end of the line, or a part of a block comment. -/
  | comment
  /-- A word of the language's keyword set. -/
  | keyword
  /-- A string literal that its line leaves open. -/
  | error
  deriving DecidableEq, Repr

/-- A colour by its red, green and blue parts. -/
structure Colour where
  red : UInt8
  green : UInt8
  blue : UInt8
  deriving DecidableEq, Repr

/-- A byte as two lower-case hexadecimal digits. -/
def Colour.hexByte (byte : UInt8) : String :=
  String.ofList [Nat.digitChar (byte.toNat / 16), Nat.digitChar (byte.toNat % 16)]

/-- A colour as six lower-case hexadecimal digits. -/
def Colour.hex (colour : Colour) : String :=
  hexByte colour.red ++ hexByte colour.green ++ hexByte colour.blue

namespace SpanKind

/-- Every kind once. -/
def all : List SpanKind :=
  [normal, string, comment, keyword, error]

/-- The name under which a kind is shown. -/
def name : SpanKind → String
  | normal => "normal"
  | string => "string"
  | comment => "comment"
  | keyword => "keyword"
  | error => "error"

/-- The kind of a name, whose ASCII letters may be in either case. -/
def ofName? (given : String) : Option SpanKind :=
  all.find? fun kind => kind.name == given.toLower

/-- The text colour of a kind where no other is chosen. -/
def defaultColour : SpanKind → Colour
  | normal => ⟨0x00, 0x00, 0x00⟩
  | string => ⟨0x00, 0x00, 0xff⟩
  | comment => ⟨0x22, 0x77, 0x22⟩
  | keyword => ⟨0x77, 0x00, 0x22⟩
  | error => ⟨0xff, 0x00, 0x00⟩

/-- A kind is found again by its name. -/
theorem ofName?_name (kind : SpanKind) : ofName? kind.name = some kind := by
  cases kind <;> decide +kernel

end SpanKind

/-- A run of text within one line. -/
structure Span where
  kind : SpanKind
  /-- The byte offset in the line at which the text starts. -/
  start : Nat
  text : String
  deriving DecidableEq, Repr

namespace Span

/-- The span of a line from byte `start` to byte `stop`, if these cut out a piece of its text. -/
def ofSlice? (kind : SpanKind) (line : String) (start stop : Nat) : Option Span :=
  (Text.slice? line start stop).map fun text => ⟨kind, start, text⟩

/-- The length of the text in bytes. -/
def size (span : Span) : Nat :=
  span.text.utf8ByteSize

/-- The byte offset in the line just past the text. -/
def stop (span : Span) : Nat :=
  span.start + span.size

/-- A span without text. -/
def isEmpty (span : Span) : Bool :=
  span.size == 0

/-- The part of a span within the bytes `first` to `last` of its line. The range is narrowed to
the span, then either end that falls inside a character is moved outward to take the character
whole. -/
def clip? (span : Span) (first last : Nat) : Option Span :=
  let chars := span.text.toList
  let lower := Text.floorBoundary chars (max first span.start - span.start)
  let upper := Text.ceilBoundary chars (min last span.stop - span.start)
  if lower < upper then
    (Text.slice? span.text lower upper).map fun text => ⟨span.kind, span.start + lower, text⟩
  else
    none

/-- The texts of the spans one after the other. -/
def concat (spans : List Span) : String :=
  String.join (spans.map Span.text)

/-- No spans have no text. -/
@[simp]
theorem concat_nil : concat [] = "" := rfl

/-- The text of the first span comes first. -/
@[simp]
theorem concat_cons (span : Span) (rest : List Span) :
    concat (span :: rest) = span.text ++ concat rest := by
  simp [concat]

end Span

end Highlight
