import Highlight.Line

/-!
# Scanning a line by bytes

A line is read byte by byte. All marks that matter are single bytes, and no byte of a character from
outside ASCII looks like one, so a position inside such a character does no harm. What was read
since the last span is plain text until a mark ends it. Spans are cut out of the line at the
positions that were found.
-/

namespace Highlight.Line

/-- The byte of an ASCII character. -/
def asciiByte (c : Char) : UInt8 :=
  c.val.toUInt8

/-- How many bytes stand before the first end of a comment. -/
def commentEndIndex? : List UInt8 → Option Nat
  | first :: second :: rest =>
      if first = asciiByte '*' ∧ second = asciiByte '/' then some 0
      else (commentEndIndex? (second :: rest)).map (· + 1)
  | _ => none

/-- The position just past the first end of a comment at or behind a position. The search fails if
the position is outside the line. -/
def commentEnd? (bytes : List UInt8) (position : Nat) : Option (Option Nat) := do
  let rest ← Quote.drop? bytes position
  return (commentEndIndex? rest).map (position + · + 2)

/-- What the bytes from a position on begin with outside strings and comments. -/
def openingAt (bytes : Array UInt8) (shellComments : Bool) (position : Nat) : Lexeme.Opening :=
  match bytes[position]? with
  | none => .plain
  | some byte =>
      if byte = asciiByte '#' ∧ shellComments then .lineComment
      else if byte = asciiByte '/' ∧ bytes[position + 1]? = some (asciiByte '*') then .blockComment
      else if byte = asciiByte '/' ∧ bytes[position + 1]? = some (asciiByte '/') then .lineComment
      else if byte = asciiByte '"' then .quote '"'
      else if byte = asciiByte '\'' then .quote '\''
      else .plain

/-- Put the span of a line from byte `start` to byte `stop` in front of what is scanned later. -/
def emit? (line : String) (kind : SpanKind) (start stop : Nat) (later : Option LineScan) :
    Option LineScan := do
  let span ← Span.ofSlice? kind line start stop
  let scan ← later
  return ⟨span :: scan.spans, scan.endsInComment⟩

/-- Put the plain text from byte `start` to byte `stop`, unless it is empty, in front of what is
scanned later. -/
def emitPlain? (line : String) (start stop : Nat) (later : Option LineScan) : Option LineScan :=
  if start < stop then emit? line .normal start stop later else later

/-- A comment ends behind the position from which its end is searched. -/
theorem lt_of_commentEnd? {bytes : List UInt8} {position stop : Nat}
    (h : commentEnd? bytes position = some (some stop)) : position < stop := by
  obtain ⟨rest, -, h⟩ := Option.bind_eq_some_iff.mp h
  obtain ⟨index, -, rfl⟩ := Option.map_eq_some_iff.mp (Option.some.inj h)
  omega

/-- Scan a line from byte `position` on. The bytes from `runStart` on are in no span yet: they are
plain text or, inside a comment, a part of it. There is no result if a position is not one at which
the line can be cut. -/
def scanFrom? (line : String) (bytes : Array UInt8) (shellComments inComment : Bool)
    (runStart position : Nat) : Option LineScan :=
  if _ : position < bytes.size then
    if inComment then
      match _ : commentEnd? bytes.toList position with
      | none => none
      | some none => emit? line .comment runStart bytes.size (some ⟨[], true⟩)
      | some (some stop) =>
          emit? line .comment runStart stop (scanFrom? line bytes shellComments false stop stop)
    else
      match openingAt bytes shellComments position with
      | .plain => scanFrom? line bytes shellComments false runStart (position + 1)
      | .lineComment =>
          emitPlain? line runStart position
            (emit? line .comment position bytes.size (some ⟨[], false⟩))
      | .blockComment =>
          emitPlain? line runStart position
            (scanFrom? line bytes shellComments true position (position + 2))
      | .quote mark =>
          emitPlain? line runStart position <|
            match _ : Quote.search? (asciiByte '\\') (asciiByte mark) bytes.toList
                (position + 1) with
            | none => none
            | some none => emit? line .error position bytes.size (some ⟨[], false⟩)
            | some (some stop) =>
                emit? line .string position stop
                  (scanFrom? line bytes shellComments false stop stop)
  else if runStart < bytes.size then
    emit? line (if inComment then .comment else .normal) runStart bytes.size (some ⟨[], inComment⟩)
  else
    some ⟨[], inComment⟩
termination_by bytes.size - position
decreasing_by
  · have hstop := lt_of_commentEnd? ‹_›
    omega
  · omega
  · omega
  · have hstop := Quote.lt_of_search? ‹_›
    omega

/-- Scan a line byte by byte. -/
def scanBytes? (line : String) (startsInComment shellComments : Bool) : Option LineScan :=
  scanFrom? line line.toUTF8.data shellComments startsInComment 0 0

end Highlight.Line
