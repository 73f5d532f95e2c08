import Highlight.Keywords
import Highlight.MachineWord

/-!
# Cutting out keywords by positions

The words of a text are found one by one as ranges of bytes. A loop over them keeps the position
where the plain text begins that is not cut out yet, and at each keyword it cuts out this text and
the word. The search for words is a parameter; `Run.findWords` is one that does it.
-/

namespace Highlight

/-- A search for the words of a text. It gives the byte where each begins and the one where it
ends. -/
abbrev WordSearch := String → List (Nat × Nat)

namespace Run

/-- The ranges of the words among runs, the first of which begins at a byte position. -/
def wordRanges (position : Nat) : List Run → List (Nat × Nat)
  | [] => []
  | run :: rest =>
      let stop := position + Text.byteSize run.chars
      if run.isWord then (position, stop) :: wordRanges stop rest else wordRanges stop rest

/-- The words of a text from left to right. -/
def findWords : WordSearch := fun text =>
  wordRanges 0 (ofChars text.toList)

end Run

/-- No letter or digit of the text touches the bytes from `start` to `stop`. There is no answer if
the text cannot be cut there. -/
def isWholeWord? (text : String) (start stop : Nat) : Option Bool := do
  let before ← Text.slice? text 0 start
  let after ← Text.slice? text stop text.utf8ByteSize
  return !before.toList.getLast?.any Text.isAlphanumeric &&
    !after.toList.head?.any Text.isAlphanumeric

/-- The piece of a span from byte `start` to byte `stop` of its text. -/
def Span.piece? (overflow : Overflow) (span : Span) (kind : SpanKind) (start stop : Nat) :
    Option Span := do
  let origin ← overflow.sum? span.start start
  let text ← Text.slice? span.text start stop
  return ⟨kind, origin, text⟩

namespace KeywordSet

/-- The bytes of the text from `start` to `stop`, which are a word of it, are a keyword. -/
def isKeyword? (keywords : KeywordSet) (text : String) (start stop : Nat) : Option Bool := do
  let word ← Text.slice? text start stop
  if keywords.contains word then isWholeWord? text start stop else some false

/-- The plain piece of a span from byte `start` to byte `stop` of its text, unless it is empty. -/
def gap? (overflow : Overflow) (span : Span) (start stop : Nat) : Option (List Span) :=
  if start < stop then do
    let piece ← span.piece? overflow .normal start stop
    return [piece]
  else
    some []

/-- The pieces of a plain span from byte `plainStart` of its text on, where the words from there on
are given. -/
def piecesFrom? (overflow : Overflow) (keywords : KeywordSet) (span : Span) (plainStart : Nat) :
    List (Nat × Nat) → Option (List Span)
  | [] => gap? overflow span plainStart span.size
  | (start, stop) :: rest => do
      let isKeyword ← keywords.isKeyword? span.text start stop
      if isKeyword then
        let gap ← gap? overflow span plainStart start
        let keyword ← span.piece? overflow .keyword start stop
        let later ← piecesFrom? overflow keywords span stop rest
        return gap ++ keyword :: later
      else
        piecesFrom? overflow keywords span plainStart rest

/-- Cut the keywords out of a span if it is plain text. -/
def splitSpan? (overflow : Overflow) (search : WordSearch) (keywords : KeywordSet) (span : Span) :
    Option (List Span) :=
  if span.kind = .normal then keywords.piecesFrom? overflow span 0 (search span.text)
  else some [span]

/-- Cut the keywords out of spans one after the other. -/
def splitAll? (overflow : Overflow) (search : WordSearch) (keywords : KeywordSet) :
    List Span → Option (List Span)
  | [] => some []
  | span :: rest => do
      let pieces ← keywords.splitSpan? overflow search span
      let later ← splitAll? overflow search keywords rest
      return pieces ++ later

/-- Cut the keywords out of the plain spans of a line. There is no result if the program stops. -/
def split? (overflow : Overflow) (search : WordSearch) (keywords : KeywordSet)
    (spans : List Span) : Option (List Span) :=
  if keywords.isEmpty then some spans else keywords.splitAll? overflow search spans

end KeywordSet

end Highlight
