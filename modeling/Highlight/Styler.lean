import Highlight.CommentCache
import Highlight.Keywords
import Highlight.Language
import Highlight.Marker

/-!
# Styling a text that is being edited

A styler styles the lines of one text in one language. It owns no text: the lines are given with
every request, and edits are told to it after they were made. It keeps the comment state of the
lines and forgets as much of it as an edit seems to change.
-/

namespace Highlight

/-- The styling of one text. -/
structure Styler where
  name : String
  shellComments : Bool
  keywords : KeywordSet
  cache : CommentCache
  deriving DecidableEq, Repr

namespace Styler

/-- A styler for a language that has seen no line yet. -/
def ofLanguage (language : Language) : Styler :=
  ⟨language.name, language.shellComments, .ofList language.keywords, .empty⟩

variable {α : Type} [LineSource α]

/-- Whether a line begins inside a block comment. -/
def startsInComment (styler : Styler) (lines : α) (line : Nat) :
    Except LineOutOfRange (Bool × Styler) := do
  let (starts, cache) ← styler.cache.query lines line styler.shellComments
  return (starts, { styler with cache := cache })

/-- The spans of a line. -/
def styleLine (styler : Styler) (lines : α) (line : Nat) :
    Except LineOutOfRange (List Span × Styler) := do
  let (starts, styler) ← styler.startsInComment lines line
  let scan := Line.scan (LineSource.lineText lines line) starts styler.shellComments
  return (styler.keywords.split scan.spans, styler)

/-- The spans of `count` characters of a line from character `start` on. Spans that cross an end of
the segment are cut there; their offsets stay those in the line. -/
def styleSegment (styler : Styler) (lines : α) (line start count : Nat) :
    Except LineOutOfRange (List Span × Styler) := do
  let chars := (LineSource.lineText lines line).toList
  let first := Text.byteOffset chars start
  let last := Text.byteOffset chars (start + count)
  let (spans, styler) ← styler.styleLine lines line
  return (spans.filterMap fun span => span.clip? first last, styler)

/-- Take note of an edit; `buffer` is the text after it. If the edit may have changed block
comments, the lines behind it are forgotten and the line from which to repaint is returned. -/
def noteEdit (styler : Styler) (buffer : TextBuffer) (edit : Edit) : Styler × Option Nat :=
  if buffer.touchesMarker edit then
    let cache := styler.cache.rewind (buffer.lineIndexOf edit.offset)
    ({ styler with cache := cache }, some cache.horizon)
  else
    (styler, none)

/-- Take note that the whole text was replaced. -/
def noteReplaced (styler : Styler) : Styler :=
  { styler with cache := styler.cache.reset }

end Styler

end Highlight
