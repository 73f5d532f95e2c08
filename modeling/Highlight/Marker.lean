import Highlight.TextBuffer

/-!
# Comment markers near an edit

An edit can change which lines lie inside block comments only if it makes or breaks a comment
marker, or changes what hides one. `TextBuffer.touchesMarker` looks for markers in a small window
around the edit, with the edited text and without it, and takes that as the answer. Edits that
change the comments in another way are missed on purpose, since to find them takes a scan.
-/

namespace Highlight

/-- A text contains the opening or the closing marker of a block comment. -/
def hasMarker : List Char → Bool
  | '/' :: '*' :: _ => true
  | '*' :: '/' :: _ => true
  | _ :: rest => hasMarker rest
  | [] => false

namespace TextBuffer

/-- The number of characters looked at before an edit. -/
def windowBefore : Nat := 2

/-- The number of characters looked at after an edit. -/
def windowAfter : Nat := 1

/-- A comment marker stands in the window around an edit, with the edited text or without it. The
buffer is the one after the edit. -/
def touchesMarker (buffer : TextBuffer) (edit : Edit) : Bool :=
  let stop :=
    match edit.kind with
    | .insertion => edit.offset + edit.text.length
    | .removal => edit.offset
  let before := buffer.sliceChars (edit.offset - windowBefore) edit.offset
  let after := buffer.sliceChars stop (stop + windowAfter)
  hasMarker (before ++ edit.text.toList ++ after) || hasMarker (before ++ after)

end TextBuffer

end Highlight
