import Highlight.Lexeme
import Highlight.Text.Alphanumeric

/-!
# Keywords

Plain text is searched for keywords word by word. A word is a maximal run of ASCII letters, digits
and underscores; it is whole unless it touches a letter or digit from outside ASCII, which makes it
part of a longer word. `KeywordSet.split` cuts the whole words of a set out of the plain spans of a
line and leaves the other spans alone. It goes by characters; `KeywordSet.split?` is the loop over
positions in the text.
-/

namespace Highlight

/-- A character of an ASCII word. -/
def isWordChar (c : Char) : Bool :=
  c.isAlphanum || c == '_'

/-- A run of word characters, or a run of other characters. -/
structure Run where
  isWord : Bool
  chars : List Char
  deriving DecidableEq, Repr

namespace Run

/-- Put a character in front of the runs after it. It joins the first run if it is of its sort. -/
def push (c : Char) : List Run → List Run
  | [] => [⟨isWordChar c, [c]⟩]
  | run :: rest =>
      if run.isWord = isWordChar c then { run with chars := c :: run.chars } :: rest
      else ⟨isWordChar c, [c]⟩ :: run :: rest

/-- The maximal runs of a text in order. -/
def ofChars (chars : List Char) : List Run :=
  chars.foldr push []

/-- Pushing a character puts it in front of the text of the runs. -/
theorem flatMap_chars_push (c : Char) (runs : List Run) :
    (push c runs).flatMap Run.chars = c :: runs.flatMap Run.chars := by
  cases runs with
  | nil => rfl
  | cons run rest =>
      rw [push]
      split <;> simp

/-- The runs of a text make it up. -/
theorem flatMap_chars_ofChars (chars : List Char) :
    (ofChars chars).flatMap Run.chars = chars := by
  induction chars with
  | nil => rfl
  | cons c rest ih => exact (flatMap_chars_push c (ofChars rest)).trans (congrArg (c :: ·) ih)

end Run

/-- A set of words, each listed once. -/
structure KeywordSet where
  words : List String
  deriving DecidableEq, Repr

namespace KeywordSet

/-- The set of the words of a list. -/
def ofList (words : List String) : KeywordSet :=
  ⟨words.eraseDups⟩

/-- Membership of a word. -/
def contains (keywords : KeywordSet) (word : String) : Bool :=
  keywords.words.contains word

/-- A set made of a list has the members of the list. -/
@[simp]
theorem contains_ofList (words : List String) (word : String) :
    (ofList words).contains word = words.contains word := by
  simp [ofList, contains]

/-- The number of words. -/
def size (keywords : KeywordSet) : Nat :=
  keywords.words.length

/-- The set without words. -/
def isEmpty (keywords : KeywordSet) : Bool :=
  keywords.words.isEmpty

/-- The kind of a run, given the characters on either side of it: a word of the set that no
alphanumeric character touches is a keyword. -/
def kindOf (keywords : KeywordSet) (before : Option Char) (run : Run) (after : Option Char) :
    SpanKind :=
  if run.isWord && keywords.contains (String.ofList run.chars) &&
      !before.any Text.isAlphanumeric && !after.any Text.isAlphanumeric then
    .keyword
  else
    .normal

/-- The runs as lexemes. `before` is the character in front of the first run. -/
def mark (keywords : KeywordSet) (before : Option Char) : List Run → List Lexeme
  | [] => []
  | run :: rest =>
      let after := rest.head?.bind fun next => next.chars.head?
      ⟨keywords.kindOf before run after, run.chars⟩ ::
        keywords.mark run.chars.getLast? rest

/-- Put a lexeme in front of others. Plain text joins plain text that follows it. -/
def joinNormal (lexeme : Lexeme) : List Lexeme → List Lexeme
  | [] => [lexeme]
  | next :: rest =>
      if lexeme.kind = .normal ∧ next.kind = .normal then
        ⟨.normal, lexeme.chars ++ next.chars⟩ :: rest
      else
        lexeme :: next :: rest

/-- Cut plain text into its keywords and the text between them. -/
def splitText (keywords : KeywordSet) (chars : List Char) : List Lexeme :=
  (keywords.mark none (Run.ofChars chars)).foldr joinNormal []

/-- Marking keeps the text of the runs. -/
theorem flatten_mark (keywords : KeywordSet) (before : Option Char) (runs : List Run) :
    Lexeme.flatten (keywords.mark before runs) = runs.flatMap Run.chars := by
  induction runs generalizing before with
  | nil => rfl
  | cons run rest ih => rw [mark, Lexeme.flatten_cons, ih, List.flatMap_cons]

/-- Joining plain text keeps the text. -/
theorem flatten_joinNormal (lexeme : Lexeme) (rest : List Lexeme) :
    Lexeme.flatten (joinNormal lexeme rest) = lexeme.chars ++ Lexeme.flatten rest := by
  cases rest with
  | nil => rfl
  | cons next rest =>
      rw [joinNormal]
      split <;> simp

/-- Joining plain text keeps the text. -/
theorem flatten_foldr_joinNormal (lexemes : List Lexeme) :
    Lexeme.flatten (lexemes.foldr joinNormal []) = Lexeme.flatten lexemes := by
  induction lexemes with
  | nil => rfl
  | cons lexeme rest ih => rw [List.foldr_cons, flatten_joinNormal, ih, Lexeme.flatten_cons]

/-- Cutting out the keywords keeps the text. -/
theorem flatten_splitText (keywords : KeywordSet) (chars : List Char) :
    Lexeme.flatten (keywords.splitText chars) = chars := by
  rw [splitText, flatten_foldr_joinNormal, flatten_mark, Run.flatMap_chars_ofChars]

/-- Cut the keywords out of a span if it is plain text. -/
def splitSpan (keywords : KeywordSet) (span : Span) : List Span :=
  if span.kind = .normal then
    Lexeme.layOut span.start (keywords.splitText span.text.toList)
  else
    [span]

/-- Cut the keywords out of the plain spans of a line. The empty set changes nothing. The starts are
numbers of any size; `split?` has them as machine words. -/
def split (keywords : KeywordSet) (spans : List Span) : List Span :=
  if keywords.isEmpty then spans else spans.flatMap keywords.splitSpan

end KeywordSet

end Highlight
