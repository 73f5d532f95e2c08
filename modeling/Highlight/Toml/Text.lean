import Highlight.Toml.Blank
import Highlight.Toml.Digits

/-!
# Strings in TOML

A string is written in double quotes with escapes or in single quotes without, on one line between
single marks or on several between triple marks. The readers here begin behind the opening marks
and return the text with what follows the closing marks.
-/

namespace Highlight.Toml

/-- The character whose code point is written by the first `count` characters as hexadecimal
digits. -/
def codePoint? (count : Nat) (chars : List Char) : Option Char :=
  let digits := chars.take count
  let point := numberOf 16 digits
  if digits.length = count ∧ digits.all (isDigitOf 16) ∧ point.isValidChar then
    some (Char.ofNat point)
  else
    none

/-- The character that an escape stands for, and the number of characters that the escape takes
after its backslash. -/
def escape? : List Char → Option (Char × Nat)
  | 'b' :: _ => some ('\x08', 1)
  | 't' :: _ => some ('\t', 1)
  | 'n' :: _ => some ('\n', 1)
  | 'f' :: _ => some ('\x0c', 1)
  | 'r' :: _ => some ('\r', 1)
  | '"' :: _ => some ('"', 1)
  | '\\' :: _ => some ('\\', 1)
  | 'u' :: rest => (codePoint? 4 rest).map (·, 5)
  | 'U' :: rest => (codePoint? 8 rest).map (·, 9)
  | _ => none

/-- Read a text with escapes up to its double quote. -/
def readBasic (chars : List Char) : Option (List Char × List Char) :=
  match chars with
  | [] => none
  | c :: rest =>
      if c = '"' then some ([], rest)
      else if c = '\\' then do
        let (escaped, count) ← escape? rest
        let (text, after) ← readBasic (rest.drop count)
        return (escaped :: text, after)
      else if isTextChar c then do
        let (text, after) ← readBasic rest
        return (c :: text, after)
      else none
termination_by chars.length
decreasing_by all_goals simp only [List.length_drop, List.length_cons]; omega

/-- The end of a text between triple marks: three marks, before which up to two more belong to the
text. -/
def closeTriple? (mark : Char) : List Char → Option (List Char × List Char)
  | a :: b :: c :: rest =>
      if a = mark ∧ b = mark ∧ c = mark then
        match rest with
        | d :: e :: after =>
            if d = mark then
              if e = mark then some ([mark, mark], after) else some ([mark], e :: after)
            else some ([], rest)
        | [d] => if d = mark then some ([mark], []) else some ([], [d])
        | [] => some ([], [])
      else none
  | _ => none

/-- Read a text with escapes up to its three double quotes. A backslash at the end of a line takes
all blanks and line breaks after it away. -/
def readBasicLines (chars : List Char) : Option (List Char × List Char) :=
  match closeTriple? '"' chars, chars with
  | some closed, _ => some closed
  | none, [] => none
  | none, c :: rest =>
      if c = '\\' then
        if (skipBlanks rest).head? = some '\n' then
          readBasicLines (rest.drop (rest.takeWhile isBlankOrBreak).length)
        else do
          let (escaped, count) ← escape? rest
          let (text, after) ← readBasicLines (rest.drop count)
          return (escaped :: text, after)
      else if isTextChar c || c == '\n' then do
        let (text, after) ← readBasicLines rest
        return (c :: text, after)
      else none
termination_by chars.length
decreasing_by all_goals simp only [List.length_drop, List.length_cons]; omega

/-- Read a text without escapes up to its single quote. -/
def readLiteral : List Char → Option (List Char × List Char)
  | [] => none
  | c :: rest =>
      if c = '\'' then some ([], rest)
      else if isTextChar c then do
        let (text, after) ← readLiteral rest
        return (c :: text, after)
      else none

/-- Read a text without escapes up to its three single quotes. -/
def readLiteralLines : List Char → Option (List Char × List Char)
  | [] => none
  | c :: rest =>
      match closeTriple? '\'' (c :: rest) with
      | some closed => some closed
      | none =>
          if isTextChar c || c == '\n' then do
            let (text, after) ← readLiteralLines rest
            return (c :: text, after)
          else none

/-- A line break right behind the opening marks does not belong to the text. -/
def skipFirstBreak : List Char → List Char
  | '\n' :: rest => rest
  | chars => chars

/-- Read a string of any of the four forms. -/
def readString? (chars : List Char) : Option (List Char × List Char) :=
  match chars with
  | '"' :: '"' :: '"' :: rest => readBasicLines (skipFirstBreak rest)
  | '"' :: rest => readBasic rest
  | '\'' :: '\'' :: '\'' :: rest => readLiteralLines (skipFirstBreak rest)
  | '\'' :: rest => readLiteral rest
  | _ => none

end Highlight.Toml
