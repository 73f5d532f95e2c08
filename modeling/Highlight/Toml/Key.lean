import Highlight.Toml.Text
import Highlight.Toml.Value

/-!
# Keys in TOML

A key is a bare word or a string on one line. Keys with dots between them lead into tables.
-/

namespace Highlight.Toml

/-- A character of a bare key. -/
def isBareKeyChar (c : Char) : Bool :=
  c.isAlphanum || c == '_' || c == '-'

/-- The greatest number of parts that a key may have. -/
def maxKeyParts : Nat := 79

/-- Read one part of a key. -/
def readKeyPart? (chars : List Char) : Option (List Char × List Char) :=
  match chars with
  | '"' :: rest => readBasic rest
  | '\'' :: rest => readLiteral rest
  | _ =>
      match chars.takeWhile isBareKeyChar with
      | [] => none
      | bare => some (bare, chars.dropWhile isBareKeyChar)

/-- Read the parts of a key, at most `count` of them, with the blanks around them. -/
def readKeyParts : Nat → List Char → Option (List String × List Char)
  | 0, _ => none
  | count + 1, chars => do
      let (part, rest) ← readKeyPart? (skipBlanks chars)
      match skipBlanks rest with
      | '.' :: rest =>
          let (parts, after) ← readKeyParts count rest
          return (String.ofList part :: parts, after)
      | rest => return ([String.ofList part], rest)

/-- Read a key with the blanks around it. -/
def readKey (chars : List Char) : Option (Key × List Char) := do
  let (parts, rest) ← readKeyParts maxKeyParts chars
  let name ← parts.getLast?
  return (⟨parts.dropLast, name⟩, rest)

end Highlight.Toml
