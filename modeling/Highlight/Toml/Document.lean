import Highlight.Toml.DateTime
import Highlight.Toml.Key
import Highlight.Toml.Number

/-!
# Reading a TOML document

A document is read in two passes. The first splits it into statements: keys with their values and
headers. The second puts the values into the tables where they belong. Whatever is wrong, the
document as a whole is refused.
-/

namespace Highlight.Toml

/-- The greatest depth to which arrays and tables in braces may be nested. -/
def maxDepth : Nat := 79

/-- Read the items of an array up to its closing bracket. There are at most as many as the first
argument says. -/
def readItems (readItem : List Char → Option (Value × List Char)) :
    Nat → List Char → Option (List Value × List Char)
  | 0, _ => none
  | count + 1, chars =>
      match skipFiller false chars with
      | ']' :: rest => some ([], rest)
      | start => do
          let (item, rest) ← readItem start
          match skipFiller false rest with
          | ',' :: rest =>
              let (items, after) ← readItems readItem count rest
              return (item :: items, after)
          | ']' :: rest => return ([item], rest)
          | _ => none

/-- Read a key, the equals sign and its value. -/
def readKeyValue (readItem : List Char → Option (Value × List Char)) (chars : List Char) :
    Option (Key × Value × List Char) := do
  let (key, rest) ← readKey chars
  match rest with
  | '=' :: rest =>
      let (value, rest) ← readItem (skipBlanks rest)
      return (key, value, rest)
  | _ => none

/-- Read the entries of a table in braces up to its closing brace. There are at most as many as the
first argument says. -/
def readEntries (readItem : List Char → Option (Value × List Char)) :
    Nat → Table → List Char → Option (Table × List Char)
  | 0, _, _ => none
  | count + 1, table, chars => do
      let (key, value, rest) ← readKeyValue readItem chars
      let table ← table.insert key value
      match skipBlanks rest with
      | ',' :: rest => readEntries readItem count table rest
      | '\x7d' :: rest => return (table, rest)
      | _ => none

/-- Read a table in braces behind its opening brace. -/
def readInlineTable (readItem : List Char → Option (Value × List Char)) (chars : List Char) :
    Option (Value × List Char) :=
  match skipBlanks chars with
  | '\x7d' :: rest => some (.table .inline [], rest)
  | start => do
      let (table, rest) ← readEntries readItem start.length ⟨.inline, []⟩ start
      return (table.toValue, rest)

/-- Read a value that has no values in it. -/
def readScalar (chars : List Char) : Option (Value × List Char) :=
  match chars with
  | '"' :: _ => (readString? chars).map fun (text, rest) => (.string (String.ofList text), rest)
  | '\'' :: _ => (readString? chars).map fun (text, rest) => (.string (String.ofList text), rest)
  | 't' :: 'r' :: 'u' :: 'e' :: rest => some (.boolean true, rest)
  | 'f' :: 'a' :: 'l' :: 's' :: 'e' :: rest => some (.boolean false, rest)
  | _ =>
      match readDateTime? chars with
      | some rest => some (.dateTime, rest)
      | none => (readNumber? chars).map fun rest => (.number, rest)

/-- Read a value. The first argument is the depth to which arrays and tables in it may be
nested. -/
def readValue : Nat → List Char → Option (Value × List Char)
  | 0, chars => readScalar chars
  | depth + 1, chars =>
      match chars with
      | '[' :: rest =>
          (readItems (readValue depth) rest.length rest).map fun (items, after) =>
            (.array items, after)
      | '\x7b' :: rest => readInlineTable (readValue depth) rest
      | _ => readScalar chars

/-- A line of a document that says something. -/
inductive Statement where
  /-- A key and its value. -/
  | assign (key : Key) (value : Value)
  /-- The header of a table. -/
  | table (key : Key)
  /-- The header of one more table under the same key. -/
  | element (key : Key)

/-- Read a statement up to the end of its line. -/
def readStatement (chars : List Char) : Option (Statement × List Char) :=
  match chars with
  | '[' :: '[' :: rest => do
      let (key, rest) ← readKey rest
      match rest with
      | ']' :: ']' :: after => return (.element key, after)
      | _ => none
  | '[' :: rest => do
      let (key, rest) ← readKey rest
      match rest with
      | ']' :: after => return (.table key, after)
      | _ => none
  | _ => do
      let (key, value, rest) ← readKeyValue (readValue maxDepth) chars
      return (.assign key value, rest)

/-- Read the statements of at most so many lines. -/
def readLines : Nat → List Char → Option (List Statement)
  | 0, _ => none
  | count + 1, chars =>
      match skipBlanks chars with
      | [] => some []
      | '\n' :: rest => readLines count rest
      | '#' :: rest => do
          let rest ← endLine? ('#' :: rest)
          readLines count rest
      | start => do
          let (statement, rest) ← readStatement start
          let rest ← endLine? rest
          let statements ← readLines count rest
          return statement :: statements

/-- A document that is being put together: the outermost table, and the path to the table of the
last header. -/
structure Draft where
  root : Table
  place : List String

namespace Draft

/-- The draft of a document without statements. -/
def empty : Draft :=
  ⟨⟨.header, []⟩, []⟩

/-- Add what a statement says. -/
def add (draft : Draft) : Statement → Option Draft
  | .assign key value => do
      let root ← draft.root.alter false (·.insert key value) draft.place
      return { draft with root := root }
  | .table key => do
      let root ← draft.root.openTable key
      return ⟨root, key.path ++ [key.name]⟩
  | .element key => do
      let root ← draft.root.addElement key
      return ⟨root, key.path ++ [key.name]⟩

end Draft

/-- A byte order mark at the front does not count. -/
def skipByteOrderMark : List Char → List Char
  | '\ufeff' :: rest => rest
  | chars => chars

/-- Read a document. -/
def parse? (text : String) : Option Table := do
  let chars := normalizeBreaks (skipByteOrderMark text.toList)
  let statements ← readLines (chars.length + 1) chars
  let draft ← statements.foldlM Draft.add Draft.empty
  return draft.root

end Highlight.Toml
