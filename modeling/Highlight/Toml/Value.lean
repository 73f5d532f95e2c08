/-!
# Values of a TOML document

A document is a table of keys and values. Its tables are also told apart by how they came to be,
because that decides what may still be added to them.
-/

namespace Highlight.Toml

/-- How a table came to be. -/
inductive TableForm where
  /-- It was written in braces and is closed. -/
  | inline
  /-- It was opened by a header of its own, or is the document itself. -/
  | header
  /-- It was named on the way to the table of a header. -/
  | implied
  /-- It was named on the way to the key of a value. -/
  | dotted
  deriving DecidableEq, Repr

/-- A value of a document. Numbers and dates are recognised, but what they stand for is not kept:
no setting is one. -/
inductive Value where
  | string (text : String)
  | boolean (value : Bool)
  | number
  | dateTime
  | array (items : List Value)
  | table (form : TableForm) (entries : List (String × Value))
  /-- Tables that were added one by one by headers in double brackets. -/
  | tables (elements : List (List (String × Value)))

/-- A table that is being filled. -/
structure Table where
  form : TableForm
  entries : List (String × Value)

namespace Table

/-- The finished table as a value. -/
def toValue (table : Table) : Value :=
  .table table.form table.entries

/-- The value of a key. -/
def find? (table : Table) (key : String) : Option Value :=
  table.entries.lookup key

/-- Give a key its value. A new key comes last. -/
def set (table : Table) (key : String) (value : Value) : Table :=
  if (table.find? key).isSome then
    { table with entries := table.entries.map fun entry =>
        if entry.1 = key then (key, value) else entry }
  else
    { table with entries := table.entries ++ [(key, value)] }

/-- A table may be entered on the way to another. One with a header of its own may not be entered
by the dots of a key, and one in braces not at all. -/
def mayEnter (byDots : Bool) : TableForm → Bool
  | .inline => false
  | .header => !byDots
  | .implied => true
  | .dotted => true

/-- Follow a path of keys and change the table it leads to. Tables missing on the way are made.
Where tables were added one by one the path goes to the last of them. -/
def alter (byDots : Bool) (change : Table → Option Table) : List String → Table → Option Table
  | [], table => change table
  | key :: path, table =>
      match table.find? key with
      | none => do
          let child ← alter byDots change path ⟨if byDots then .dotted else .implied, []⟩
          return table.set key child.toValue
      | some (.table form entries) =>
          if mayEnter byDots form then do
            let child ← alter byDots change path ⟨form, entries⟩
            return table.set key child.toValue
          else
            none
      | some (.tables elements) => do
          let last ← elements.getLast?
          let child ← alter byDots change path ⟨.header, last⟩
          return table.set key (.tables (elements.dropLast ++ [child.entries]))
      | some _ => none

end Table

/-- A key with the path of keys in front of it. -/
structure Key where
  path : List String
  name : String
  deriving DecidableEq, Repr

namespace Table

/-- Add a value under a key. A key of several parts may only extend tables that such keys have
made, and no key is given twice. -/
def insert (table : Table) (key : Key) (value : Value) : Option Table :=
  table.alter true (fun parent =>
    if decide (parent.form = .dotted) = key.path.isEmpty then none
    else if (parent.find? key.name).isSome then none
    else some (parent.set key.name value)) key.path

/-- Open the table of a header. It must be new or only named on the way to others so far. -/
def openTable (table : Table) (key : Key) : Option Table :=
  table.alter false (fun parent =>
    match parent.find? key.name with
    | none => some (parent.set key.name (.table .header []))
    | some (.table .implied entries) => some (parent.set key.name (.table .header entries))
    | some _ => none) key.path

/-- Add one more table for a header in double brackets. -/
def addElement (table : Table) (key : Key) : Option Table :=
  table.alter false (fun parent =>
    match parent.find? key.name with
    | none => some (parent.set key.name (.tables [[]]))
    | some (.tables elements) => some (parent.set key.name (.tables (elements ++ [[]])))
    | some _ => none) key.path

end Table

end Highlight.Toml
