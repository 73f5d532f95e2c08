import Highlight.Toml.Document

/-!
# Data from TOML documents

A program asks for data of a certain shape: texts, truth values, lists, and records whose fields
stand under keys. Where the data comes from is a `Library`, which first finds the value of a
document and then takes data of the shape from it. `Library.reader` is the one whose documents are
read by `parse?` and whose data is taken by `Shape.read?`.
-/

namespace Highlight.Toml

mutual

/-- The shape of data of a type. -/
inductive Shape : Type → Type 1 where
  | text : Shape String
  | truth : Shape Bool
  | list {α : Type} (item : Shape α) : Shape (List α)
  | record {α : Type} (fields : Fields α) : Shape α

/-- The fields of a record in their order, and the record that they make. -/
inductive Fields : Type → Type 1 where
  | done {α : Type} (record : α) : Fields α
  /-- A field that must be there. -/
  | required {α β : Type} (key : String) (shape : Shape β) (next : β → Fields α) : Fields α
  /-- A field that has its default where it is left out. -/
  | optional {α β : Type} (key : String) (shape : Shape β) (default : β) (next : β → Fields α) :
      Fields α

end

/-- A library for TOML. What goes wrong is told in its own words. -/
structure Library where
  /-- The value of a document. -/
  value : String → Except String Value
  /-- The data of a shape that a value of the document stands for. -/
  data : {α : Type} → Shape α → String → Value → Except String α

/-- The data of a shape in a document. -/
def Library.fromText {α : Type} (library : Library) (shape : Shape α) (document : String) :
    Except String α := do
  library.data shape document (← library.value document)

/-- The items of an array, whichever way it is written. -/
def Value.items? : Value → Option (List Value)
  | array items => some items
  | tables elements => some (elements.map (table .header))
  | _ => none

/-- Where the fields of a record are found: by their keys in a table, and by their places in an
array. -/
def Value.field? : Value → Nat → String → Option Value
  | table _ entries, _, key => entries.lookup key
  | array items, place, _ => items[place]?
  | tables elements, place, _ => elements[place]?.map (table .header)
  | _, _, _ => none

/-- Records are tables, or arrays of their fields. -/
def Value.isRecord : Value → Bool
  | table _ _ => true
  | array _ => true
  | tables _ => true
  | _ => false

mutual

/-- Take data of a shape from a value. What a record does not ask for is passed over. -/
def Shape.read? : {α : Type} → Shape α → Value → Option α
  | _, .text, value =>
      match value with
      | .string text => some text
      | _ => none
  | _, .truth, value =>
      match value with
      | .boolean truth => some truth
      | _ => none
  | _, .list item, value => value.items?.bind (·.mapM item.read?)
  | _, .record fields, value => if value.isRecord then fields.read? value 0 else none

/-- Take the fields of a record from a value, the first one as the one at a place. -/
def Fields.read? : {α : Type} → Fields α → Value → Nat → Option α
  | _, .done record, _, _ => some record
  | _, .required key shape next, value, place =>
      match value.field? place key with
      | none => none
      | some found => (shape.read? found).bind fun field => (next field).read? value (place + 1)
  | _, .optional key shape default next, value, place =>
      match value.field? place key with
      | none => (next default).read? value (place + 1)
      | some found => (shape.read? found).bind fun field => (next field).read? value (place + 1)

end

/-- The library that reads documents by `parse?` and takes data by `Shape.read?`. It does not tell
where a document is wrong. -/
def Library.reader : Library where
  value document :=
    match parse? document with
    | some root => .ok root.toValue
    | none => .error "not a TOML document"
  data shape _ value :=
    match shape.read? value with
    | some data => .ok data
    | none => .error "not the data that was asked for"

end Highlight.Toml
