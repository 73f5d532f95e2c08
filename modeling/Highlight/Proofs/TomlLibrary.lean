import Highlight.Proofs.TomlLines
import Highlight.Toml.Shape
import Mathlib.Data.List.Forall2

/-!
# What is relied on in a TOML library

Two things are asked of a library. `ReadsDocuments`: a document that is written by the rules has the
value that its statements come to. `FollowsShapes`: data is taken from a value as its shape says,
one condition for each kind of shape, and no other data is taken. Which words are found for what is
wrong does not matter. `reader_readsDocuments` and `reader_followsShapes` say that `Library.reader`
is such a library.
-/

namespace Highlight.Toml

/-! ## The two conditions -/

/-- The entries of a table give the fields of a record, each read from the value under its key. A
field that is left out has its default, unless it must be there. -/
def Fields.Gives (reads : {β : Type} → Shape β → Value → β → Prop)
    (entries : List (String × Value)) : {α : Type} → Fields α → α → Prop
  | _, .done made, record => record = made
  | _, .required key shape next, record =>
      ∃ value field, entries.lookup key = some value ∧ reads shape value field ∧
        (next field).Gives reads entries record
  | _, .optional key shape default next, record =>
      (entries.lookup key = none ∧ (next default).Gives reads entries record) ∨
        ∃ value field, entries.lookup key = some value ∧ reads shape value field ∧
          (next field).Gives reads entries record

namespace Library

/-- The library takes data of a shape from a value of a document. -/
def Reads (library : Library) (document : String) {α : Type} (shape : Shape α) (value : Value)
    (datum : α) : Prop :=
  library.data shape document value = .ok datum

/-- A document that is written by the rules has the value that its statements come to. -/
def ReadsDocuments (library : Library) : Prop :=
  ∀ {statements : List Statement} {document : String} {draft : Draft},
    WritesDocument statements document → statements.foldlM Draft.add Draft.empty = some draft →
      library.value document = .ok draft.root.toValue

/-- Data is taken from a value as its shape says. -/
structure FollowsShapes (library : Library) : Prop where
  text_iff : ∀ document value text, library.Reads document .text value text ↔ value = .string text
  truth_iff : ∀ document value truth,
    library.Reads document .truth value truth ↔ value = .boolean truth
  list_iff : ∀ {α : Type} (item : Shape α) document value list,
    library.Reads document (.list item) value list ↔
      ∃ items, value.items? = some items ∧ List.Forall₂ (library.Reads document item) items list
  /-- Keys of the table that the record does not ask for do not matter. -/
  record_iff : ∀ {α : Type} (fields : Fields α) document form entries record,
    library.Reads document (.record fields) (.table form entries) record ↔
      fields.Gives (library.Reads document) entries record

end Library

/-! ## The reader -/

variable {α β : Type}

/-- A list is made item by item. -/
theorem mapM_eq_some_iff {f : α → Option β} {xs : List α} {ys : List β} :
    xs.mapM f = some ys ↔ List.Forall₂ (fun x y => f x = some y) xs ys := by
  induction xs generalizing ys with
  | nil => cases ys <;> simp
  | cons x xs ih =>
      rw [List.mapM_cons]
      cases ys with
      | nil => simp [Option.bind_eq_some_iff]
      | cons y ys => simp [Option.bind_eq_some_iff, ih]

namespace Library

/-- The reader takes the data that `Shape.read?` finds. -/
theorem reader_reads_iff (document : String) {shape : Shape α} {value : Value} {datum : α} :
    reader.Reads document shape value datum ↔ shape.read? value = some datum := by
  unfold Reads reader
  dsimp only
  cases shape.read? value <;> simp

/-- The reader finds the fields of a record as the entries give them, whatever the places of the
keys. -/
theorem read?_fields_iff (document : String) (form : TableForm) (entries : List (String × Value)) :
    {α : Type} → (fields : Fields α) → (place : Nat) → (record : α) →
      (fields.read? (.table form entries) place = some record ↔
        fields.Gives (reader.Reads document) entries record)
  | _, .done made, place, record => by
      rw [Fields.read?, Fields.Gives, Option.some.injEq]
      exact eq_comm
  | _, .required key shape next, place, record => by
      rw [Fields.read?, Fields.Gives]
      simp only [Value.field?, reader_reads_iff]
      cases entries.lookup key with
      | none => simp
      | some value =>
          simp only [Option.bind_eq_some_iff,
            read?_fields_iff document form entries (next _) (place + 1) record]
          simp
  | _, .optional key shape default next, place, record => by
      rw [Fields.read?, Fields.Gives]
      simp only [Value.field?, reader_reads_iff]
      cases entries.lookup key with
      | none =>
          simp [read?_fields_iff document form entries (next default) (place + 1) record]
      | some value =>
          simp only [Option.bind_eq_some_iff,
            read?_fields_iff document form entries (next _) (place + 1) record]
          simp

/-- The reader finds the value that the statements of a document come to. -/
theorem reader_readsDocuments : reader.ReadsDocuments := by
  intro statements document draft hdocument hdraft
  have hparse := hdocument.parse?_eq
  rw [hdraft] at hparse
  unfold reader
  dsimp only
  rw [hparse]
  rfl

/-- The reader takes data as shapes say. -/
theorem reader_followsShapes : reader.FollowsShapes where
  text_iff document value text := by
    rw [reader_reads_iff]
    cases value <;> simp [Shape.read?]
  truth_iff document value truth := by
    rw [reader_reads_iff]
    cases value <;> simp [Shape.read?]
  list_iff item document value list := by
    rw [reader_reads_iff, Shape.read?, Option.bind_eq_some_iff]
    simp only [mapM_eq_some_iff, ← reader_reads_iff document]
  record_iff fields document form entries record := by
    rw [reader_reads_iff, Shape.read?]
    exact read?_fields_iff document form entries fields 0 record

end Library

end Highlight.Toml
