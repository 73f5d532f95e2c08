import Highlight.Language.File
import Highlight.Proofs.TomlLibrary

/-!
# Language files and the languages in them

A language file has a table for each language, and `Describes` says which language a table is about:
of the four settings all but the name may be left out, and other keys do not matter. A table that is
about none is `Faulty`. `reads_settings_iff` says that every library that follows shapes takes just
this language from the table. The main theorem, `parse_tables`, is about files with any number of
tables, however they are written, and `exists_parse_eq` says that for every list of languages there
is such a file.
-/

namespace Highlight

namespace Toml

/-! ## Tables -/

/-- The keys of a table and their values, in the order of the document. -/
abbrev Entries := List (String × Datum)

/-- The keys in order. -/
def Entries.keys (entries : Entries) : List String :=
  entries.map Prod.fst

/-- The entries as they stand in a table that was read. -/
def Entries.toValues (entries : Entries) : List (String × Value) :=
  entries.map fun entry => (entry.1, entry.2.toValue)

/-- The statements of a table that is one of several under a name. -/
def Entries.statements (name : String) (entries : Entries) : List Statement :=
  .element ⟨[], name⟩ :: entries.map fun entry => .assign ⟨[], entry.1⟩ entry.2.toValue

variable {name key : String} {tables : List Entries} {entries : Entries} {datum : Datum}

/-- An entry more is an entry more that was read. -/
theorem toValues_concat (entries : Entries) (key : String) (datum : Datum) :
    Entries.toValues (entries ++ [(key, datum)]) = entries.toValues ++ [(key, datum.toValue)] := by
  simp [Entries.toValues]

/-- What is found in the table that was read is the value of the entry. -/
theorem lookup_toValues (entries : Entries) (key : String) :
    entries.toValues.lookup key = (entries.lookup key).map Datum.toValue := by
  induction entries with
  | nil => rfl
  | cons entry rest ih =>
      change List.lookup key ((entry.1, entry.2.toValue) :: Entries.toValues rest) = _
      rw [List.lookup_cons, List.lookup_cons, ih]
      cases key == entry.1 <;> rfl

/-- Nothing is found under a key that the table does not have. -/
theorem lookup_eq_none_iff : entries.lookup key = none ↔ key ∉ entries.keys := by
  rw [List.lookup_eq_none_iff]
  constructor
  · intro hnone hkey
    obtain ⟨entry, hentry, rfl⟩ := List.mem_map.mp hkey
    exact bne_iff_ne.mp (hnone entry hentry) rfl
  · intro hkey entry hentry
    exact bne_iff_ne.mpr fun heq => hkey (heq ▸ List.mem_map_of_mem hentry)

/-- Where no key is given twice, each has the value that stands with it. -/
theorem lookup_eq_some_iff (hkeys : entries.keys.Nodup) :
    entries.lookup key = some datum ↔ (key, datum) ∈ entries := by
  induction entries with
  | nil => simp
  | cons entry rest ih =>
      obtain ⟨other, value⟩ := entry
      rw [Entries.keys, List.map_cons, List.nodup_cons] at hkeys
      rw [List.lookup_cons, List.mem_cons, Prod.mk.injEq]
      by_cases hkey : key = other
      · subst hkey
        have hrest : (key, datum) ∉ rest := fun hmem =>
          hkeys.1 (List.mem_map.mpr ⟨(key, datum), hmem, rfl⟩)
        simp [hrest, eq_comm]
      · rw [beq_false_of_ne hkey]
        simp [hkey, ih hkeys.2]

namespace Draft

/-- The draft of a document with nothing but tables under a name. The last of them is open. -/
def ofTables (name : String) : List Entries → Draft
  | [] => empty
  | tables => ⟨⟨.header, [(name, .tables (tables.map Entries.toValues))]⟩, [name]⟩

/-- A table more stands behind the others and is open. -/
theorem ofTables_concat (name : String) (tables : List Entries) (entries : Entries) :
    ofTables name (tables ++ [entries]) =
      ⟨⟨.header, [(name, .tables (tables.map Entries.toValues ++ [entries.toValues]))]⟩,
        [name]⟩ := by
  cases tables <;> simp [ofTables]

/-- A header opens one more table. -/
theorem add_element (name : String) (tables : List Entries) :
    (ofTables name tables).add (.element ⟨[], name⟩) = some (ofTables name (tables ++ [[]])) := by
  rw [ofTables_concat]
  cases tables with
  | nil => rfl
  | cons first rest =>
      simp [ofTables, add, Table.addElement, Table.alter, Table.find?, Table.set, Entries.toValues]

/-- A new key goes to the last table. -/
theorem add_assign (hkey : key ∉ entries.keys) :
    (ofTables name (tables ++ [entries])).add (.assign ⟨[], key⟩ datum.toValue) =
      some (ofTables name (tables ++ [entries ++ [(key, datum)]])) := by
  have hnew : entries.toValues.lookup key = none := by
    rw [lookup_toValues, lookup_eq_none_iff.mpr hkey]
    rfl
  rw [ofTables_concat, ofTables_concat, toValues_concat]
  simp [add, Table.insert, Table.alter, Table.find?, Table.set, hnew]

/-- The entries of a table go to it one after the other. -/
theorem foldlM_assign (name : String) (tables : List Entries) (before entries : Entries)
    (hkeys : (Entries.keys (before ++ entries)).Nodup) :
    (entries.map fun entry => Statement.assign ⟨[], entry.1⟩ entry.2.toValue).foldlM add
        (ofTables name (tables ++ [before])) =
      some (ofTables name (tables ++ [before ++ entries])) := by
  induction entries generalizing before with
  | nil => rw [List.append_nil]; rfl
  | cons entry rest ih =>
      have hkey : entry.1 ∉ before.keys := by
        rw [Entries.keys, List.map_append, List.nodup_append] at hkeys
        exact fun hmem => hkeys.2.2 _ hmem _ (.head _) rfl
      rw [List.append_cons before entry rest] at hkeys ⊢
      rw [List.map_cons, List.foldlM_cons, add_assign hkey]
      exact ih _ hkeys

/-- A document of tables comes to the tables. -/
theorem foldlM_statements (name : String) (tables later : List Entries)
    (hkeys : ∀ entries ∈ later, entries.keys.Nodup) :
    (later.flatMap (Entries.statements name)).foldlM add (ofTables name tables) =
      some (ofTables name (tables ++ later)) := by
  induction later generalizing tables with
  | nil => rw [List.append_nil]; rfl
  | cons entries rest ih =>
      rw [List.forall_mem_cons] at hkeys
      rw [List.flatMap_cons, List.foldlM_append, Entries.statements, List.foldlM_cons, add_element]
      show (List.foldlM add (ofTables name (tables ++ [[]])) _ >>= _) = _
      rw [foldlM_assign name tables [] entries hkeys.1, List.append_cons tables entries rest]
      exact ih _ hkeys.2

end Draft

end Toml

namespace Language

open Toml (Datum Entries)

/-! ## Languages -/

/-- A table gives a setting a value, or leaves it out and the value is the default. -/
def Gives (entries : Entries) (key : String) (value default : Datum) : Prop :=
  (key, value) ∈ entries ∨ key ∉ entries.keys ∧ value = default

/-- The table is about the language. -/
structure Describes (entries : Entries) (language : Language) : Prop where
  name : ("name", .text language.name) ∈ entries
  extensions : Gives entries "extensions" (.texts language.extensions) (.texts [])
  keywords : Gives entries "keywords" (.texts language.keywords) (.texts [])
  shellComments : Gives entries "shell-comments" (.truth language.shellComments) (.truth false)

/-- The table has no name, or a setting of a wrong type. -/
inductive Faulty (entries : Entries) : Prop
  | nameless (hkey : "name" ∉ entries.keys)
  | name {datum : Datum} (hmem : ("name", datum) ∈ entries) (htype : ∀ value, datum ≠ .text value)
  | extensions {datum : Datum} (hmem : ("extensions", datum) ∈ entries)
      (htype : ∀ items, datum ≠ .texts items)
  | keywords {datum : Datum} (hmem : ("keywords", datum) ∈ entries)
      (htype : ∀ items, datum ≠ .texts items)
  | shellComments {datum : Datum} (hmem : ("shell-comments", datum) ∈ entries)
      (htype : ∀ value, datum ≠ .truth value)

variable {library : Toml.Library} {document key : String} {entries : Entries}
  {language : Language} {α β : Type}

/-- A library takes data of a shape from the values of one type, and from no others. -/
def Takes (library : Toml.Library) (shape : Toml.Shape α) (datumOf : α → Datum) : Prop :=
  ∀ (document : String) (datum : Datum) (value : α),
    library.Reads document shape datum.toValue value ↔ datum = datumOf value

/-- Texts are taken from strings. -/
theorem takes_text (h : library.FollowsShapes) : Takes library .text .text := by
  intro document datum value
  rw [h.text_iff]
  cases datum <;> simp [Datum.toValue]

/-- Truth values are taken from booleans. -/
theorem takes_truth (h : library.FollowsShapes) : Takes library .truth .truth := by
  intro document datum value
  rw [h.truth_iff]
  cases datum <;> simp [Datum.toValue]

/-- Lists of texts are taken from arrays of strings. -/
theorem takes_texts (h : library.FollowsShapes) : Takes library (.list .text) .texts := by
  intro document datum items
  rw [h.list_iff]
  cases datum with
  | text => simp [Datum.toValue, Toml.Value.items?]
  | truth => simp [Datum.toValue, Toml.Value.items?]
  | texts others =>
      simp only [Datum.toValue, Toml.Value.items?, Option.some.injEq, exists_eq_left',
        List.forall₂_map_left_iff, h.text_iff, Toml.Value.string.injEq, List.forall₂_eq_eq_eq,
        Datum.texts.injEq]

section Fields

variable {shape : Toml.Shape β} {datumOf : β → Datum} {default : β} {next : β → Toml.Fields α}
  {record : α}

/-- Data of different values is different. -/
theorem Takes.injective (h : Takes library shape datumOf) : Function.Injective datumOf := by
  intro left right heq
  have hleft : library.data shape "" _ = .ok left := (h "" (datumOf left) left).mpr rfl
  have hright : library.data shape "" _ = .ok right := (h "" (datumOf left) right).mpr heq
  exact Except.ok.inj (hleft.symm.trans hright)

/-- A field that must be there is what the table has under its key. -/
theorem gives_required_iff (hkeys : entries.keys.Nodup) (htakes : Takes library shape datumOf) :
    (Toml.Fields.required key shape next).Gives (library.Reads document) entries.toValues record ↔
      ∃ field, (key, datumOf field) ∈ entries ∧
        (next field).Gives (library.Reads document) entries.toValues record := by
  rw [Toml.Fields.Gives, Toml.lookup_toValues]
  simp only [← Toml.lookup_eq_some_iff hkeys]
  cases entries.lookup key with
  | none => simp
  | some datum => simp [htakes document datum]

/-- A field that may be left out is what the table gives it. -/
theorem gives_optional_iff (hkeys : entries.keys.Nodup) (htakes : Takes library shape datumOf) :
    (Toml.Fields.optional key shape default next).Gives (library.Reads document) entries.toValues
        record ↔
      ∃ field, Gives entries key (datumOf field) (datumOf default) ∧
        (next field).Gives (library.Reads document) entries.toValues record := by
  rw [Toml.Fields.Gives, Toml.lookup_toValues]
  simp only [Gives, ← Toml.lookup_eq_some_iff hkeys, ← Toml.lookup_eq_none_iff,
    htakes.injective.eq_iff]
  cases entries.lookup key with
  | none => simp
  | some datum => simp [htakes document datum]

end Fields

/-- From a table the language is taken that it is about. -/
theorem reads_settings_iff (h : library.FollowsShapes) (hkeys : entries.keys.Nodup)
    (form : Toml.TableForm) :
    library.Reads document (.record settings) (.table form entries.toValues) language ↔
      Describes entries language := by
  rw [h.record_iff, settings]
  simp only [gives_required_iff hkeys (takes_text h), gives_optional_iff hkeys (takes_texts h),
    gives_optional_iff hkeys (takes_truth h)]
  simp only [Toml.Fields.Gives]
  constructor
  · rintro ⟨name, hname, extensions, hextensions, keywords, hkeywords, shellComments,
      hshellComments, rfl⟩
    exact ⟨hname, hextensions, hkeywords, hshellComments⟩
  · intro hdescribes
    exact ⟨_, hdescribes.name, _, hdescribes.extensions, _, hdescribes.keywords, _,
      hdescribes.shellComments, rfl⟩

/-! ## Faulty tables -/

/-- A setting has a value unless it stands in the table with another type. -/
theorem exists_gives_iff (hkeys : entries.keys.Nodup) (datumOf : α → Datum) (default : α) :
    (∃ value, Gives entries key (datumOf value) (datumOf default)) ↔
      ¬ ∃ datum, (key, datum) ∈ entries ∧ ∀ value, datum ≠ datumOf value := by
  simp only [Gives, ← Toml.lookup_eq_some_iff hkeys, ← Toml.lookup_eq_none_iff]
  cases entries.lookup key with
  | none => simp
  | some datum => simp

/-- A table is faulty if and only if it is about no language. -/
theorem faulty_iff_not_describes (hkeys : entries.keys.Nodup) :
    Faulty entries ↔ ¬ ∃ language, Describes entries language := by
  have hname : (∃ name, ("name", .text name) ∈ entries) ↔ ¬ ("name" ∉ entries.keys ∨
      ∃ datum, ("name", datum) ∈ entries ∧ ∀ value, datum ≠ .text value) := by
    simp only [← Toml.lookup_eq_some_iff hkeys, ← Toml.lookup_eq_none_iff]
    cases entries.lookup "name" <;> simp
  constructor
  · intro hfaulty hdescribes
    obtain ⟨language, h⟩ := hdescribes
    cases hfaulty with
    | nameless hkey => exact hname.mp ⟨_, h.name⟩ (.inl hkey)
    | name hmem htype => exact hname.mp ⟨_, h.name⟩ (.inr ⟨_, hmem, htype⟩)
    | extensions hmem htype =>
        exact (exists_gives_iff hkeys _ _).mp ⟨_, h.extensions⟩ ⟨_, hmem, htype⟩
    | keywords hmem htype =>
        exact (exists_gives_iff hkeys _ _).mp ⟨_, h.keywords⟩ ⟨_, hmem, htype⟩
    | shellComments hmem htype =>
        exact (exists_gives_iff hkeys _ _).mp ⟨_, h.shellComments⟩ ⟨_, hmem, htype⟩
  · intro hnone
    -- A table without a fault would have a value for each setting.
    by_contra hfaulty
    obtain ⟨name, hname⟩ := hname.mpr fun hbad => hbad.elim (hfaulty ∘ .nameless)
      fun ⟨_, hmem, htype⟩ => hfaulty (.name hmem htype)
    obtain ⟨extensions, hextensions⟩ := (exists_gives_iff hkeys Datum.texts []).mpr
      fun ⟨_, hmem, htype⟩ => hfaulty (.extensions hmem htype)
    obtain ⟨keywords, hkeywords⟩ := (exists_gives_iff hkeys Datum.texts []).mpr
      fun ⟨_, hmem, htype⟩ => hfaulty (.keywords hmem htype)
    obtain ⟨shellComments, hshellComments⟩ := (exists_gives_iff hkeys Datum.truth false).mpr
      fun ⟨_, hmem, htype⟩ => hfaulty (.shellComments hmem htype)
    exact hnone ⟨⟨name, extensions, keywords, shellComments⟩, hname, hextensions, hkeywords,
      hshellComments⟩

/-! ## Language files -/

/-- The ways to write a language file. -/
def WritesFile (tables : List Entries) (text : String) : Prop :=
  Toml.WritesDocument (tables.flatMap (Entries.statements "language")) text

variable {tables : List Entries} {text : String} {languages : List Language}

/-- Lists are related item by item in the same way if their items are. -/
theorem forall₂_congr_mem {α β : Type} {R S : α → β → Prop} {xs : List α} {ys : List β}
    (h : ∀ x ∈ xs, ∀ y, R x y ↔ S x y) : List.Forall₂ R xs ys ↔ List.Forall₂ S xs ys := by
  induction xs generalizing ys with
  | nil => simp
  | cons x xs ih =>
      rw [List.forall_mem_cons] at h
      simp [List.forall₂_cons_left_iff, h.1, ih h.2]

/-- From the tables of a file the languages are taken that they are about. -/
theorem reads_file_iff (h : library.FollowsShapes) (document : String)
    (hkeys : ∀ entries ∈ tables, entries.keys.Nodup) :
    library.Reads document (.record file) (Toml.Draft.ofTables "language" tables).root.toValue
        languages ↔ List.Forall₂ Describes tables languages := by
  cases tables with
  | nil =>
      show library.Reads document (.record file) (.table .header []) languages ↔ _
      rw [h.record_iff, file]
      simp [Toml.Fields.Gives]
  | cons first rest =>
      have hitems : List.Forall₂ (library.Reads document (.record settings))
          (((first :: rest).map Entries.toValues).map (.table .header)) languages ↔
            List.Forall₂ Describes (first :: rest) languages := by
        rw [List.map_map, List.forall₂_map_left_iff]
        exact forall₂_congr_mem fun entries hmem language =>
          reads_settings_iff h (hkeys entries hmem) .header
      show library.Reads document (.record file) (.table .header
        [("language", .tables ((first :: rest).map Entries.toValues))]) languages ↔ _
      rw [h.record_iff, file, ← hitems]
      simp only [Toml.Fields.Gives, h.list_iff]
      simp [Toml.Value.items?]

/-- Languages come out of a language file, or a complaint about it. -/
theorem parse_cases (library : Toml.Library) (text : String) :
    (∃ languages, parse library text = .ok languages) ∨
      ∃ complaint, parse library text = .error (.languageFile complaint) := by
  rw [parse]
  split
  · exact .inl ⟨_, rfl⟩
  · exact .inr ⟨_, rfl⟩

/-- A library reads the languages from a language file that its tables are about. -/
theorem parse_eq_ok_iff (hreads : library.ReadsDocuments) (hshapes : library.FollowsShapes)
    (htext : WritesFile tables text) (hkeys : ∀ entries ∈ tables, entries.keys.Nodup) :
    parse library text = .ok languages ↔ List.Forall₂ Describes tables languages := by
  have hvalue : library.value text = .ok (Toml.Draft.ofTables "language" tables).root.toValue :=
    hreads htext (Toml.Draft.foldlM_statements "language" [] tables hkeys)
  rw [← reads_file_iff hshapes text hkeys, parse, Toml.Library.fromText, hvalue]
  unfold Toml.Library.Reads
  simp only [bind, Except.bind]
  cases library.data (.record file) text _ <;> simp

/-- A file can be written with any tables. -/
theorem exists_writesFile (tables : List Entries) : ∃ text, WritesFile tables text := by
  refine Toml.exists_writesDocument fun statement hstatement => ?_
  obtain ⟨entries, -, hstatement⟩ := List.mem_flatMap.mp hstatement
  rcases List.mem_cons.mp hstatement with rfl | hassign
  · exact Toml.exists_writesStatement_element "language"
  · obtain ⟨entry, -, rfl⟩ := List.mem_map.mp hassign
    exact Toml.exists_writesStatement_assign entry.1 entry.2

/-- The table with all settings of a language. -/
def entriesOf (language : Language) : Entries :=
  [("name", .text language.name), ("extensions", .texts language.extensions),
    ("keywords", .texts language.keywords), ("shell-comments", .truth language.shellComments)]

/-- The table with all settings of a language is about it. -/
theorem describes_entriesOf (language : Language) : Describes (entriesOf language) language where
  name := by simp [entriesOf]
  extensions := .inl (by simp [entriesOf])
  keywords := .inl (by simp [entriesOf])
  shellComments := .inl (by simp [entriesOf])

/-- For every list of languages there is a file that is read as this list. -/
theorem exists_parse_eq (hreads : library.ReadsDocuments) (hshapes : library.FollowsShapes)
    (languages : List Language) :
    ∃ text, WritesFile (languages.map entriesOf) text ∧ parse library text = .ok languages := by
  obtain ⟨text, htext⟩ := exists_writesFile (languages.map entriesOf)
  have hkeys : ∀ entries ∈ languages.map entriesOf, entries.keys.Nodup :=
    List.forall_mem_map.mpr fun language _ => by simp [entriesOf, Entries.keys]
  refine ⟨text, htext, (parse_eq_ok_iff hreads hshapes htext hkeys).mpr ?_⟩
  rw [List.forall₂_map_left_iff, List.forall₂_same]
  exact fun language _ => describes_entriesOf language

/-- A list has a partner for each of its items or an item without one. -/
theorem exists_forall₂_iff {α β : Type} {R : α → β → Prop} {xs : List α} :
    (∃ ys, List.Forall₂ R xs ys) ↔ ∀ x ∈ xs, ∃ y, R x y := by
  induction xs with
  | nil => simp
  | cons x xs ih => simp [List.forall₂_cons_left_iff, ← ih]

/-- A language file is the list of the languages that its tables are about, in their order, however
it is written and whatever other keys its tables have. If a single table is faulty, the file as a
whole is refused. -/
theorem parse_tables (hreads : library.ReadsDocuments) (hshapes : library.FollowsShapes)
    (htext : WritesFile tables text) (hkeys : ∀ entries ∈ tables, entries.keys.Nodup) :
    (∀ languages, parse library text = .ok languages ↔
        List.Forall₂ Describes tables languages) ∧
      ((∃ complaint, parse library text = .error (.languageFile complaint)) ↔
        ∃ entries ∈ tables, Faulty entries) := by
  have hparse (languages : List Language) :
      parse library text = .ok languages ↔ List.Forall₂ Describes tables languages :=
    parse_eq_ok_iff hreads hshapes htext hkeys
  refine ⟨hparse, ?_⟩
  calc (∃ complaint, parse library text = .error (.languageFile complaint))
      ↔ ¬ ∃ languages, parse library text = .ok languages := by
        rcases parse_cases library text with ⟨languages, h⟩ | ⟨complaint, h⟩ <;> simp [h]
    _ ↔ ¬ ∀ entries ∈ tables, ∃ language, Describes entries language := by
        rw [← exists_forall₂_iff]
        exact not_congr (exists_congr hparse)
    _ ↔ ∃ entries ∈ tables, ¬ ∃ language, Describes entries language := by simp
    _ ↔ ∃ entries ∈ tables, Faulty entries :=
        exists_congr fun entries => and_congr_right fun hmem =>
          (faulty_iff_not_describes (hkeys entries hmem)).symm

/-- A comment, an array with a break and a trailing comma, keys in quotes, escapes, a key that is
spelled wrongly, and settings that are left out. -/
theorem parse_tables_of_free_forms :
    let tables : List Entries := [[("keywords", .texts ["é"]), ("name", .text "\"C")],
      [("name", .text "C"), ("keyword", .texts [])]]
    let text := "\n".intercalate ["[[ \"language\" ]] # é", "'keywords'=[\"\\u00e9\",\n]",
      "name = \"\\\"C\"", "[[language]]", "name=\"C\"", "keyword=[]"]
    WritesFile tables text ∧ (∀ entries ∈ tables, entries.keys.Nodup) ∧
      parse .reader text = .ok [⟨"\"C", [], ["é"], false⟩, ⟨"C", [], [], false⟩] := by
  intro tables text
  have hnone : ∀ c ∈ ([] : List Char), Toml.isBlank c = true := List.forall_mem_nil _
  have hblank : ∀ c ∈ [' '], Toml.isBlank c = true := List.all_eq_true.mp rfl
  have hcomment : ∀ c ∈ [' ', 'é'], Toml.isTextChar c = true := List.all_eq_true.mp rfl
  have hheader : Toml.WritesLine [.element ⟨[], "language"⟩]
      "[[ \"language\" ]] # é".toList := by
    have hkey : Toml.WritesKey "language" "\"language\"".toList :=
      .basic (Toml.writesText_self (List.all_eq_true.mp rfl))
    exact .statement hnone (.element hkey hblank hblank) (.comment hblank hcomment)
  have hkeywords : Toml.WritesLine [.assign ⟨[], "keywords"⟩ (Datum.texts ["é"]).toValue]
      "'keywords'=[\"\\u00e9\",\n]".toList := by
    have hkey : Toml.WritesKey "keywords" "'keywords'".toList := .literal (List.all_eq_true.mp rfl)
    have hchar : Toml.WritesChar 'é' "\\u00e9".toList :=
      .codePoint (by decide : ('u', ['0', '0', 'e', '9'].length) ∈ _) (List.all_eq_true.mp rfl) rfl
    have htext : Toml.WritesText "é".toList "\\u00e9".toList := .cons hchar .nil
    have hitem : Toml.WritesString "é" "\"\\u00e9\"".toList := .basic htext
    have hbreak : Toml.Filler ['\n'] := .blank rfl .nil
    have hitems : Toml.WritesItems ["é"] "\"\\u00e9\",\n]".toList :=
      .cons .nil hitem .nil (.nil hbreak)
    exact .statement hnone (.assign hkey hnone hnone (.texts hitems)) (.blanks hnone)
  have hname : Toml.WritesLine [.assign ⟨[], "name"⟩ (Datum.text "\"C").toValue]
      "name = \"\\\"C\"".toList := by
    have hkey : Toml.WritesKey "name" "name".toList := .bare (by decide) (List.all_eq_true.mp rfl)
    have hquote : Toml.WritesChar '"' "\\\"".toList := .named (by decide : ('"', '"') ∈ _)
    have htext : Toml.WritesText "\"C".toList "\\\"C".toList :=
      .cons hquote (Toml.writesText_self (List.all_eq_true.mp rfl))
    exact .statement hnone (.assign hkey hblank hblank (.text (.basic htext))) (.blanks hnone)
  have hotherHeader : Toml.WritesLine [.element ⟨[], "language"⟩] "[[language]]".toList := by
    have hkey : Toml.WritesKey "language" "language".toList :=
      .bare (by decide) (List.all_eq_true.mp rfl)
    exact .statement hnone (.element hkey hnone hnone) (.blanks hnone)
  have hotherName : Toml.WritesLine [.assign ⟨[], "name"⟩ (Datum.text "C").toValue]
      "name=\"C\"".toList := by
    have hkey : Toml.WritesKey "name" "name".toList := .bare (by decide) (List.all_eq_true.mp rfl)
    have htext : Toml.WritesText "C".toList "C".toList :=
      Toml.writesText_self (List.all_eq_true.mp rfl)
    exact .statement hnone (.assign hkey hnone hnone (.text (.basic htext))) (.blanks hnone)
  have hmisspelled : Toml.WritesLine [.assign ⟨[], "keyword"⟩ (Datum.texts []).toValue]
      "keyword=[]".toList := by
    have hkey : Toml.WritesKey "keyword" "keyword".toList :=
      .bare (by decide) (List.all_eq_true.mp rfl)
    exact .statement hnone (.assign hkey hnone hnone (.texts (.nil .nil))) (.blanks hnone)
  have hlines := Toml.WritesLines.cons hheader (.cons hkeywords (.cons hname (.cons hotherHeader
    (.cons hotherName (.last hmisspelled)))))
  have hwritten : WritesFile tables text := by
    refine ⟨text.toList, ?_, Toml.breaksAs_self (by decide +kernel)⟩
    rw [String.toList_intercalate]
    exact hlines
  have hkeys : ∀ entries ∈ tables, entries.keys.Nodup := by decide
  obtain ⟨hlanguages, -⟩ := parse_tables Toml.Library.reader_readsDocuments
    Toml.Library.reader_followsShapes hwritten hkeys
  refine ⟨hwritten, hkeys, (hlanguages _).mpr (.cons ?_ (.cons ?_ .nil))⟩
  · exact ⟨by decide, .inr ⟨by decide, rfl⟩, .inl (by decide), .inr ⟨by decide, rfl⟩⟩
  · exact ⟨by decide, .inr ⟨by decide, rfl⟩, .inr ⟨by decide, rfl⟩, .inr ⟨by decide, rfl⟩⟩

end Language

end Highlight
