import Highlight.Language.Registry

/-!
# The log of a registry

A registry keeps two maps that each addition changes apart: languages by name, and names of
languages by extension. All that it says follows from the log of the languages that were ever
added: `getElem?_languages_addAll` and `getElem?_extensions_addAll` say what the log makes of each
map, and `Holds.reflects` what the registry answers from them. The main theorem, `reflects_log`, is
about additions and language files in any order, those that fail among them.
-/

namespace Highlight.Language

variable {log : List Language} {registry : Registry}

/-! ## Logs -/

/-- The language that was added last under a name. -/
def lastNamed (log : List Language) (name : String) : Option Language :=
  log.findRev? fun language => language.name == name

/-- The language claims the extension, which is in lower case. -/
def lists (language : Language) (extension : String) : Bool :=
  language.extensions.any fun listed => Text.lowercase listed == extension

/-- The language that was added last of those that claim an extension. -/
def lastListing (log : List Language) (extension : String) : Option Language :=
  log.findRev? fun language => language.lists extension

/-- What stands first in a list is found last. -/
theorem findRev?_cons {α : Type} (p : α → Bool) (first : α) (rest : List α) :
    (first :: rest).findRev? p =
      (rest.findRev? p).or (if p first then some first else none) := by
  rw [List.findRev?]
  cases rest.findRev? p with
  | none => cases p first <;> rfl
  | some found => rfl

/-- Nothing was added under a name that no language of the log has. -/
theorem lastNamed_eq_none_iff {name : String} :
    lastNamed log name = none ↔ ∀ language ∈ log, language.name ≠ name := by
  simp [lastNamed]

/-- No language was the last to claim an extension that none claims. -/
theorem lastListing_eq_none_iff {extension : String} :
    lastListing log extension = none ↔ ∀ language ∈ log, language.lists extension = false := by
  simp [lastListing]

/-- The last language to claim an extension is in the log. -/
theorem mem_of_lastListing {extension : String} {language : Language}
    (h : lastListing log extension = some language) : language ∈ log := by
  rw [lastListing, List.findRev?_eq_find?_reverse] at h
  exact List.mem_reverse.mp (List.mem_of_find?_eq_some h)

namespace Registry

/-! ## The two maps -/

/-- An added language stands under its name, and nothing changes under the others. -/
theorem getElem?_languages_add (registry : Registry) (language : Language) (name : String) :
    (registry.add language).languages[name]? =
      if language.name = name then some language else registry.languages[name]? := by
  rw [add, Std.TreeMap.getElem?_insert]
  simp only [Std.compare_eq_iff_eq]

/-- Claiming extensions for a language takes them from whatever language had them. -/
theorem getElem?_foldl_insert (owners : Std.TreeMap String String) (name : String)
    (listed : List String) (extension : String) :
    (listed.foldl (fun owners other => owners.insert (Text.lowercase other) name)
        owners)[extension]? =
      if listed.any fun other => Text.lowercase other == extension then some name
      else owners[extension]? := by
  induction listed generalizing owners with
  | nil => rfl
  | cons other rest ih =>
      rw [List.foldl_cons, ih, Std.TreeMap.getElem?_insert, List.any_cons]
      by_cases hrest : rest.any fun other => Text.lowercase other == extension
      · simp [hrest]
      · by_cases hother : Text.lowercase other = extension
        · simp [hrest, hother]
        · simp [hrest, hother]

/-- An added language owns the extensions that it claims, and no others change their owner. -/
theorem getElem?_extensions_add (registry : Registry) (language : Language) (extension : String) :
    (registry.add language).extensions[extension]? =
      if language.lists extension then some language.name
      else registry.extensions[extension]? :=
  getElem?_foldl_insert registry.extensions language.name language.extensions extension

/-- Under each name stands the language that was added last. -/
theorem getElem?_languages_addAll (registry : Registry) (log : List Language) (name : String) :
    (registry.addAll log).languages[name]? =
      (lastNamed log name).or registry.languages[name]? := by
  -- The first language of the log becomes part of the registry that the rest is added to.
  induction log generalizing registry with
  | nil => rfl
  | cons language rest ih =>
      rw [addAll, List.foldl_cons, ← addAll, ih, getElem?_languages_add, lastNamed, lastNamed,
        findRev?_cons, Option.or_assoc]
      by_cases hname : language.name = name <;> simp [hname]

/-- Each extension is owned by the language that was the last to claim it. -/
theorem getElem?_extensions_addAll (registry : Registry) (log : List Language)
    (extension : String) :
    (registry.addAll log).extensions[extension]? =
      ((lastListing log extension).map Language.name).or registry.extensions[extension]? := by
  induction log generalizing registry with
  | nil => rfl
  | cons language rest ih =>
      rw [addAll, List.foldl_cons, ← addAll, ih, getElem?_extensions_add, lastListing, lastListing,
        findRev?_cons]
      cases rest.findRev? fun language => language.lists extension with
      | none => cases language.lists extension <;> rfl
      | some later => rfl

/-- Adding languages one after the other is adding some and then the others. -/
theorem addAll_append (registry : Registry) (first later : List Language) :
    registry.addAll (first ++ later) = (registry.addAll first).addAll later :=
  List.foldl_append

/-! ## What a registry says -/

variable {order : MapOrder}

/-- A registry says what follows from the languages that were added, in the order in which they
were, whatever the order in which it goes through them. -/
structure Reflects (order : MapOrder) (registry : Registry) (log : List Language) : Prop where
  pairwise_names : registry.names.Pairwise (· < ·)
  mem_names : ∀ name, name ∈ registry.names ↔ ∃ language ∈ log, language.name = name
  get?_of_named : ∀ name, (∃ language ∈ log, language.name = name) →
    registry.get? order name = lastNamed log name
  /-- If no name is exactly the one asked for and just one is it up to case, that one is meant. -/
  get?_of_only : ∀ name only, (∀ language ∈ log, language.name ≠ name) →
    (∃ language ∈ log, language.name = only) →
    (∀ language ∈ log, sameName language.name name = true ↔ language.name = only) →
    registry.get? order name = lastNamed log only
  get?_eq_none_iff : ∀ name,
    registry.get? order name = none ↔ ∀ language ∈ log, sameName language.name name = false
  styler_eq_error_iff : ∀ name,
    registry.styler order name = .error (.unknownLanguage name) ↔ registry.get? order name = none
  styler_of_get? : ∀ name language, registry.get? order name = some language →
    registry.styler order name = .ok (.ofLanguage language)
  /-- A path is of the language whose name the last one to claim its extension has, even if what
  was added later under that name does not claim it. -/
  detect?_eq : ∀ path, registry.detect? path =
    (Path.extension? path).bind fun extension =>
      (lastListing log (Text.lowercase extension)).bind fun owner => lastNamed log owner.name
  detect?_eq_none_iff : ∀ path, registry.detect? path = none ↔
    ∀ extension, Path.extension? path = some extension →
      ∀ language ∈ log, language.lists (Text.lowercase extension) = false

/-- The two maps of a registry are those that the languages make when they are added in order. -/
structure Holds (registry : Registry) (log : List Language) : Prop where
  languages : ∀ name, registry.languages[name]? = lastNamed log name
  extensions : ∀ extension,
    registry.extensions[extension]? = (lastListing log extension).map Language.name

/-- Languages that are added in order to no others make the two maps. -/
theorem holds_addAll (log : List Language) : (empty.addAll log).Holds log where
  languages name := by
    rw [getElem?_languages_addAll]
    exact Option.or_none
  extensions extension := by
    rw [getElem?_extensions_addAll]
    exact Option.or_none

/-- The names are in order, each once. -/
theorem pairwise_names (registry : Registry) : registry.names.Pairwise (· < ·) := by
  have hordered : registry.names.Pairwise fun left right => compare left right = .lt :=
    Std.TreeMap.ordered_keys
  exact hordered.imp fun hlt => compareOfLessAndEq_eq_lt.mp hlt

/-- The names are those of the languages that were added. -/
theorem Holds.mem_names (h : registry.Holds log) (name : String) :
    name ∈ registry.names ↔ ∃ language ∈ log, language.name = name := by
  rw [names, Std.TreeMap.mem_keys, Std.TreeMap.mem_iff_isSome_getElem?, h.languages,
    Option.isSome_iff_ne_none, ne_eq, lastNamed_eq_none_iff]
  simp

/-- What was added last under a name has it. -/
theorem name_of_lastNamed {name : String} {language : Language}
    (h : lastNamed log name = some language) : language ∈ log ∧ language.name = name := by
  rw [lastNamed, List.findRev?_eq_find?_reverse] at h
  exact ⟨List.mem_reverse.mp (List.mem_of_find?_eq_some h), by simpa using List.find?_some h⟩

/-- In every order the languages are those that were added last under their names. -/
theorem Holds.mem_list_iff (h : registry.Holds log) {language : Language} :
    language ∈ order.list registry.languages ↔
      lastNamed log language.name = some language := by
  rw [(order.perm registry.languages).mem_iff, List.mem_map]
  constructor
  · rintro ⟨⟨name, found⟩, hentry, rfl⟩
    rw [Std.TreeMap.mem_toList_iff_getElem?_eq_some, h.languages] at hentry
    show lastNamed log found.name = some found
    rw [(name_of_lastNamed hentry).2, hentry]
  · intro hlast
    refine ⟨(language.name, language), ?_, rfl⟩
    rw [Std.TreeMap.mem_toList_iff_getElem?_eq_some, h.languages, hlast]

/-- Every name is the same as itself. -/
theorem sameName_self (name : String) : sameName name name = true :=
  beq_self_eq_true name.toLower

/-- A name that a language has exactly is that of the one added last under it. -/
theorem Holds.get?_of_named (h : registry.Holds log) {name : String}
    (hname : ∃ language ∈ log, language.name = name) :
    registry.get? order name = lastNamed log name := by
  rw [get?, h.languages]
  cases hlast : lastNamed log name with
  | some language => rfl
  | none =>
      obtain ⟨language, hlanguage, heq⟩ := hname
      exact absurd heq (lastNamed_eq_none_iff.mp hlast language hlanguage)

/-- If no name is exactly the one asked for, the first language in the order is taken whose name is
it up to case. -/
theorem Holds.get?_of_not_named (h : registry.Holds log) {name : String}
    (hname : ∀ language ∈ log, language.name ≠ name) :
    registry.get? order name =
      (order.list registry.languages).find? fun language => sameName language.name name := by
  have hnone : registry.languages[name]? = none :=
    (h.languages name).trans (lastNamed_eq_none_iff.mpr hname)
  rw [get?, hnone]

/-- If just one name is the one asked for up to case, the order does not matter. -/
theorem Holds.get?_of_only (h : registry.Holds log) {name only : String}
    (hname : ∀ language ∈ log, language.name ≠ name)
    (hthere : ∃ language ∈ log, language.name = only)
    (honly : ∀ language ∈ log, sameName language.name name = true ↔ language.name = only) :
    registry.get? order name = lastNamed log only := by
  rw [h.get?_of_not_named hname]
  cases hlast : lastNamed log only with
  | none =>
      obtain ⟨language, hlanguage, hsame⟩ := hthere
      exact absurd hsame (lastNamed_eq_none_iff.mp hlast language hlanguage)
  | some language =>
      obtain ⟨hlanguage, hsame⟩ := name_of_lastNamed hlast
      -- The language fits, and what is found has its name, so it is this one.
      have hthere : language ∈ order.list registry.languages :=
        h.mem_list_iff.mpr (by rw [hsame, hlast])
      have hfound : ((order.list registry.languages).find? fun language =>
          sameName language.name name).isSome :=
        List.find?_isSome.mpr ⟨language, hthere, (honly language hlanguage).mpr hsame⟩
      obtain ⟨found, hfind⟩ := Option.isSome_iff_exists.mp hfound
      have hfoundLast := h.mem_list_iff.mp (List.mem_of_find?_eq_some hfind)
      have hmatch : sameName found.name name = true := by simpa using List.find?_some hfind
      rw [(honly found (name_of_lastNamed hfoundLast).1).mp hmatch, hlast] at hfoundLast
      rw [hfind, Option.some.inj hfoundLast]

/-- What is found by a name has been added under a name that is the same up to case. -/
theorem Holds.mem_of_get? (h : registry.Holds log) {name : String} {language : Language}
    (hget : registry.get? order name = some language) :
    language ∈ log ∧ sameName language.name name = true := by
  by_cases hname : ∃ language ∈ log, language.name = name
  · rw [h.get?_of_named hname] at hget
    obtain ⟨hlanguage, rfl⟩ := name_of_lastNamed hget
    exact ⟨hlanguage, sameName_self _⟩
  · have hnot : ∀ language ∈ log, language.name ≠ name :=
      fun language hlanguage heq => hname ⟨language, hlanguage, heq⟩
    rw [h.get?_of_not_named hnot] at hget
    have hlast := h.mem_list_iff.mp (List.mem_of_find?_eq_some hget)
    exact ⟨(name_of_lastNamed hlast).1, by simpa using List.find?_some hget⟩

/-- A name is unknown if no language has it up to case. -/
theorem Holds.get?_eq_none_iff (h : registry.Holds log) (name : String) :
    registry.get? order name = none ↔ ∀ language ∈ log, sameName language.name name = false := by
  constructor
  · intro hnone language hlanguage
    -- The last language with the same name as this one would have been found.
    cases hlast : lastNamed log language.name with
    | none => exact absurd rfl (lastNamed_eq_none_iff.mp hlast language hlanguage)
    | some last =>
        obtain ⟨-, hlastName⟩ := name_of_lastNamed hlast
        have hthere : last ∈ order.list registry.languages :=
          h.mem_list_iff.mpr (by rw [hlastName, hlast])
        have hnot : ∀ other ∈ log, other.name ≠ name := by
          intro other hother hname
          rw [h.get?_of_named ⟨other, hother, hname⟩, lastNamed_eq_none_iff] at hnone
          exact hnone other hother hname
        rw [h.get?_of_not_named hnot, List.find?_eq_none] at hnone
        rw [← hlastName]
        exact Bool.eq_false_iff.mpr (hnone last hthere)
  · intro hnone
    refine Option.eq_none_iff_forall_ne_some.mpr fun language hget => ?_
    obtain ⟨hlanguage, hsame⟩ := h.mem_of_get? hget
    rw [hnone language hlanguage] at hsame
    cases hsame

/-- There is no styler if and only if there is no language. -/
theorem styler_eq_error_iff (registry : Registry) (name : String) :
    registry.styler order name = .error (.unknownLanguage name) ↔
      registry.get? order name = none := by
  rw [styler]
  cases registry.get? order name <;> simp

/-- The styler of a name is that for the language of the name. -/
theorem styler_of_get? {name : String} {language : Language}
    (h : registry.get? order name = some language) :
    registry.styler order name = .ok (.ofLanguage language) := by
  rw [styler, h]

/-- The language of a path follows from the log. -/
theorem Holds.detect?_eq (h : registry.Holds log) (path : String) :
    registry.detect? path = (Path.extension? path).bind fun extension =>
      (lastListing log (Text.lowercase extension)).bind fun owner => lastNamed log owner.name := by
  rw [detect?]
  cases Path.extension? path with
  | none => rfl
  | some extension =>
      simp only [bind, Option.bind, h.languages, h.extensions]
      cases lastListing log (Text.lowercase extension) <;> rfl

/-- The owner of an extension is a language that there is. -/
theorem Holds.detect?_eq_none_iff (h : registry.Holds log) (path : String) :
    registry.detect? path = none ↔ ∀ extension, Path.extension? path = some extension →
      ∀ language ∈ log, language.lists (Text.lowercase extension) = false := by
  rw [h.detect?_eq, Option.bind_eq_none_iff]
  refine forall_congr' fun extension => imp_congr_right fun _ => ?_
  rw [← lastListing_eq_none_iff, Option.bind_eq_none_iff]
  constructor
  · intro hnone
    cases howner : lastListing log (Text.lowercase extension) with
    | none => rfl
    | some owner =>
        exact absurd rfl
          (lastNamed_eq_none_iff.mp (hnone owner howner) owner (mem_of_lastListing howner))
  · intro hnone owner howner
    rw [hnone] at howner
    cases howner

/-- A registry with the two maps of a log says what follows from the log. -/
theorem Holds.reflects (h : registry.Holds log) : registry.Reflects order log where
  pairwise_names := registry.pairwise_names
  mem_names := h.mem_names
  get?_of_named _ := h.get?_of_named
  get?_of_only _ _ := h.get?_of_only
  get?_eq_none_iff := h.get?_eq_none_iff
  styler_eq_error_iff := registry.styler_eq_error_iff
  styler_of_get? _ _ := styler_of_get?
  detect?_eq := h.detect?_eq
  detect?_eq_none_iff := h.detect?_eq_none_iff

/-! ## Histories -/

/-- What can be done to a registry. -/
inductive Registration where
  | add (language : Language)
  /-- Add the languages of a language file. -/
  | loadFile (store : FileStore) (path : String)

variable (library : Toml.Library)

/-- The languages that are added. A language file that cannot be read adds none. -/
def Registration.languages : Registration → List Language
  | add language => [language]
  | loadFile store path =>
      match Language.load library store path with
      | .ok languages => languages
      | .error _ => []

/-- Carry out a registration. The reply is the number of languages that were added, or why a
language file fails. -/
def register (registry : Registry) : Registration → Registry × Except Failure Nat
  | .add language => (registry.add language, .ok 1)
  | .loadFile store path => (registry.loadFile library store path).swap

/-- Carry out registrations one after the other. -/
def registerAll (registry : Registry) (registrations : List Registration) : Registry :=
  registrations.foldl (fun registry registration => (registry.register library registration).1)
    registry

/-- Loading a language file adds its languages in order, or fails as reading the file does. A
registry stays as it is if a language file fails. -/
theorem register_loadFile (registry : Registry) (store : FileStore) (path : String) :
    registry.register library (.loadFile store path) =
      match Language.load library store path with
      | .ok languages => (registry.addAll languages, .ok languages.length)
      | .error failure => (registry, .error failure) := by
  rw [register, Registry.loadFile]
  cases Language.load library store path <;> rfl

/-- A registration adds its languages. -/
theorem fst_register (registry : Registry) (registration : Registration) :
    (registry.register library registration).1 =
      registry.addAll (registration.languages library) := by
  cases registration with
  | add language => rfl
  | loadFile store path =>
      rw [register_loadFile, Registration.languages]
      cases Language.load library store path <;> rfl

/-- Registrations add all their languages. -/
theorem registerAll_eq_addAll (registry : Registry) (registrations : List Registration) :
    registry.registerAll library registrations =
      registry.addAll (registrations.flatMap (Registration.languages library)) := by
  induction registrations generalizing registry with
  | nil => rfl
  | cons registration rest ih =>
      rw [List.flatMap_cons, addAll_append, ← fst_register, ← ih]
      rfl

end Registry

end Highlight.Language
