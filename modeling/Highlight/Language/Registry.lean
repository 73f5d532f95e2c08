import Highlight.Language.BuiltIn
import Highlight.Language.File
import Highlight.Path
import Highlight.Styler
import Highlight.Text.Lowercase
import Std.Data.TreeMap

/-!
# The registry of languages

Languages are found by their name or by the extension of a file. A language replaces an earlier one
of its name and takes its extensions over from whatever language had them. The order in which the
languages are gone through is not theirs: it is an argument where it can matter.
-/

namespace Highlight.Language

/-- The known languages by name, and for each extension in lower case the name of its language. -/
structure Registry where
  languages : Std.TreeMap String Language
  extensions : Std.TreeMap String String

/-- An order in which languages that are kept by their names are gone through. It may be any. -/
structure MapOrder where
  list : Std.TreeMap String Language → List Language
  perm : ∀ languages, (list languages).Perm (languages.toList.map Prod.snd)

/-- The order of the names. -/
def MapOrder.sorted : MapOrder where
  list languages := languages.toList.map Prod.snd
  perm _ := .refl _

namespace Registry

/-- The registry without languages. -/
def empty : Registry :=
  ⟨∅, ∅⟩

/-- Add a language. -/
def add (registry : Registry) (language : Language) : Registry where
  languages := registry.languages.insert language.name language
  extensions := language.extensions.foldl (fun extensions extension =>
    extensions.insert (Text.lowercase extension) language.name) registry.extensions

/-- Add languages in order. -/
def addAll (registry : Registry) (languages : List Language) : Registry :=
  languages.foldl add registry

/-- The registry of the built-in languages. -/
def standard : Registry :=
  empty.addAll builtIn

/-- Add the languages of a language file and count them. If the file fails, the registry that is
left comes with the failure. -/
def loadFile (registry : Registry) (library : Toml.Library) (store : FileStore) (path : String) :
    Except Failure Nat × Registry :=
  match load library store path with
  | .ok languages => (.ok languages.length, registry.addAll languages)
  | .error failure => (.error failure, registry)

/-- The names of all languages in order. -/
def names (registry : Registry) : List String :=
  registry.languages.keys

/-- Two names are the same up to the case of their ASCII letters. -/
def sameName (left right : String) : Bool :=
  left.toLower == right.toLower

/-- The language of a name. If no language is named exactly so, the case of ASCII letters does not
count, and of several languages the first one in the order is taken. -/
def get? (order : MapOrder) (registry : Registry) (name : String) : Option Language :=
  match registry.languages[name]? with
  | some language => some language
  | none => (order.list registry.languages).find? fun language => sameName language.name name

/-- The language of a file by the extension of its path. -/
def detect? (registry : Registry) (path : String) : Option Language := do
  let extension ← Path.extension? path
  let name ← registry.extensions[Text.lowercase extension]?
  registry.languages[name]?

/-- A styler for the language of a name. -/
def styler (order : MapOrder) (registry : Registry) (name : String) : Except Failure Styler :=
  match registry.get? order name with
  | some language => .ok (.ofLanguage language)
  | none => .error (.unknownLanguage name)

end Registry

end Highlight.Language
