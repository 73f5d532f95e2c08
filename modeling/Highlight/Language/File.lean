import Highlight.FileStore
import Highlight.Language
import Highlight.Toml.Shape

/-!
# Language files

Languages are described in a TOML file: an array `language` with a record for each. Only the name is
required. The file is read by a library, which is a parameter.
-/

namespace Highlight.Language

/-- The key of a field: words are joined by hyphens. -/
def kebabCase (field : String) : String :=
  String.ofList (field.toList.map fun c => if c = '_' then '-' else c)

/-- The settings of a language. -/
def settings : Toml.Fields Language :=
  .required (kebabCase "name") .text fun name =>
    .optional (kebabCase "extensions") (.list .text) [] fun extensions =>
      .optional (kebabCase "keywords") (.list .text) [] fun keywords =>
        .optional (kebabCase "shell_comments") .truth false fun shellComments =>
          .done ⟨name, extensions, keywords, shellComments⟩

/-- What a language file has in it. -/
def file : Toml.Fields (List Language) :=
  .optional "language" (.list (.record settings)) [] .done

/-- The languages that the text of a language file describes. -/
def parse (library : Toml.Library) (text : String) : Except Failure (List Language) :=
  match library.fromText (.record file) text with
  | .ok languages => .ok languages
  | .error complaint => .error (.languageFile complaint)

/-- The languages of a language file. -/
def load (library : Toml.Library) (store : FileStore) (path : String) :
    Except Failure (List Language) := do
  parse library (← store.readText path)

end Highlight.Language
