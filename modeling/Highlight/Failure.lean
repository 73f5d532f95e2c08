/-!
# Failures

Styling cannot fail. What can fail is what surrounds it: reading a file, understanding a language
file, finding a language by its name, and reading the command line.
-/

namespace Highlight

/-- The causes of failure. -/
inductive Failure where
  /-- A file cannot be read. The complaint is that of the system. -/
  | read (complaint : String)
  /-- A language file is not TOML or does not describe languages. The complaint is that of the
  reader of the file. -/
  | languageFile (complaint : String)
  /-- No language has the name. -/
  | unknownLanguage (name : String)
  /-- An option stands last on the command line, where its value is missing. -/
  | missingValue (option : String)
  deriving DecidableEq, Repr

/-- What the user is told. -/
def Failure.message : Failure → String
  | read complaint => s!"I/O error: {complaint}"
  | languageFile complaint => s!"Invalid language file: {complaint}"
  | unknownLanguage name => s!"Unknown language: {name}"
  | missingValue option => s!"{option} needs a value"

end Highlight
