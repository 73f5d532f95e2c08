import Highlight.Language.Registry
import Highlight.Text.Quoted

/-!
# The command line

The program prints the styling of a file. `run` says for each list of arguments and each host what
is printed and how the program exits. The arguments are read from left to right before any file is;
then come the language files in order, and only then the file to be styled. What fails prints its
complaint.
-/

namespace Highlight.CommandLine

/-- The name and the version under which the program presents itself. -/
def programVersion : String :=
  "clike-styler 0.4.0"

/-- The help text. -/
def usage : String :=
  String.join <| List.map (· ++ "\n") [
    programVersion ++ " - lexical styling for C-like languages",
    "",
    "Usage: clike-styler [OPTIONS] FILE",
    "",
    "Options:",
    "  -l, --language NAME    Style as NAME instead of detecting from the extension",
    "      --languages FILE   Load extra language definitions from a TOML file",
    "      --list             List known languages",
    "  -h, --help             Show this help message",
    "  -V, --version          Show version information",
    "",
    "Set RUST_LOG=debug for diagnostics."]

/-- What the arguments ask for. -/
structure Options where
  language? : Option String
  /-- The paths of language files in the order in which they are loaded. -/
  languageFiles : List String
  list : Bool
  file? : Option String
  deriving DecidableEq, Repr

/-- The options of an empty command line. -/
def Options.empty : Options :=
  ⟨none, [], false, none⟩

/-- What a command line asks for. -/
inductive Request where
  | help
  | version
  | style (options : Options)
  deriving DecidableEq, Repr

/-- What makes the program stop at once, without a complaint of its own. -/
inductive Panic where
  /-- An argument was read that is not Unicode. -/
  | notUnicode (argument : ByteArray)
  /-- A line was to be styled that there is not. -/
  | lineOutOfRange (error : LineOutOfRange)

/-- Why nothing is printed. -/
inductive Stop where
  | failure (failure : Failure)
  | panic (panic : Panic)

/-- What the program rests on. -/
structure Host where
  files : FileStore
  /-- What reads language files. -/
  toml : Toml.Library
  /-- The order in which languages are gone through. -/
  order : Language.MapOrder
  /-- What is printed about a panic. -/
  report : Panic → String

/-- Read the arguments from left to right. A request for help or for the version decides at once,
and so does an option without its value. Of several languages or files the last one counts. An
argument must be Unicode when it is read. -/
def parse (options : Options) : List ByteArray → Except Stop Request
  | [] => .ok (.style options)
  | bytes :: rest =>
      match String.fromUTF8? bytes with
      | none => .error (.panic (.notUnicode bytes))
      | some argument =>
          if argument = "--help" ∨ argument = "-h" then .ok .help
          else if argument = "--version" ∨ argument = "-V" then .ok .version
          else if argument = "--list" then parse { options with list := true } rest
          else if argument = "--language" ∨ argument = "-l" then
            match rest with
            | [] => .error (.failure (.missingValue argument))
            | value :: rest =>
                match String.fromUTF8? value with
                | none => .error (.panic (.notUnicode value))
                | some name => parse { options with language? := some name } rest
          else if argument = "--languages" then
            match rest with
            | [] => .error (.failure (.missingValue argument))
            | value :: rest =>
                match String.fromUTF8? value with
                | none => .error (.panic (.notUnicode value))
                | some path =>
                    parse { options with languageFiles := options.languageFiles ++ [path] } rest
          else parse { options with file? := some argument } rest

/-- The language for a file whose extension no language has. -/
def fallbackLanguage : String := "C"

/-- The width to which line numbers are filled with blanks. -/
def numberWidth : Nat := 5

/-- A line number aligned to the right. -/
def renderNumber (number : Nat) : String :=
  let digits := Nat.toDigits 10 number
  String.ofList (List.replicate (numberWidth - digits.length) ' ' ++ digits)

/-- A span as its kind and its quoted text. -/
def renderSpan (span : Span) : String :=
  span.kind.name ++ ":" ++ Text.Quoted.encode span.text

/-- A line of output: the number, a blank, and the spans with blanks between them. -/
def renderLine (number : Nat) (spans : List Span) : String :=
  renderNumber number ++ " " ++ " ".intercalate (spans.map renderSpan) ++ "\n"

/-- What a program has printed, and the missing line at which it has stopped, if it has. -/
structure Printed where
  output : String
  missing? : Option LineOutOfRange
  deriving DecidableEq

/-- Output to the end. -/
def Printed.all (output : String) : Printed :=
  ⟨output, none⟩

/-- Style and print `count` lines of a buffer from a line on, numbered from one. -/
def printLines (buffer : TextBuffer) : Nat → Nat → Styler → Printed
  | 0, _, _ => .all ""
  | count + 1, line, styler =>
      match styler.styleLine buffer line with
      | .error error => ⟨"", some error⟩
      | .ok (spans, styler) =>
          let later := printLines buffer count (line + 1) styler
          ⟨renderLine (line + 1) spans ++ later.output, later.missing?⟩

/-- Style and print all lines of a buffer. -/
def printAll (styler : Styler) (buffer : TextBuffer) : Printed :=
  printLines buffer (lineCount buffer) 0 styler

/-- Load language files in order. -/
def loadAll (host : Host) (registry : Language.Registry) :
    List String → Except Failure Language.Registry
  | [] => .ok registry
  | path :: rest =>
      match registry.loadFile host.toml host.files path with
      | (.ok _, registry) => loadAll host registry rest
      | (.error failure, _) => .error failure

/-- The name of the language of a file: the one asked for, or the one of its extension. -/
def languageName (options : Options) (registry : Language.Registry) (path : String) : String :=
  match options.language? with
  | some name => name
  | none => ((registry.detect? path).map Language.name).getD fallbackLanguage

/-- What is printed for the options. -/
def perform (host : Host) (options : Options) : Except Failure Printed := do
  let registry ← loadAll host .standard options.languageFiles
  if options.list then
    return .all (String.join (registry.names.map (· ++ "\n")))
  else
    match options.file? with
    | none => return .all usage
    | some path =>
        let buffer ← TextBuffer.load host.files path
        let styler ← registry.styler host.order (languageName options registry path)
        return printAll styler buffer

/-- What is printed for a command line. -/
def execute (host : Host) (arguments : List ByteArray) : Except Stop Printed := do
  match ← parse .empty arguments with
  | .help => return .all usage
  | .version => return .all (programVersion ++ "\n")
  | .style options => (perform host options).mapError .failure

/-- What a run of the program leaves behind. -/
structure Outcome where
  output : String
  complaint : String
  exitCode : UInt32
  deriving DecidableEq, Repr

/-- A run of the program. -/
def run (host : Host) (arguments : List ByteArray) : Outcome :=
  match execute host arguments with
  | .ok ⟨output, none⟩ => ⟨output, "", 0⟩
  | .ok ⟨output, some error⟩ => ⟨output, host.report (.lineOutOfRange error), 101⟩
  | .error (.failure failure) => ⟨"", s!"Error: {failure.message}\n", 1⟩
  | .error (.panic panic) => ⟨"", host.report panic, 101⟩

/-- The paths of all files that a run may read. -/
def paths (arguments : List ByteArray) : List String :=
  match parse .empty arguments with
  | .ok (.style options) => options.languageFiles ++ options.file?.toList
  | _ => []

end Highlight.CommandLine
