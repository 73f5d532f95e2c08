import Highlight.CommandLine

/-!
# The program

The files that the command line names are read beforehand, and what the run leaves behind is
printed.
-/

namespace Highlight.CommandLine

/-- What the system says about a failed operation, with its number for that. -/
def systemText : IO.Error → String
  | .noFileOrDirectory _ code details | .interrupted _ code details
  | .permissionDenied _ code details | .inappropriateType _ code details
  | .invalidArgument _ code details | .noSuchThing _ code details
  | .resourceExhausted _ code details | .alreadyExists _ code details
  | .otherError code details | .resourceBusy code details | .resourceVanished code details
  | .hardwareFault code details | .illegalOperation code details | .protocolError code details
  | .timeExpired code details | .unsatisfiedConstraints code details
  | .unsupportedOperation code details => s!"{details} (os error {code})"
  | .unexpectedEof => "unexpected end of file"
  | .userError text => text

/-- What the file at a path holds, or why it cannot be read. -/
def readEntry (path : String) : IO (Except String ByteArray) := do
  try
    return .ok (← IO.FS.readBinFile path)
  catch error =>
    return .error (systemText error)

/-- What is said about a panic. -/
def report : Panic → String
  | .notUnicode _ => "an argument is not Unicode\n"
  | .lineOutOfRange error => error.message ++ "\n"

end Highlight.CommandLine

open Highlight

/-- The command line of the process. -/
def main (arguments : List String) : IO UInt32 := do
  let arguments := arguments.map String.toUTF8
  let entries ← (CommandLine.paths arguments).mapM fun path =>
    return (path, ← CommandLine.readEntry path)
  let store : FileStore := fun path => (entries.lookup path).getD (.error Folder.notFound)
  let host : CommandLine.Host := ⟨store, .reader, .sorted, CommandLine.report⟩
  let outcome := CommandLine.run host arguments
  IO.print outcome.output
  IO.eprint outcome.complaint
  return outcome.exitCode
