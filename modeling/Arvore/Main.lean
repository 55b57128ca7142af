import Arvore.CommandLine.Run
import Arvore.Text.Utf8

/-!
# The program

The command line of the current process, its files and its output.
-/

namespace Arvore.CommandLine

/-- Why an operation on a file failed. -/
def fileError : IO.Error → FileError
  | .noFileOrDirectory .. => .missing
  | .noSuchThing .. => .missing
  | .inappropriateType _ _ details => if details = "Is a directory" then .directory else .notDirectory
  | .invalidArgument _ _ details => if details = "File name too long" then .nameTooLong else .other details
  | .permissionDenied .. => .other "permission denied"
  | error => .other (toString error)

/-- Runs an operation on a file. -/
def attempt {α : Type} (operation : IO α) : IO (Except FileError α) :=
  try
    return .ok (← operation)
  catch error =>
    return .error (fileError error)

/-- Reads the characters of a file. -/
def readText (name : String) : IO (Except FileError (List Char)) :=
  attempt do
    let bytes ← IO.FS.readBinFile name
    return Text.Utf8.decode bytes.toList

/-- Reads the file of a command. -/
def readInput (command : Command) : IO (String → Except FileError (List Char)) := do
  match command.file? with
  | none => return fun _ => .error .missing
  | some name =>
    let text ← readText name
    return fun _ => text

/-- Follows a command. -/
def perform (command : Command) : IO Reply := do
  match command.action (← readInput command) with
  | .reply reply => return reply
  | .write name text log => return .written name text log (← attempt (IO.FS.writeFile name text))

/-- Follows a command line. -/
def answer (arguments : List String) : IO Reply :=
  match Command.parse arguments with
  | .error refusal => return .refused refusal
  | .ok command => perform command

end Arvore.CommandLine

/-- Follows the command line of the process, prints the reply and ends with its exit code. -/
def main (arguments : List String) : IO UInt32 := do
  let reply ← Arvore.CommandLine.answer arguments
  IO.eprint reply.stderr
  IO.print reply.stdout
  return reply.exitCode.toUInt32
