import Arvore.CommandLine.Command
import Arvore.CommandLine.FileTree
import Arvore.Compilation
import Arvore.Program.Tree
import Arvore.Tree.Render

/-!
# Running a command

A command reads at most one file and, if all goes well, asks for at most one to be written. What it does in between
depends on nothing else, so `run` is a function from the arguments and the files to the reply and the files
afterwards.
-/

namespace Arvore.CommandLine

/-- What a command leaves behind: what it printed, and its exit code. -/
structure Reply where
  exitCode : Nat := 0
  stdout : String := ""
  stderr : String := ""
  deriving DecidableEq, Repr

/-- What remains to be done after a command has done its work. -/
inductive Action where
  | reply (reply : Reply)
  /-- to write a text into the file with a name; the log has been printed -/
  | write (name text log : String)
  deriving DecidableEq, Repr

/-- The exit code of a failure: an internal fault ends the program in a way of its own. -/
def failureCode : Failure → Nat
  | .diagnostic _ => 1
  | .fault _ => 2

/-- What is printed about a failure. -/
def failureText : Failure → String
  | .diagnostic found => found.message ++ "\n"
  | .fault fault => "internal fault: " ++ fault.message ++ "\n"

/-- The reply to a failure, behind what was logged. -/
def Reply.failed (log : String) (failure : Failure) : Reply :=
  { exitCode := failureCode failure, stderr := log ++ failureText failure }

/-- The reply to a text that cannot be compiled. -/
def Reply.rejected (log : String) : CompileError → Reply
  | .load error => { exitCode := 1, stderr := log ++ error.message ++ "\n" }
  | .failure failure => .failed log failure

/-- The reply to a file that cannot be read. -/
def Reply.unreadable (log name : String) (error : FileError) : Reply :=
  { exitCode := 1, stderr := log ++ "Error reading file " ++ name ++ ": " ++ error.message .reading name ++ "\n" }

/-- The log if it was asked for. -/
def logged (verbose : Bool) (events : List Event) : String := if verbose then Event.log events else ""

/-- What a thorough check shows of an accepted program: its tree, then the frame of each function. -/
def details (c : Compilation) : Except Fault String := do
  let tree ← c.program.toTree.render
  return "AST: " ++ tree ++ "\n" ++
    String.join (c.functions.map fun f => (f.locals.listing f.function.name).render ++ "\n")

/-- Checks the program that a text holds. -/
def check (file : String) (verbose : Bool) (text : List Char) : Reply :=
  match Program.load text with
  | .error error => .rejected (logged verbose [.checking file]) (.load error)
  | .ok p =>
    match p.analyze with
    | (events, .error failure) => .failed (logged verbose (.checking file :: events)) failure
    | (events, .ok c) =>
      let log := logged verbose (.checking file :: events)
      let verdict := file ++ ": no errors found\n"
      if verbose then
        match details c with
        | .ok shown => { stdout := verdict ++ shown, stderr := log }
        | .error fault => { Reply.failed log (.fault fault) with stdout := verdict }
      else { stdout := verdict, stderr := log }

/-- Does the work of a command, `read` giving the contents of files. -/
def Command.action (read : String → Except FileError (List Char)) : Command → Action
  | help => .reply { stderr := usage }
  | build file output verbose align =>
    let start := Event.compiling file output
    match read file with
    | .error error => .reply (.unreadable (logged verbose [start]) file error)
    | .ok text =>
      match compileText align text with
      | (events, .error error) => .reply (.rejected (logged verbose (start :: events)) error)
      | (events, .ok assembly) => .write output assembly (logged verbose (start :: events))
  | check file verbose =>
    match read file with
    | .error error => .reply (.unreadable (logged verbose [.checking file]) file error)
    | .ok text => .reply (CommandLine.check file verbose text)
  | asm tree align =>
    match compileText align tree.toList with
    | (_, .error error) => .reply (.rejected "" error)
    | (_, .ok assembly) => .reply { stdout := assembly }

/-- The file that a command reads. -/
def Command.file? : Command → Option String
  | build file _ _ _ => some file
  | check file _ => some file
  | _ => none

/-- The reply after a file was written, or was not. -/
def Reply.written (name text log : String) : Except FileError Unit → Reply
  | .ok _ =>
    { stdout := "Generated " ++ name ++ " (" ++ toString text.utf8ByteSize ++ " bytes)\n", stderr := log }
  | .error error =>
    { exitCode := 1
      stderr := log ++ "Error writing assembly file " ++ name ++ ": " ++ error.message .writing name ++ "\n" }

/-- The reply to a command line that is not followed. -/
def Reply.refused (refusal : Refusal) : Reply :=
  { exitCode := refusal.exitCode, stderr := refusal.message }

/-- Follows a command line: the reply, and the files afterwards. -/
def run (arguments : List String) (files : FileTree) : Reply × FileTree :=
  match Command.parse arguments with
  | .error refusal => (.refused refusal, files)
  | .ok command =>
    match command.action (fun name => (files.read name).map Text.Utf8.decode) with
    | .reply reply => (reply, files)
    | .write name text log =>
      match files.write name text with
      | .ok files' => (.written name text log (.ok ()), files')
      | .error error => (.written name text log (.error error), files)

end Arvore.CommandLine
