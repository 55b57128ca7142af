import Arvore.CommandLine.Flag

/-!
# Commands

A command line names a command, its flags and one operand. Whatever else it says is answered by the usage of the
command or of the program.
-/

namespace Arvore.CommandLine

/-- What the program can be asked to do with a tree. -/
inductive Verb where
  | build
  | check
  | asm
  deriving DecidableEq, Repr

namespace Verb

/-- The flags of a command, sorted by name. -/
def flags : Verb → List Flag
  | build => [.align, .output, .verbose]
  | check => [.verbose]
  | asm => [.align]

/-- What a flag of a command does. -/
def explanation (v : Verb) : Flag → String
  | .align => "Round stack reservations up to 16 bytes"
  | .output => "Output file path (default: <filename>.s)"
  | .verbose =>
    match v with
    | check => "Show verbose checking details"
    | _ => "Show verbose compilation details"

/-- What the operand of a command is. -/
def operand : Verb → String
  | build => "file"
  | check => "file"
  | asm => "tree"

/-- The lines of the usage before the flags. -/
def summary : Verb → String
  | build => "Usage: porc build [-o output] [-v] [-align] <file>\nCompile a tree file to x86-64 assembly\n"
  | check => "Usage: porc check [-v] <file>\nBuild symbol tables and type-check a tree file\n"
  | asm => "Usage: porc asm [-align] <tree>\nCompile an inline tree and print the assembly\n"

/-- The usage of a command. -/
def usage (v : Verb) : String :=
  v.summary ++ "\nFlags:\n" ++ String.join (v.flags.map fun f => f.entry (v.explanation f))

end Verb

/-- The usage of the program. -/
def usage : String :=
  "porc - compiles Portuguese-keyword programs to x86-64 assembly\n" ++
  "\n" ++
  "Usage:\n" ++
  "    porc <command> [arguments]\n" ++
  "\n" ++
  "Commands:\n" ++
  "    build <file>    Compile a tree file to an assembly (.s) file\n" ++
  "    check <file>    Build symbol tables and type-check a tree file\n" ++
  "    asm <tree>      Compile an inline tree and print the assembly\n" ++
  "    help            Show this help message\n" ++
  "\n" ++
  "Examples:\n" ++
  "    porc build -o soma.s soma.tree\n" ++
  "    porc check soma.tree\n" ++
  "    porc asm '(program (func main [] [(print \"oi\")]))'\n" ++
  "\n" ++
  "Use \"porc <command> -h\" for more information about a command.\n"

/-- A name without its extension, which goes from the last dot behind the last slash to the end. -/
def withoutExtension (name : List Char) : List Char :=
  let reversed := name.reverse
  match reversed.dropWhile (fun c => c ≠ '.' ∧ c ≠ '/') with
  | '.' :: stem => stem.reverse
  | _ => name

/-- The file into which a tree file is compiled if none is named. -/
def defaultOutput (file : String) : String := String.ofList (withoutExtension file.toList ++ ".s".toList)

/-- What is to be done. -/
inductive Command where
  | help
  | build (file output : String) (verbose align : Bool)
  | check (file : String) (verbose : Bool)
  | asm (tree : String) (align : Bool)
  deriving DecidableEq, Repr

/-- The command that a verb makes of its flags and its operand. -/
def Verb.command (settings : Settings) (operand : String) : Verb → Command
  | build =>
    .build operand (if settings.output = "" then defaultOutput operand else settings.output)
      settings.verbose settings.align
  | check => .check operand settings.verbose
  | asm => .asm operand settings.align

/-- Why a command line is not followed. -/
inductive Refusal where
  | noCommand
  | unknownCommand (name : String)
  /-- the usage of a command was asked for -/
  | verbHelp (verb : Verb)
  | flags (verb : Verb) (error : FlagError)
  | operands (verb : Verb)
  deriving DecidableEq, Repr

/-- What a refusal says. -/
def Refusal.message : Refusal → String
  | noCommand => usage
  | unknownCommand name => "Unknown command: " ++ name ++ "\n\n" ++ usage
  | verbHelp verb => verb.usage
  | flags verb error => error.message ++ "\n" ++ verb.usage
  | operands verb => "Error: expected exactly one " ++ verb.operand ++ " argument\n" ++ verb.usage

/-- The exit code of a refusal. To ask for help is no mistake. -/
def Refusal.exitCode : Refusal → Nat
  | noCommand => 1
  | unknownCommand _ => 1
  | verbHelp _ => 0
  | flags _ _ => 2
  | operands _ => 1

/-- Reads the arguments of a verb. -/
def Verb.parse (v : Verb) (arguments : List String) : Except Refusal Command :=
  match Settings.read v.flags {} arguments with
  | .done settings [operand] => .ok (v.command settings operand)
  | .done _ _ => .error (.operands v)
  | .help => .error (.verbHelp v)
  | .failed error => .error (.flags v error)

/-- Reads a command line. -/
def Command.parse : List String → Except Refusal Command
  | [] => .error .noCommand
  | name :: arguments =>
    if name = "build" then Verb.build.parse arguments
    else if name = "check" then Verb.check.parse arguments
    else if name = "asm" then Verb.asm.parse arguments
    else if name ∈ ["help", "-h", "--help"] then .ok .help
    else .error (.unknownCommand name)

end Arvore.CommandLine
