import Arvore.Text.Quoted

/-!
# Flags

Flags stand before the other arguments of a command. A flag is written with one dash or two. A switch is turned on by
its name and takes a value only behind an equals sign; every other flag takes its value from there or from the next
argument. A flag given twice keeps its last value.
-/

namespace Arvore.CommandLine

/-- The flags of all commands. -/
inductive Flag where
  | align
  | output
  | verbose
  deriving DecidableEq, Repr

/-- The name of a flag. -/
def Flag.name : Flag → String
  | align => "align"
  | output => "o"
  | verbose => "v"

/-- What flags set. -/
structure Settings where
  output : String := ""
  verbose : Bool := false
  align : Bool := false
  deriving DecidableEq, Repr

/-- How a flag takes its value. -/
inductive Flag.Setter where
  | switch (set : Settings → Bool → Settings)
  | text (set : Settings → String → Settings)

/-- What a flag sets. -/
def Flag.setter : Flag → Flag.Setter
  | align => .switch fun settings value => { settings with align := value }
  | output => .text fun settings value => { settings with output := value }
  | verbose => .switch fun settings value => { settings with verbose := value }

/-- How the list of flags shows a flag: the explanation follows a switch of one letter on its line, and stands on a
line of its own otherwise. -/
def Flag.entry (explanation : String) (f : Flag) : String :=
  "  -" ++ f.name ++
    (match f.setter with
    | .switch _ => if f.name.length = 1 then "\t" else "\n    \t"
    | .text _ => " string\n    \t") ++ explanation ++ "\n"

/-- Why flags cannot be read. -/
inductive FlagError where
  | malformed (argument : String)
  | undefined (name : String)
  | needsArgument (name : String)
  | notBoolean (name value : String)
  deriving DecidableEq, Repr

/-- The message of an error. -/
def FlagError.message : FlagError → String
  | malformed argument => "bad flag syntax: " ++ argument
  | undefined name => "flag provided but not defined: -" ++ name
  | needsArgument name => "flag needs an argument: -" ++ name
  | notBoolean name value => "invalid boolean value " ++ Text.quoted value ++ " for -" ++ name ++ ": parse error"

/-- What an argument is as long as flags may come. -/
inductive Argument where
  /-- not a flag -/
  | operand
  /-- two dashes, after which no flags come -/
  | separator
  | malformed
  | flag (name : String) (value : Option String)
  deriving DecidableEq, Repr

/-- A flag without its dashes. -/
def Argument.ofFlag : List Char → Argument
  | [] => malformed
  | c :: rest =>
    if c = '-' ∨ c = '=' then malformed
    else
      flag (String.ofList (c :: rest.takeWhile (· ≠ '=')))
        ((rest.dropWhile (· ≠ '=')).tail?.map String.ofList)

/-- Classifies an argument. A dash alone is not a flag. -/
def Argument.of (argument : String) : Argument :=
  match argument.toList with
  | ['-', '-'] => separator
  | '-' :: '-' :: rest => .ofFlag rest
  | '-' :: c :: rest => .ofFlag (c :: rest)
  | _ => operand

/-- The truth values that may be written. -/
def boolean? (text : String) : Option Bool :=
  if text ∈ ["1", "t", "T", "TRUE", "true", "True"] then some true
  else if text ∈ ["0", "f", "F", "FALSE", "false", "False"] then some false
  else none

/-- What flags amount to. -/
inductive Settings.Reading where
  | done (settings : Settings) (operands : List String)
  /-- the usage was asked for -/
  | help
  | failed (error : FlagError)
  deriving DecidableEq, Repr

/-- Reads the flags in front of a list of arguments. -/
def Settings.read (flags : List Flag) (settings : Settings) : List String → Settings.Reading
  | [] => .done settings []
  | argument :: rest =>
    match Argument.of argument with
    | .operand => .done settings (argument :: rest)
    | .separator => .done settings rest
    | .malformed => .failed (.malformed argument)
    | .flag name value =>
      match flags.find? (·.name = name) with
      | none => if name = "help" ∨ name = "h" then .help else .failed (.undefined name)
      | some f =>
        match f.setter, value with
        | .switch set, none => Settings.read flags (set settings true) rest
        | .switch set, some value =>
          match boolean? value with
          | some value => Settings.read flags (set settings value) rest
          | none => .failed (.notBoolean name value)
        | .text set, some value => Settings.read flags (set settings value) rest
        | .text set, none =>
          match rest with
          | [] => .failed (.needsArgument name)
          | value :: rest => Settings.read flags (set settings value) rest

end Arvore.CommandLine
