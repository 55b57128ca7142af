import Arvore.Analysis.Check
import Arvore.Analysis.Tables
import Arvore.Assembly.Printer
import Arvore.Code.Function
import Arvore.Program.Load

/-!
# Compilation

A program is analyzed function by function, and only if all of it is accepted is its code generated. Progress is
reported as events; what was reported before a failure stays reported.
-/

namespace Arvore

/-- What happened on the way. -/
inductive Event where
  | compiling (input output : String)
  | checking (input : String)
  | defined (functions : Nat)
  | checked (function : String) (locals : Nat) (frame : Int)
  | interned (literals : Nat)
  deriving DecidableEq, Repr

/-- The wording of an event. -/
def Event.text : Event → String
  | compiling input output => "Compiling " ++ input ++ " to " ++ output ++ "..."
  | checking input => "Checking " ++ input ++ "..."
  | defined functions => "Defined " ++ toString functions ++ " function(s)"
  | checked function locals frame =>
    "Checked " ++ function ++ ": " ++ toString locals ++ " local(s), " ++ toString frame ++ " byte frame"
  | interned literals => "Interned " ++ toString literals ++ " literal(s)"

/-- The text of a log, one event on a line. -/
def Event.log (events : List Event) : String := String.join (events.map fun event => event.text ++ "\n")

/-- A function that was accepted, with the layout of its frame. -/
structure CheckedFunction where
  function : Function
  locals : SymbolTable

/-- A program that was accepted, with its tables. -/
structure Compilation where
  program : Program
  globals : SymbolTable
  functions : List CheckedFunction

/-- Lays out the frame of a function, then checks its body. -/
def Function.analyze (globals : SymbolTable) (f : Function) : Except Failure CheckedFunction := do
  let locals ← f.locals globals
  Stmt.checkAll (f.place ⟨locals, globals⟩) f.body
  return ⟨f, locals⟩

/-- The event of an accepted function. -/
def CheckedFunction.event (c : CheckedFunction) : Event :=
  .checked c.function.name c.locals.size c.locals.frameSize

/-- Analyzes functions in order, up to the first that fails. -/
def Function.analyzeAll (globals : SymbolTable) :
    List Function → List Event × Except Failure (List CheckedFunction)
  | [] => ([], .ok [])
  | f :: rest =>
    match f.analyze globals with
    | .error failure => ([], .error failure)
    | .ok checked =>
      let (events, others) := analyzeAll globals rest
      (checked.event :: events, others.map (checked :: ·))

/-- Analyzes a program. -/
def Program.analyze (p : Program) : List Event × Except Failure Compilation :=
  match p.globals with
  | .error failure => ([], .error failure)
  | .ok globals =>
    let (events, functions) := Function.analyzeAll globals p.functions
    (.defined globals.size :: events, functions.map (⟨p, globals, ·⟩))

namespace Compilation

open Assembly

/-- The code of functions, each on its own. -/
def codes (align : Bool) (globals : SymbolTable) : List CheckedFunction → Gen (List Listing)
  | [] => return []
  | c :: rest => do
    let first ← c.function.code align ⟨c.locals, globals⟩
    return first :: (← codes align globals rest)

/-- The listing of an accepted program, and the literals in it. A blank line stands between two functions and before
the data. -/
def generate (align : Bool) (c : Compilation) : Except Fault (Listing × List Literal) := do
  let (functions, pool) ← (codes align c.globals c.functions).run {}
  let data ← pool.dataCode
  return (.textSection :: [Line.blank].intercalate functions ++ .blank :: data, pool.literals)

end Compilation

/-- Compiles a program to the text of its assembly. -/
def Program.compile (align : Bool) (p : Program) : List Event × Except Failure String :=
  match p.analyze with
  | (events, .error failure) => (events, .error failure)
  | (events, .ok c) =>
    match c.generate align with
    | .error fault => (events, .error (.fault fault))
    | .ok (listing, literals) => (events ++ [.interned literals.length], .ok (Assembly.Listing.render listing))

/-- Why a text cannot be compiled. -/
inductive CompileError where
  | load (error : LoadError)
  | failure (failure : Failure)
  deriving DecidableEq, Repr

/-- The message of a failed compilation. -/
def CompileError.message : CompileError → String
  | load error => error.message
  | failure (.diagnostic found) => found.message
  | failure (.fault fault) => fault.message

/-- Compiles the program that a text holds. -/
def compileText (align : Bool) (text : List Char) : List Event × Except CompileError String :=
  match Program.load text with
  | .error error => ([], .error (.load error))
  | .ok p =>
    let (events, result) := p.compile align
    (events, result.mapError .failure)

end Arvore
