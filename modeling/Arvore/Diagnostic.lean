import Arvore.Ty

/-!
# Diagnostics

What can be wrong with a program that is well formed as a tree. A diagnostic is a cause with the line it points at;
its kind and its wording follow from the cause.
-/

namespace Arvore

/-- The statements that ask for a condition. -/
inductive Conditional where
  | branch
  | whileLoop
  | forLoop
  deriving DecidableEq, Repr

/-- The keyword of a conditional statement. -/
def Conditional.word : Conditional → String
  | branch => "se"
  | whileLoop => "enquanto"
  | forLoop => "para"

namespace Diagnostic

/-- The kinds of diagnostics. -/
inductive Kind where
  | symbolNotFound
  | redeclaration
  | typeMismatch
  | invalidForLoop
  | paramCount
  deriving DecidableEq, Repr

/-- The name of a kind. -/
def Kind.name : Kind → String
  | symbolNotFound => "SymbolNotFound"
  | redeclaration => "RedeclarationError"
  | typeMismatch => "TypeMismatchError"
  | invalidForLoop => "InvalidForLoopError"
  | paramCount => "ParamCountError"

/-- What is wrong. -/
inductive Cause where
  | notFound (name : String)
  | redeclared (name : String) (previous : Int)
  | initializer (name : String) (declared given : Ty)
  | assignment (name : String) (declared given : Ty)
  | increment (given : Ty)
  | condition (statement : Conditional) (given : Ty)
  | loopStart
  | loopStep
  | missingResult (function : String) (declared : Ty)
  | result (function : String) (declared given : Ty)
  | arithmetic (op : String) (left right : Ty)
  | logical (op : String) (left right : Ty)
  | negation (given : Ty)
  | complement (given : Ty)
  | argumentCount (function : String) (expected given : Nat)
  | argument (position : Nat) (function : String) (expected given : Ty)
  deriving DecidableEq, Repr

/-- The kind that a cause belongs to. -/
def Cause.kind : Cause → Kind
  | notFound _ => .symbolNotFound
  | redeclared _ _ => .redeclaration
  | initializer .. | assignment .. | increment .. | condition .. | missingResult .. | result .. | arithmetic ..
  | logical .. | negation .. | complement .. | argument .. => .typeMismatch
  | loopStart | loopStep => .invalidForLoop
  | argumentCount .. => .paramCount

/-- A word between single quotes. -/
private def ticked (word : String) : String := "'" ++ word ++ "'"

/-- The wording of a cause. -/
def Cause.text : Cause → String
  | notFound name => "Symbol " ++ ticked name ++ " not found"
  | redeclared name previous => "Symbol " ++ ticked name ++ " already declared at line " ++ toString previous
  | initializer name declared given =>
    "Symbol [" ++ name ++ "] declared as " ++ ticked declared.word ++ " but initialized with " ++ ticked given.word
  | assignment name declared given =>
    "Symbol [" ++ name ++ "] expected type " ++ ticked declared.word ++ " but got type " ++ ticked given.word ++
      " instead"
  | increment given =>
    "Increment operation only allowed on " ++ ticked Ty.integer.word ++ " type, but got " ++ ticked given.word ++
      " instead"
  | condition statement given =>
    "Condition of " ++ ticked statement.word ++ " must be of type " ++ ticked Ty.logical.word ++ ", but got " ++
      ticked given.word ++ " instead"
  | loopStart => "Invalid initialization expression in [para] loop"
  | loopStep => "Invalid step expression in [para] loop"
  | missingResult function declared =>
    "Function " ++ ticked function ++ " must return a value of type " ++ ticked declared.word
  | result function declared given =>
    "Function " ++ ticked function ++ " returns " ++ ticked declared.word ++ " but got " ++ ticked given.word ++
      " instead"
  | arithmetic op left right =>
    "Operator " ++ ticked op ++ " requires numeric operands, but got " ++ ticked left.word ++ " and " ++
      ticked right.word
  | logical op left right =>
    "Operator " ++ ticked op ++ " requires " ++ ticked Ty.logical.word ++ " operands, but got " ++
      ticked left.word ++ " and " ++ ticked right.word
  | negation given => "Operator '-' requires a numeric operand, but got " ++ ticked given.word
  | complement given =>
    "Operator '!' requires a " ++ ticked Ty.logical.word ++ " operand, but got " ++ ticked given.word
  | argumentCount function expected given =>
    "Function " ++ ticked function ++ " expects " ++ toString expected ++ " argument(s), but got " ++ toString given
  | argument position function expected given =>
    "Argument " ++ toString position ++ " of " ++ ticked function ++ " expected type " ++ ticked expected.word ++
      " but got type " ++ ticked given.word ++ " instead"

end Diagnostic

/-- A cause and the line it points at. A look-up in a table does not know its line; it points at line zero. -/
structure Diagnostic where
  line : Int
  cause : Diagnostic.Cause
  deriving DecidableEq, Repr

namespace Diagnostic

/-- The kind of a diagnostic. -/
def kind (d : Diagnostic) : Kind := d.cause.kind

/-- The wording without the line and the kind. -/
def text (d : Diagnostic) : String := d.cause.text

/-- The full message. -/
def message (d : Diagnostic) : String := "[Line " ++ toString d.line ++ "]: " ++ d.kind.name ++ ": " ++ d.text

/-- The line of the first declaration if a name was declared again, else zero. -/
def previousLine (d : Diagnostic) : Int :=
  match d.cause with
  | .redeclared _ previous => previous
  | _ => 0

/-- Gives a line to a diagnostic that has none. -/
def atLine (line : Int) (d : Diagnostic) : Diagnostic := if d.line = 0 then { d with line } else d

end Diagnostic

end Arvore
