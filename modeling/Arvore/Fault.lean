import Arvore.Diagnostic
import Arvore.Numeral.Real
import Arvore.Text.Quoted
import Arvore.Tree.Kind

/-!
# Faults

A fault is a request that makes no sense for the tree it is made on: the operator of a node without one, code for a
node that is no statement, storage for a type without a size. A diagnostic blames the program, a fault the caller.
-/

namespace Arvore

/-- Why a request cannot be answered. -/
inductive Fault where
  /-- a variable of a type that takes no room -/
  | noStorage (type : Ty)
  | noOperator (node : String)
  | noValue (node : String)
  /-- a node of a kind that has no text -/
  | unwritable (kind : Kind)
  /-- checking a node that is no statement -/
  | uncheckable (kind : Kind)
  /-- the type of a node that is no expression -/
  | untyped (kind : Kind)
  /-- code for a node that is no statement -/
  | notStatement (kind : Kind)
  /-- code for a node that is no expression -/
  | notExpression (kind : Kind)
  | unsupportedOperator (family symbol : String)
  /-- a name without a slot, met in code generation -/
  | unknownVariable (function : String) (found : Diagnostic)
  /-- an expression without a type, met in code generation -/
  | unanalyzed (line : Int) (found : Diagnostic)
  | badReal (text : String) (error : Real.Error)
  | badInteger (text : String)
  /-- a literal of a category that data cannot be written for -/
  | noDirective (label : String)
  /-- a node with fewer parts than its kind asks for -/
  | missingPart
  deriving DecidableEq, Repr

/-- The message of a fault. -/
def Fault.message : Fault → String
  | noStorage type => "type " ++ Text.quoted type.word ++ " has no storage size"
  | noOperator node => "node " ++ node ++ " has no operator"
  | noValue node => "node " ++ node ++ " has no value expression"
  | unwritable kind => "ToSExpr: unhandled node kind " ++ kind.name
  | uncheckable kind => "checkStatement: unhandled node kind " ++ kind.name
  | untyped kind => "typeOf: unhandled node kind " ++ kind.name
  | notStatement kind => "EmitStatement: unhandled node kind " ++ kind.name
  | notExpression kind => "EmitExpression: unhandled node kind " ++ kind.name
  | unsupportedOperator family symbol => "Unsupported " ++ family ++ " operator: " ++ symbol
  | unknownVariable function found => "function " ++ function ++ ": " ++ found.message
  | unanalyzed line found => "expression at line " ++ toString line ++ " was not analyzed: " ++ found.message
  | badReal text error =>
    "real literal " ++ Text.quoted text ++ ": strconv.ParseFloat: parsing " ++ Text.quoted text ++ ": " ++ error.text
  | badInteger text => "integer literal " ++ Text.quoted text ++ " out of range"
  | noDirective label => "literal " ++ label ++ " has no data directive"
  | missingPart => "a node has too few parts"

/-- Why a pass over a program ends early. -/
inductive Failure where
  | diagnostic (found : Diagnostic)
  | fault (fault : Fault)
  deriving DecidableEq, Repr

end Arvore
