import Arvore.Numeral.Basic
import Arvore.Program.Basic
import Arvore.Symbol.Table

/-!
# Types of expressions

The type of an expression in a scope. Variables are looked up in the table of the function, functions in that of the
program; the two never mix. The first thing that is wrong, from left to right and from the inside out, is reported.
-/

namespace Arvore

/-- What an expression can refer to: the variables of a function and the functions of the program. -/
structure Scope where
  locals : SymbolTable
  globals : SymbolTable

namespace Scope

/-- The variable that a name stands for. -/
def findVariable (s : Scope) (x : Ident) : Except Failure Symbol :=
  (s.locals.lookup x.name).mapError fun d => .diagnostic (d.atLine x.line)

/-- The function that a name stands for. -/
def findFunction (s : Scope) (x : Ident) : Except Failure Symbol :=
  (s.globals.lookup x.name).mapError fun d => .diagnostic (d.atLine x.line)

end Scope

/-- Ends a pass with a diagnostic. -/
def reject {α : Type} (line : Int) (cause : Diagnostic.Cause) : Except Failure α := .error (.diagnostic ⟨line, cause⟩)

/-- The class of a number literal. -/
def Numeral.type (text : String) : Ty := if isIntegral text then .integer else .real

/-- The type of an arithmetic expression: real as soon as one of two numbers is. -/
def ArithmeticOp.typeOf (line : Int) (op : ArithmeticOp) (left right : Ty) : Except Failure Ty :=
  if left.isNumeric && right.isNumeric then
    .ok (if left = .real || right = .real then .real else .integer)
  else reject line (.arithmetic op.symbol left right)

/-- The type of a conjunction or disjunction. -/
def LogicalOp.typeOf (line : Int) (op : LogicalOp) (left right : Ty) : Except Failure Ty :=
  if left = .logical && right = .logical then .ok .logical else reject line (.logical op.symbol left right)

/-- The type of a negated expression. -/
def UnaryOp.typeOf (line : Int) (op : UnaryOp) (operand : Ty) : Except Failure Ty :=
  match op with
  | .neg => if operand.isNumeric then .ok operand else reject line (.negation operand)
  | .not => if operand = .logical then .ok operand else reject line (.complement operand)
  | .other _ => .ok operand

/-- Compares the types of arguments with those of the parameters, counting from the given position. -/
def Signature.checkArguments (line : Int) (function : String) (position : Nat) :
    (params args : List Ty) → Except Failure Unit
  | p :: params, a :: args =>
    if a = p then checkArguments line function (position + 1) params args
    else reject line (.argument position function p a)
  | _, _ => .ok ()

/-- The type of a call with arguments of the given types. -/
def Symbol.typeOfCall (s : Symbol) (line : Int) (args : List Ty) : Except Failure Ty :=
  let signature := s.signature.getD ⟨[], .other ""⟩
  if args.length = signature.params.length then do
    Signature.checkArguments line s.name 1 signature.params args
    return signature.result
  else reject line (.argumentCount s.name signature.params.length args.length)

namespace Expr

mutual

/-- The type of an expression. -/
def typeOf (scope : Scope) : Expr → Except Failure Ty
  | number _ text => .ok (Numeral.type text)
  | string _ _ => .ok .character
  | boolean _ _ => .ok .logical
  | var l name => do return (← scope.findVariable ⟨l, name⟩).type
  | arithmetic l op a b => do
    let left ← typeOf scope a
    let right ← typeOf scope b
    op.typeOf l left right
  | logical l op a b => do
    let left ← typeOf scope a
    let right ← typeOf scope b
    op.typeOf l left right
  | relational _ _ a b => do
    let _ ← typeOf scope a
    let _ ← typeOf scope b
    return .logical
  | unary l op e => do
    let operand ← typeOf scope e
    op.typeOf l operand
  | call l callee args => do
    let function ← scope.findFunction callee
    let given ← typesOf scope args
    function.typeOfCall l given
  | foreign _ kind => .error (.fault (.untyped kind))
  | absent => .error (.fault .missingPart)

/-- The types of several expressions. -/
def typesOf (scope : Scope) : List Expr → Except Failure (List Ty)
  | [] => .ok []
  | e :: rest => do return (← typeOf scope e) :: (← typesOf scope rest)

end

end Expr

end Arvore
