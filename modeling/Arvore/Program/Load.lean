import Arvore.Datum.Printer
import Arvore.Numeral.Basic
import Arvore.Numeral.Real
import Arvore.Program.Basic
import Arvore.Program.LoadError
import Arvore.Text.NormalForm

/-!
# Loading programs

A program is written as a datum: `(program (func NAME TYPE [PARAM...] [STATEMENT...])...)`. Loading checks every
shape, so that what it accepts is a program without foreign parts. A list takes its line from its metadata, or
else from the list around it; the outermost list stands on line one. Names are compared by their composed normal
form.
-/

namespace Arvore

namespace Load

/-- A shape error at a datum. -/
def wrong {α : Type} (d : Datum) (found : String → LoadError.Shape) : Except LoadError α :=
  .error (.shape d.line (found d.render))

/-- The error of a form with too few or too many operands. -/
def wrongCount {α : Type} (start : Nat) (head : String) (least most given : Nat) : Except LoadError α :=
  .error (.shape start (.operands head least most given))

/-- The line of a list: the number in its metadata, or the inherited one. -/
def lineOf (start : Nat) (metadata : List (String × Datum)) (inherited : Int) : Except LoadError Int :=
  match metadata.lookup "line" with
  | none => .ok inherited
  | some (.number _ text) =>
    match Numeral.integer? text with
    | some line => if 1 ≤ line then .ok line else .error (.shape start (.invalidLine text))
    | none => .error (.shape start (.invalidLine text))
  | some d => .error (.shape start (.lineNotNumber d.render))

/-- A name in its normal form. -/
def name (role : LoadError.NameRole) : Datum → Except LoadError String
  | .symbol _ text => .ok (Text.nfc text)
  | d => wrong d (.notName role)

/-- The name of a variable. The two truth values are no names. -/
def ident (line : Int) (d : Datum) : Except LoadError Ident := do
  let found ← name .variable d
  if isTruthWord found then .error (.shape d.line (.literalName found)) else return ⟨line, found⟩

/-- A type that one of the given types may stand for. -/
def type (allowed : Ty → Bool) : Datum → Except LoadError Ty
  | .symbol line text =>
    if allowed (.ofWord text) then .ok (.ofWord text) else .error (.shape line (.unknownType text))
  | d => wrong d .notType

/-- One of the given operators. -/
def operator {α : Type} (known : List α) (symbol : α → String) : Datum → Except LoadError α
  | .string line text =>
    match known.find? (symbol · = text) with
    | some op => .ok op
    | none => .error (.shape line (.unsupportedOperator text (known.map symbol)))
  | d => wrong d .operatorNotString

/-- Accepts a number that has a representation: 64 bits for an integral literal, double precision for a real. -/
def checkNumber (line : Nat) (text : String) : Except LoadError Unit :=
  if !Numeral.isLiteral text then .error (.shape line (.malformedNumber text))
  else if Numeral.isIntegral text then
    match Numeral.integer? text with
    | some _ => .ok ()
    | none => .error (.shape line (.integerOutOfRange text))
  else
    match Real.read text.toList with
    | .ok _ => .ok ()
    | .error _ => .error (.shape line (.realOutOfRange text))

/-- A symbol in the place of an expression: a truth value or a variable. -/
def word (line : Int) (text : String) : Expr :=
  let found := Text.nfc text
  if isTruthWord found then .boolean line found else .var line found

mutual

/-- An expression, on the given line unless it has one of its own. -/
def expr (inherited : Int) : Datum → Except LoadError Expr
  | .symbol _ text => .ok (word inherited text)
  | .string _ text => .ok (.string inherited text)
  | .number line text => do
    checkNumber line text
    return .number inherited text
  | .list start metadata items => do
    let line ← lineOf start metadata inherited
    match items with
    | .symbol _ "binary" :: [op, left, right] => do
      let op ← operator ArithmeticOp.known ArithmeticOp.symbol op
      return .arithmetic line op (← expr line left) (← expr line right)
    | .symbol _ "logical" :: [op, left, right] => do
      let op ← operator LogicalOp.known LogicalOp.symbol op
      return .logical line op (← expr line left) (← expr line right)
    | .symbol _ "relational" :: [op, left, right] => do
      let op ← operator RelationalOp.known RelationalOp.symbol op
      return .relational line op (← expr line left) (← expr line right)
    | .symbol _ "unary" :: [op, operand] => do
      let op ← operator UnaryOp.known UnaryOp.symbol op
      return .unary line op (← expr line operand)
    | .symbol _ "call" :: operands => do
      let (callee, args) ← call start line operands
      return .call line callee args
    | .symbol _ "binary" :: operands => wrongCount start "binary" 3 3 operands.length
    | .symbol _ "logical" :: operands => wrongCount start "logical" 3 3 operands.length
    | .symbol _ "relational" :: operands => wrongCount start "relational" 3 3 operands.length
    | .symbol _ "unary" :: operands => wrongCount start "unary" 2 2 operands.length
    | _ => wrong (.list start metadata items) .notExpression
  | d => wrong d .notExpression

/-- Several expressions. -/
def exprs (inherited : Int) : List Datum → Except LoadError (List Expr)
  | [] => .ok []
  | d :: rest => do return (← expr inherited d) :: (← exprs inherited rest)

/-- The operands of a call: the name of a function, then perhaps an array of arguments. -/
def call (start : Nat) (line : Int) : List Datum → Except LoadError (Ident × List Expr)
  | [callee] => do return (⟨line, ← name .function callee⟩, [])
  | [callee, .array _ args] => do
    let callee ← name .function callee
    return (⟨line, callee⟩, ← exprs line args)
  | [callee, d] => do
    let _ ← name .function callee
    wrong d .notArgumentList
  | operands => wrongCount start "call" 1 2 operands.length

end

/-- One item of a declaration: a name, or a name with an initial value. -/
def declItem (inherited : Int) : Datum → Except LoadError DeclItem
  | .symbol start text => do return ⟨← ident inherited (.symbol start text), none⟩
  | .list start metadata (.symbol _ "init" :: [target, value]) => do
    let line ← lineOf start metadata inherited
    let target ← ident line target
    return ⟨target, some (← expr line value)⟩
  | .list start _ (.symbol _ "init" :: operands) => wrongCount start "init" 2 2 operands.length
  | d => wrong d .notDeclarationItem

/-- The items of a declaration. They are checked from the last to the first. -/
def declItems (line : Int) : List Datum → Except LoadError (List DeclItem)
  | [] => .ok []
  | d :: rest => do
    let later ← declItems line rest
    return (← declItem line d) :: later

/-- A declaration from its operands: a type and at least one item. -/
def declaration (start : Nat) (line : Int) : List Datum → Except LoadError Stmt
  | t :: d :: rest => do
    let t ← type Ty.isVariable t
    return .declare line t (← declItems line (d :: rest))
  | _ => .error (.shape start .emptyDeclaration)

mutual

/-- A statement, on the given line unless it has one of its own. -/
def stmt (inherited : Int) : Datum → Except LoadError Stmt
  | .list start metadata items => do
    let line ← lineOf start metadata inherited
    match items with
    | .symbol _ "decl" :: operands => declaration start line operands
    | .symbol _ "assign" :: [target, value] => do
      let target ← ident line target
      return .assign line target (← expr line value)
    | .symbol _ "increment" :: [op, target] => do
      let op ← operator StepOp.known StepOp.symbol op
      return .increment line op (← ident line target)
    | .symbol _ "call" :: operands => do
      let (callee, args) ← call start line operands
      return .call line callee args
    | .symbol _ "if" :: [cond, body] => do
      let cond ← expr line cond
      return .ifThen line cond (← block line body)
    | .symbol _ "if" :: [cond, body, other] => do
      let cond ← expr line cond
      let body ← block line body
      return .ifElse line cond body (← block line other)
    | .symbol _ "while" :: [cond, body] => do
      let cond ← expr line cond
      return .whileDo line cond (← block line body)
    | .symbol _ "for" :: [init, cond, step, body] => do
      let init ← stmt line init
      let cond ← expr line cond
      let step ← stmt line step
      return .forDo line init cond step (← block line body)
    | .symbol _ "read" :: [target] => do return .read line (← ident line target)
    | .symbol _ "print" :: [value] => do return .print line (← expr line value)
    | .symbol _ "return" :: [] => return .ret line none
    | .symbol _ "return" :: [value] => do return .ret line (some (← expr line value))
    | .symbol _ "assign" :: operands => wrongCount start "assign" 2 2 operands.length
    | .symbol _ "increment" :: operands => wrongCount start "increment" 2 2 operands.length
    | .symbol _ "if" :: operands => wrongCount start "if" 2 3 operands.length
    | .symbol _ "while" :: operands => wrongCount start "while" 2 2 operands.length
    | .symbol _ "for" :: operands => wrongCount start "for" 4 4 operands.length
    | .symbol _ "read" :: operands => wrongCount start "read" 1 1 operands.length
    | .symbol _ "print" :: operands => wrongCount start "print" 1 1 operands.length
    | .symbol _ "return" :: operands => wrongCount start "return" 0 1 operands.length
    | _ => wrong (.list start metadata items) .unknownStatement
  | d => wrong d .notStatement

/-- Several statements. -/
def stmts (inherited : Int) : List Datum → Except LoadError (List Stmt)
  | [] => .ok []
  | d :: rest => do return (← stmt inherited d) :: (← stmts inherited rest)

/-- A block: an array of statements. -/
def block (inherited : Int) : Datum → Except LoadError (List Stmt)
  | .array _ items => stmts inherited items
  | d => wrong d .notBlock

end

/-- A parameter. -/
def param (inherited : Int) : Datum → Except LoadError Param
  | .list start metadata (.symbol _ "param" :: [t, target]) => do
    let line ← lineOf start metadata inherited
    let t ← type Ty.isVariable t
    return ⟨line, t, ← ident line target⟩
  | .list start _ (.symbol _ "param" :: operands) => wrongCount start "param" 2 2 operands.length
  | d => wrong d .notParameter

/-- The parameters of a function: an array. -/
def params (inherited : Int) : Datum → Except LoadError (List Param)
  | .array _ items => items.mapM (param inherited)
  | d => wrong d .notParameterList

/-- The types that a function may have. -/
def isResult (t : Ty) : Bool := t.isVariable || t = .void

/-- A function. Its type may be left out, and is then that of a function without a result. -/
def function (inherited : Int) : Datum → Except LoadError Function
  | .list start metadata (.symbol _ "func" :: [called, ps, body]) => do
    let line ← lineOf start metadata inherited
    let called ← name .function called
    let ps ← params line ps
    return { line, name := called, result := .void, params := ps, body := ← block line body }
  | .list start metadata (.symbol _ "func" :: [called, t, ps, body]) => do
    let line ← lineOf start metadata inherited
    let called ← name .function called
    let t ← type isResult t
    let ps ← params line ps
    return { line, name := called, result := t, params := ps, body := ← block line body }
  | .list start _ (.symbol _ "func" :: operands) => wrongCount start "func" 3 4 operands.length
  | d => wrong d .notFunction

/-- A program. -/
def program : Datum → Except LoadError Program
  | .list start metadata (.symbol _ "program" :: functions) => do
    let line ← lineOf start metadata 1
    return ⟨line, ← functions.mapM (function line)⟩
  | d => .error (.shape d.line .notProgram)

end Load

/-- Reads the program that a text holds. -/
def Program.load (text : List Char) : Except LoadError Program :=
  match Datum.parse text with
  | .error error => .error (.unreadable error)
  | .ok d => Load.program d

end Arvore
