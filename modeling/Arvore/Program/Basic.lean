import Arvore.Operator
import Arvore.Tree.Kind
import Arvore.Ty

/-!
# Programs

A program is a list of functions; a function has parameters and a body of statements. Every part that a diagnostic
can point at carries its line. A node where an expression or a statement should be, but which is neither, is
foreign: it keeps its kind and nothing else, and every pass refuses it. A part can also be missing altogether. That
is no error until a pass asks for the part, so a program with gaps can still be read, and refused for other reasons.
-/

namespace Arvore

/-- A name where it is used. -/
structure Ident where
  line : Int
  name : String
  deriving DecidableEq, Repr, Inhabited

/-- An expression. The texts of literals are kept as written. -/
inductive Expr where
  | number (line : Int) (text : String)
  | string (line : Int) (text : String)
  | boolean (line : Int) (word : String)
  | var (line : Int) (name : String)
  | arithmetic (line : Int) (op : ArithmeticOp) (left right : Expr)
  | logical (line : Int) (op : LogicalOp) (left right : Expr)
  | relational (line : Int) (op : RelationalOp) (left right : Expr)
  | unary (line : Int) (op : UnaryOp) (operand : Expr)
  | call (line : Int) (callee : Ident) (args : List Expr)
  | foreign (line : Int) (kind : Kind)
  /-- a part that is not there, or that lacks parts of its own -/
  | absent
  deriving Inhabited

namespace Expr

/-- The line of an expression. -/
def line : Expr → Int
  | number l _ | string l _ | boolean l _ | var l _ | arithmetic l _ _ _ | logical l _ _ _ | relational l _ _ _
  | unary l _ _ | call l _ _ | foreign l _ => l
  | absent => 0

end Expr

/-- One name of a declaration, with its initial value if it has one. -/
structure DeclItem where
  target : Ident
  init : Option Expr

/-- A statement. Blocks are lists of statements. -/
inductive Stmt where
  | declare (line : Int) (type : Ty) (items : List DeclItem)
  | assign (line : Int) (target : Ident) (value : Expr)
  | increment (line : Int) (op : StepOp) (target : Ident)
  | call (line : Int) (callee : Ident) (args : List Expr)
  | ifThen (line : Int) (cond : Expr) (body : List Stmt)
  | ifElse (line : Int) (cond : Expr) (body other : List Stmt)
  | whileDo (line : Int) (cond : Expr) (body : List Stmt)
  | forDo (line : Int) (init : Stmt) (cond : Expr) (step : Stmt) (body : List Stmt)
  | read (line : Int) (target : Ident)
  | print (line : Int) (value : Expr)
  | ret (line : Int) (value : Option Expr)
  | foreign (line : Int) (kind : Kind)
  /-- a statement of the given kind that lacks parts -/
  | incomplete (line : Int) (kind : Kind)

namespace Stmt

/-- The line of a statement. -/
def line : Stmt → Int
  | declare l _ _ | assign l _ _ | increment l _ _ | call l _ _ | ifThen l _ _ | ifElse l _ _ _ | whileDo l _ _
  | forDo l _ _ _ _ | read l _ | print l _ | ret l _ | foreign l _ | incomplete l _ => l

/-- The kind of node that a statement is. -/
def kind : Stmt → Kind
  | declare .. => .declaration
  | assign .. => .assignment
  | increment .. => .increment
  | call .. => .call
  | ifThen .. | ifElse .. => .branch
  | whileDo .. => .whileLoop
  | forDo .. => .forLoop
  | read .. => .read
  | print .. => .print
  | ret .. => .result
  | foreign _ kind | incomplete _ kind => kind

mutual

/-- A statement and all statements in its blocks, in the order of the text. The first and the last part of a for
loop's head are no statements of a block. -/
def nested : Stmt → List Stmt
  | ifThen l c body => ifThen l c body :: nestedAll body
  | ifElse l c body other => ifElse l c body other :: nestedAll body ++ nestedAll other
  | whileDo l c body => whileDo l c body :: nestedAll body
  | forDo l i c s body => forDo l i c s body :: nestedAll body
  | s => [s]

/-- All statements of a block at any depth. -/
def nestedAll : List Stmt → List Stmt
  | [] => []
  | s :: rest => nested s ++ nestedAll rest

end

/-- The expression that decides or carries a statement: the value, the condition or the call itself. -/
def expr? : Stmt → Option Expr
  | assign _ _ e | print _ e => some e
  | ret _ e => e
  | ifThen _ c _ | ifElse _ c _ _ | whileDo _ c _ | forDo _ _ c _ _ => some c
  | call l callee args => some (.call l callee args)
  | declare .. | increment .. | read .. | foreign .. | incomplete .. => none

end Stmt

/-- A parameter of a function. -/
structure Param where
  line : Int
  type : Ty
  target : Ident

/-- What the head of a function lacks. -/
inductive Flaw where
  /-- its result, its body or the type of a parameter -/
  | signature
  /-- the name of a parameter: the types are those of this parameter and of all after it -/
  | parameter (types : List Ty)
  deriving DecidableEq, Repr

/-- A function. If a parameter has no name, `params` holds those before it. -/
structure Function where
  line : Int
  name : String
  result : Ty
  params : List Param
  body : List Stmt
  flaw : Option Flaw := none

/-- A program. -/
structure Program where
  line : Int
  functions : List Function

end Arvore
