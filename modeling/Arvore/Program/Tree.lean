import Arvore.Program.Basic
import Arvore.Tree.Basic

/-!
# Programs as trees

Every program has a tree, and every tree has a program: parts are taken by their position, parts that no position
asks for are left out, a node out of place becomes foreign, and a part that is missing leaves a gap.
-/

namespace Arvore

/-! ### The tree of a program -/

/-- The node of a name. -/
def Ident.toTree (x : Ident) : Tree := ⟨.identifier, x.name, x.line, []⟩

/-- The node of a type. -/
def Ty.toTree (line : Int) (type : Ty) : Tree := ⟨.typeName, type.word, line, []⟩

namespace Expr

/-- The node of an operator. -/
def operatorTree (line : Int) (symbol : String) : Tree := ⟨.operator, symbol, line, []⟩

mutual

/-- The tree of an expression. -/
def toTree : Expr → Tree
  | number l text => ⟨.number, text, l, []⟩
  | string l text => ⟨.string, text, l, []⟩
  | boolean l word => ⟨.boolean, word, l, []⟩
  | var l name => ⟨.identifier, name, l, []⟩
  | arithmetic l op a b => ⟨.arithmetic, "", l, [a.toTree, operatorTree l op.symbol, b.toTree]⟩
  | logical l op a b => ⟨.logical, "", l, [a.toTree, operatorTree l op.symbol, b.toTree]⟩
  | relational l op a b => ⟨.relational, "", l, [a.toTree, operatorTree l op.symbol, b.toTree]⟩
  | unary l op e => ⟨.unary, "", l, [operatorTree l op.symbol, e.toTree]⟩
  | call l callee args => ⟨.call, "", l, callee.toTree :: toTrees args⟩
  | foreign l kind => ⟨kind, "", l, []⟩
  | absent => ⟨.other "", "", 0, []⟩

/-- The trees of several expressions. -/
def toTrees : List Expr → List Tree
  | [] => []
  | e :: rest => e.toTree :: toTrees rest

end

end Expr

/-- The chain of the items of a declaration: no link, or one that holds an item and the links after it. -/
def DeclItem.chain : List DeclItem → List Tree
  | [] => []
  | item :: rest =>
    [⟨.declarationItems, "", item.target.line,
      item.target.toTree :: (item.init.map Expr.toTree).toList ++ chain rest⟩]

namespace Stmt

mutual

/-- The tree of a statement. -/
def toTree : Stmt → Tree
  | declare l type items => ⟨.declaration, "", l, type.toTree l :: DeclItem.chain items⟩
  | assign l x e => ⟨.assignment, "", l, [x.toTree, Expr.operatorTree l "=", e.toTree]⟩
  | increment l op x => ⟨.increment, "", l, [x.toTree, Expr.operatorTree l op.symbol]⟩
  | call l callee args => ⟨.call, "", l, callee.toTree :: Expr.toTrees args⟩
  | ifThen l c body => ⟨.branch, "", l, [c.toTree, ⟨.block, "", l, toTrees body⟩]⟩
  | ifElse l c body other =>
    ⟨.branch, "", l, [c.toTree, ⟨.block, "", l, toTrees body⟩, ⟨.block, "", l, toTrees other⟩]⟩
  | whileDo l c body => ⟨.whileLoop, "", l, [c.toTree, ⟨.block, "", l, toTrees body⟩]⟩
  | forDo l i c s body => ⟨.forLoop, "", l, [i.toTree, c.toTree, s.toTree, ⟨.block, "", l, toTrees body⟩]⟩
  | read l x => ⟨.read, "", l, [x.toTree]⟩
  | print l e => ⟨.print, "", l, [e.toTree]⟩
  | ret l e => ⟨.result, "", l, (e.map Expr.toTree).toList⟩
  | foreign l kind | incomplete l kind => ⟨kind, "", l, []⟩

/-- The trees of several statements. -/
def toTrees : List Stmt → List Tree
  | [] => []
  | s :: rest => s.toTree :: toTrees rest

end

end Stmt

/-- The tree of a parameter. -/
def Param.toTree (p : Param) : Tree := ⟨.parameter, "", p.line, [p.type.toTree p.line, p.target.toTree]⟩

/-- The tree of a function. -/
def Function.toTree (f : Function) : Tree :=
  ⟨.function, f.name, f.line,
    f.result.toTree f.line :: f.params.map Param.toTree ++ [⟨.block, "", f.line, Stmt.toTrees f.body⟩]⟩

/-- The tree of a program. -/
def Program.toTree (p : Program) : Tree := ⟨.program, "", p.line, p.functions.map Function.toTree⟩

/-! ### The program of a tree -/

/-- The name that a node stands for. -/
def Ident.ofTree (t : Tree) : Ident := ⟨t.line, t.value⟩

namespace Expr

/-- The symbol of an operator, given the parts after the left operand. -/
def operatorOf (rest : List Tree) : String := (rest.head?.map (·.value)).getD ""

mutual

/-- The expression that a node stands for. An operation with a left operand only is still one: its operator reads as
empty and its right operand is absent. -/
def ofTree : Tree → Expr
  | ⟨.number, text, l, _⟩ => number l text
  | ⟨.string, text, l, _⟩ => string l text
  | ⟨.boolean, word, l, _⟩ => boolean l word
  | ⟨.identifier, name, l, _⟩ => var l name
  | ⟨.arithmetic, _, l, a :: rest⟩ => arithmetic l (.ofSymbol (operatorOf rest)) (ofTree a) (rightOf rest)
  | ⟨.logical, _, l, a :: rest⟩ => logical l (.ofSymbol (operatorOf rest)) (ofTree a) (rightOf rest)
  | ⟨.relational, _, l, a :: rest⟩ => relational l (.ofSymbol (operatorOf rest)) (ofTree a) (rightOf rest)
  | ⟨.unary, _, l, op :: e :: _⟩ => unary l (.ofSymbol op.value) (ofTree e)
  | ⟨.call, _, l, callee :: args⟩ => call l (.ofTree callee) (ofTrees args)
  | ⟨.arithmetic, _, _, _⟩ | ⟨.logical, _, _, _⟩ | ⟨.relational, _, _, _⟩ | ⟨.unary, _, _, _⟩
  | ⟨.call, _, _, _⟩ => absent
  | ⟨kind, _, l, _⟩ => foreign l kind

/-- The right operand, given the parts after the left one. -/
def rightOf : List Tree → Expr
  | _ :: b :: _ => ofTree b
  | _ => absent

/-- The expressions that several nodes stand for. -/
def ofTrees : List Tree → List Expr
  | [] => []
  | t :: rest => ofTree t :: ofTrees rest

end

end Expr

/-- One name of a declaration with its initial value. -/
def DeclItem.ofTree (name : Tree) (init : Option Tree) : DeclItem := ⟨.ofTree name, init.map Expr.ofTree⟩

namespace Stmt

/-- The declaration that a node stands for. -/
def declareOfTree (t : Tree) : Stmt :=
  match t.children, t.declItems with
  | type :: _, .ok items => declare t.line (.ofWord type.value) (items.map fun (name, init) => .ofTree name init)
  | _, _ => incomplete t.line .declaration

/-- The assigned value, given the parts after the variable. -/
def assignedOf : List Tree → Expr
  | _ :: e :: _ => Expr.ofTree e
  | _ => .absent

mutual

/-- The statement that a node stands for. -/
def ofTree : Tree → Stmt
  | ⟨.declaration, value, l, parts⟩ => declareOfTree ⟨.declaration, value, l, parts⟩
  | ⟨.assignment, _, l, x :: rest⟩ => assign l (.ofTree x) (assignedOf rest)
  | ⟨.increment, _, l, x :: op :: _⟩ => increment l (.ofSymbol op.value) (.ofTree x)
  | ⟨.increment, _, l, [x]⟩ => increment l .absent (.ofTree x)
  | ⟨.call, _, l, callee :: args⟩ => call l (.ofTree callee) (Expr.ofTrees args)
  | ⟨.branch, _, l, [c, ⟨_, _, _, body⟩, ⟨_, _, _, other⟩]⟩ =>
    ifElse l (Expr.ofTree c) (ofTrees body) (ofTrees other)
  | ⟨.branch, _, l, c :: ⟨_, _, _, body⟩ :: _⟩ => ifThen l (Expr.ofTree c) (ofTrees body)
  | ⟨.whileLoop, _, l, c :: rest⟩ => whileDo l (Expr.ofTree c) (lastBlock (c :: rest))
  | ⟨.forLoop, _, l, i :: rest⟩ =>
    forDo l (ofTree i) ((rest.head?.map Expr.ofTree).getD .absent) (stepOf l rest) (lastBlock (i :: rest))
  | ⟨.read, _, l, x :: _⟩ => read l (.ofTree x)
  | ⟨.print, _, l, e :: _⟩ => print l (Expr.ofTree e)
  | ⟨.result, _, l, parts⟩ => ret l (parts.head?.map Expr.ofTree)
  | ⟨.assignment, _, l, _⟩ => incomplete l .assignment
  | ⟨.increment, _, l, _⟩ => incomplete l .increment
  | ⟨.call, _, l, _⟩ => incomplete l .call
  | ⟨.branch, _, l, _⟩ => incomplete l .branch
  | ⟨.whileLoop, _, l, _⟩ => incomplete l .whileLoop
  | ⟨.forLoop, _, l, _⟩ => incomplete l .forLoop
  | ⟨.read, _, l, _⟩ => incomplete l .read
  | ⟨.print, _, l, _⟩ => incomplete l .print
  | ⟨kind, _, l, _⟩ => foreign l kind

/-- The last part of a for loop's head, given the parts after the first. -/
def stepOf (line : Int) : List Tree → Stmt
  | _ :: s :: _ => ofTree s
  | _ => incomplete line .increment

/-- The statements that several nodes stand for. -/
def ofTrees : List Tree → List Stmt
  | [] => []
  | t :: rest => ofTree t :: ofTrees rest

/-- The statements of the block that stands last. -/
def lastBlock : List Tree → List Stmt
  | [] => []
  | [⟨_, _, _, body⟩] => ofTrees body
  | _ :: rest => lastBlock rest

end

end Stmt

namespace Param

/-- The type of the parameter that a node stands for. -/
def typeOfTree? (t : Tree) : Option Ty := t.children.head?.map fun type => .ofWord type.value

/-- The parameter that a node stands for, if it has a name. -/
def ofTree? (t : Tree) : Option Param :=
  match t.children with
  | type :: name :: _ => some ⟨t.line, .ofWord type.value, .ofTree name⟩
  | _ => none

/-- The parameters before the first one without a name. -/
def ofTrees (nodes : List Tree) : List Param := ((nodes.map ofTree?).takeWhile Option.isSome).filterMap id

end Param

/-- The function that a node stands for: its first child is the type, its last the body. -/
def Function.ofTree (t : Tree) : Function :=
  match t.children, t.params.mapM Param.typeOfTree? with
  | type :: next :: rest, some types =>
    let params := Param.ofTrees t.params
    { line := t.line
      name := t.value
      result := .ofWord type.value
      params
      body := Stmt.lastBlock (next :: rest)
      flaw := if params.length = types.length then none else some (.parameter (types.drop params.length)) }
  | _, _ =>
    { line := t.line, name := t.value, result := .other "", params := [], body := [], flaw := some .signature }

/-- The program that a node stands for. -/
def Program.ofTree (t : Tree) : Program := ⟨t.line, t.children.map Function.ofTree⟩

end Arvore
