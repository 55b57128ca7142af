import Arvore.Analysis.Typing

/-!
# Checking statements

A statement is checked in the scope of its function. Declarations were checked when the tables were made. The first
statement that is wrong ends the check.
-/

namespace Arvore

/-- Where a statement stands: the name and the type of the function around it, and what can be referred to. -/
structure Place where
  function : String
  result : Ty
  scope : Scope

/-- The place of the statements of a function. -/
def Function.place (f : Function) (scope : Scope) : Place := ⟨f.name, f.result, scope⟩

/-- A condition has to be a truth value. -/
def Expr.checkCondition (scope : Scope) (statement : Conditional) (cond : Expr) : Except Failure Unit := do
  let given ← cond.typeOf scope
  if given != .logical then reject cond.line (.condition statement given)

/-- An assigned value has exactly the type of the variable. -/
def Ident.checkAssign (scope : Scope) (line : Int) (target : Ident) (value : Expr) : Except Failure Unit := do
  let declared ← scope.findVariable target
  let given ← value.typeOf scope
  if given != declared.type then reject line (.assignment declared.name declared.type given)

/-- Only integers are counted on. -/
def Ident.checkIncrement (scope : Scope) (line : Int) (target : Ident) : Except Failure Unit := do
  let declared ← scope.findVariable target
  if declared.type != .integer then reject line (.increment declared.type)

/-- A function with a result returns exactly its type; one without may return anything. -/
def Place.checkReturn (place : Place) (line : Int) : Option Expr → Except Failure Unit
  | none => if place.result != .void then reject line (.missingResult place.function place.result) else .ok ()
  | some value => do
    let given ← value.typeOf place.scope
    if place.result != .void && given != place.result then
      reject line (.result place.function place.result given)

namespace Stmt

/-- The first part of a for loop's head is an assignment. -/
def checkLoopStart (scope : Scope) : Stmt → Except Failure Unit
  | assign l x e => x.checkAssign scope l e
  | incomplete _ .assignment => .error (.fault .missingPart)
  | s => reject s.line .loopStart

/-- The last part of a for loop's head is an increment or an assignment. -/
def checkLoopStep (scope : Scope) : Stmt → Except Failure Unit
  | assign l x e => x.checkAssign scope l e
  | increment l _ x => x.checkIncrement scope l
  | incomplete _ .assignment | incomplete _ .increment => .error (.fault .missingPart)
  | s => reject s.line .loopStep

mutual

/-- Checks a statement and everything in its blocks. -/
def check (place : Place) : Stmt → Except Failure Unit
  | declare .. => .ok ()
  | assign l x e => x.checkAssign place.scope l e
  | increment l _ x => x.checkIncrement place.scope l
  | call l callee args => do
    let _ ← (Expr.call l callee args).typeOf place.scope
  | ifThen _ c body => do
    c.checkCondition place.scope .branch
    checkAll place body
  | ifElse _ c body other => do
    c.checkCondition place.scope .branch
    checkAll place body
    checkAll place other
  | whileDo _ c body => do
    c.checkCondition place.scope .whileLoop
    checkAll place body
  | forDo _ i c s body => do
    i.checkLoopStart place.scope
    c.checkCondition place.scope .forLoop
    s.checkLoopStep place.scope
    checkAll place body
  | read _ x => do
    let _ ← place.scope.findVariable x
  | print _ e => do
    let _ ← e.typeOf place.scope
  | ret l e => place.checkReturn l e
  | foreign _ kind => .error (.fault (.uncheckable kind))
  | incomplete _ _ => .error (.fault .missingPart)

/-- Checks the statements of a block in order. -/
def checkAll (place : Place) : List Stmt → Except Failure Unit
  | [] => .ok ()
  | s :: rest => do
    check place s
    checkAll place rest

end

end Stmt

end Arvore
