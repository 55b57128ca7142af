import Arvore.Code.Expr

/-!
# The code of statements

Branches and loops test their condition against zero and jump over their blocks. The labels of a statement are drawn
before those of its parts.
-/

namespace Arvore

open Assembly

/-- The function that writes a value. -/
def printFunction : String := "syscall_print"

/-- The function that reads into a variable. -/
def readFunction : String := "syscall_read"

/-- Leaves a function. -/
def leaveCode : Listing := instrs [.leave, .ret]

/-- Jumps if the condition that the given code computes fails. -/
def testCode (cond : Listing) (target : Label) : Listing :=
  cond ++ instrs [.alu .cmp .quad (.imm 0) .rax, .jumpEqual target]

/-- The operand for a value that needs no code: an integer of at most 32 bits or a truth value. -/
def Expr.immediate? : Expr → Option Int
  | number _ text => Numeral.immediate? text
  | boolean _ word => some (truthValue word)
  | _ => none

/-- Stores the value of an expression into a variable. -/
def Symbol.assignCode (target : Target) (s : Symbol) (value : Expr) : Gen Listing :=
  match value.immediate? with
  | some n => s.storeFrom (.imm n)
  | none => do
    let computed ← value.code target
    return computed ++ (← s.store)

/-- The code of one name of a declaration. -/
def DeclItem.code (target : Target) (item : DeclItem) : Gen Listing :=
  match item.init with
  | none => return []
  | some value => do
    let s ← target.find item.target.name
    s.assignCode target value

/-- The codes of the names of a declaration. -/
def DeclItem.codes (target : Target) : List DeclItem → Gen Listing
  | [] => return []
  | item :: rest => do
    let first ← item.code target
    return first ++ (← codes target rest)

/-- Adds one to `%rax` or takes one off. -/
def StepOp.code : StepOp → Except Fault Instr
  | absent => .error .missingPart
  | down => .ok (.alu .sub .quad (.imm 1) .rax)
  | _ => .ok (.alu .add .quad (.imm 1) .rax)

/-- Writes the value of an expression. A string is passed by its address. -/
def Expr.printCode (target : Target) : Expr → Gen Listing
  | string _ text => do
    let label ← Gen.intern Category.string text
    return instrs [.lea (.data label) .rdi, .call printFunction]
  | e => do
    let computed ← e.code target
    return computed ++ instrs [.mov .quad (.reg .rax) (.reg .rdi), .call printFunction]

namespace Stmt

mutual

/-- The code of a statement. -/
def code (target : Target) : Stmt → Gen Listing
  | declare _ _ items => DeclItem.codes target items
  | assign _ x e => do
    let s ← target.find x.name
    s.assignCode target e
  | increment _ op x => do
    let s ← target.find x.name
    return (← s.load) ++ instrs [← op.code] ++ (← s.store)
  | call l callee args => (Expr.call l callee args).code target
  | ifThen _ c body => do
    let done ← Gen.fresh Category.endBranch
    let cond ← c.code target
    let body ← codes target body
    return testCode cond done ++ body ++ [.label done]
  | ifElse _ c body other => do
    let otherwise ← Gen.fresh Category.otherwise
    let done ← Gen.fresh Category.endBranch
    let cond ← c.code target
    let body ← codes target body
    let other ← codes target other
    return testCode cond otherwise ++ body ++ instrs [.jump done] ++ [.label otherwise] ++ other ++ [.label done]
  | whileDo _ c body => do
    let top ← Gen.fresh Category.whileLoop
    let done ← Gen.fresh Category.endWhile
    let cond ← c.code target
    let body ← codes target body
    return [.label top] ++ testCode cond done ++ body ++ instrs [.jump top] ++ [.label done]
  | forDo _ i c s body => do
    let top ← Gen.fresh Category.forLoop
    let done ← Gen.fresh Category.endFor
    let init ← code target i
    let cond ← c.code target
    let body ← codes target body
    let step ← code target s
    return init ++ [.label top] ++ testCode cond done ++ body ++ step ++ instrs [.jump top] ++ [.label done]
  | read _ x => do
    let s ← target.find x.name
    return instrs [.lea s.place .rdi, .call readFunction]
  | print _ e => e.printCode target
  | ret _ none => return leaveCode
  | ret _ (some e) => do return (← e.code target) ++ leaveCode
  | foreign _ kind => throw (.notStatement kind)
  | incomplete _ _ => throw .missingPart

/-- The code of the statements of a block. -/
def codes (target : Target) : List Stmt → Gen Listing
  | [] => return []
  | s :: rest => do
    let first ← code target s
    return first ++ (← codes target rest)

end

/-- Whether a statement leaves the function. -/
def isReturn : Stmt → Bool
  | ret .. => true
  | _ => false

end Stmt

end Arvore
