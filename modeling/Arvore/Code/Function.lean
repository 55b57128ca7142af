import Arvore.Code.Stmt

/-!
# The code of functions and data

A function reserves its frame and copies its arguments into it: the first six come in registers, the others lie above
the return address. The literals of all functions follow in one section of read-only data.
-/

namespace Arvore

open Assembly

/-- The number of bytes to reserve for a frame, rounded up to a multiple of sixteen if asked for. -/
def reservation (align : Bool) (size : Int) : Int := if align then (size + 15) / 16 * 16 else size

/-- Reserves a frame. -/
def reserveCode (size : Int) : Listing := if 0 < size then instrs [.alu .sub .quad (.imm size) .rsp] else []

/-- Copies the argument at a position into the place of its parameter. -/
def Symbol.spillCode (s : Symbol) (position : Nat) : Except Fault Listing :=
  match argumentRegisters[position]? with
  | some r => s.storeFrom (.reg r)
  | none => do
    let above : Int := 16 + 8 * (position - argumentRegisters.length : Nat)
    return instrs [.mov .quad (.mem .rbp above) (.reg .rax)] ++ (← s.store)

/-- Copies all arguments from the given position on. -/
def Param.spillCodes (target : Target) (position : Nat) : List Param → Except Fault Listing
  | [] => .ok []
  | p :: rest => do
    let s ← target.find p.target.name
    return (← s.spillCode position) ++ (← spillCodes target (position + 1) rest)

/-- The code of a function. -/
def Function.code (align : Bool) (scope : Scope) (f : Function) : Gen Listing := do
  let target : Target := ⟨f.name, scope⟩
  let spill ← Param.spillCodes target 0 f.params
  let body ← Stmt.codes target f.body
  let ending := if (f.body.getLast?.map Stmt.isReturn).getD false then [] else leaveCode
  return [.global f.name, .entry f.name] ++
    instrs [.push (.reg .rbp), .mov .quad (.reg .rsp) (.reg .rbp)] ++
    reserveCode (reservation align scope.locals.frameSize) ++ spill ++ body ++ ending

/-- The directive for a literal. -/
def Assembly.Literal.directive (l : Literal) : Except Fault Line :=
  if l.label.category = Category.string then .ok (.string l.payload)
  else if l.label.category = Category.float then .ok (.double l.payload)
  else if l.label.category = Category.int then .ok (.quad l.payload)
  else .error (.noDirective l.label.name)

/-- The lines of some literals. -/
def Assembly.Literal.listing : List Literal → Except Fault Listing
  | [] => .ok []
  | l :: rest => do return [.label l.label, ← l.directive] ++ (← listing rest)

/-- The section of read-only data. -/
def Assembly.Pool.dataCode (p : Pool) : Except Fault Listing := do
  return .dataSection :: (← Literal.listing p.literals)

end Arvore
