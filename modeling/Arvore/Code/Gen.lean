import Arvore.Analysis.Typing
import Arvore.Assembly.Basic

/-!
# Generating code

Code is generated as a listing while labels are drawn from one pool. Every expression leaves its value in `%rax`; of
two operands the right one is in `%rcx`. Reals travel through general registers as their bit patterns.
-/

namespace Arvore

open Assembly

/-- Steps of code generation: they draw labels from the pool and may meet a fault. -/
abbrev Gen := StateT Pool (Except Fault)

namespace Gen

/-- The next label of a category. -/
def fresh (category : String) : Gen Label := modifyGet (Pool.fresh category)

/-- The label of a literal. -/
def intern (category payload : String) : Gen Label := modifyGet (Pool.intern category payload)

end Gen

/-- The function that code is generated for: its name and what can be referred to. -/
structure Target where
  function : String
  scope : Scope

namespace Target

/-- The variable with a name. -/
def find (t : Target) (name : String) : Except Fault Symbol :=
  (t.scope.locals.lookup name).mapError (.unknownVariable t.function)

/-- The type of an expression that has been checked. -/
def typeOf (t : Target) (e : Expr) : Except Fault Ty :=
  (e.typeOf t.scope).mapError fun
    | .diagnostic d => .unanalyzed e.line d
    | .fault f => f

end Target

/-- The width of the variables of a type. -/
def Ty.width : Ty → Except Fault Width
  | integer => .ok .long
  | real => .ok .quad
  | logical | character => .ok .byte
  | t => .error (.noStorage t)

namespace Symbol

/-- The place of a variable in memory. -/
def place (s : Symbol) : Operand := .mem .rbp s.offset

/-- Loads a variable into `%rax`: an integer with its sign, a byte without. -/
def load (s : Symbol) : Except Fault Listing := do
  match ← s.type.width with
  | .long => return instrs [.movSigned s.place .rax]
  | .quad => return instrs [.mov .quad s.place (.reg .rax)]
  | .byte => return instrs [.movZero s.place .rax]

/-- Stores an operand into a variable, in the width of the variable. -/
def storeFrom (s : Symbol) (src : Operand) : Except Fault Listing := do
  return instrs [.mov (← s.type.width) src s.place]

/-- Stores `%rax` into a variable. -/
def store (s : Symbol) : Except Fault Listing := s.storeFrom (.reg .rax)

end Symbol

end Arvore
