import Arvore.Ty

/-!
# Symbols

A symbol is a declared name: a variable, which has a place in the frame of its function, or a function, which has a
signature.
-/

namespace Arvore

/-- The types of the parameters and of the result of a function. -/
structure Signature where
  params : List Ty
  result : Ty
  deriving DecidableEq, Repr

/-- A declared name. A symbol that is `placed` stands in the frame, `offset` bytes from the frame pointer. -/
structure Symbol where
  name : String
  type : Ty
  line : Int
  offset : Int := 0
  placed : Bool := false
  signature : Option Signature := none
  deriving DecidableEq, Repr

end Arvore
