/-!
# Labels and pooled literals

A label is a category and a number. Every category counts for itself, from one. Literals are pooled: the same text
in the same category has one label, which draws its number from the same count.
-/

namespace Arvore.Assembly

/-- A generated label. -/
structure Label where
  category : String
  number : Nat
  deriving DecidableEq, Repr

/-- The name of a label in the listing. -/
def Label.name (l : Label) : String := l.category ++ "_" ++ toString l.number

namespace Category

/-- The start of the second block of a branch. -/
def otherwise : String := "else"

/-- The end of a branch. -/
def endBranch : String := "endif"

/-- The start of a while loop. -/
def whileLoop : String := "while"

/-- The end of a while loop. -/
def endWhile : String := "endwhile"

/-- The start of a for loop. -/
def forLoop : String := "for"

/-- The end of a for loop. -/
def endFor : String := "endfor"

/-- String literals. -/
def string : String := "string"

/-- Real literals. -/
def float : String := "float"

/-- Integers that are too wide for an operand. -/
def int : String := "int"

end Category

/-- A literal in read-only data. -/
structure Literal where
  payload : String
  label : Label
  deriving DecidableEq, Repr

/-- The labels given out so far: how many of each category, and the literals in the order they came. -/
structure Pool where
  counts : List (String × Nat) := []
  literals : List Literal := []
  deriving DecidableEq, Repr

namespace Pool

/-- How many labels of a category have been given out. -/
def count (p : Pool) (category : String) : Nat := (p.counts.lookup category).getD 0

/-- Writes the count of a category. -/
def setCount (category : String) (n : Nat) : List (String × Nat) → List (String × Nat)
  | [] => [(category, n)]
  | (c, k) :: rest => if c = category then (c, n) :: rest else (c, k) :: setCount category n rest

/-- The next label of a category. -/
def fresh (category : String) (p : Pool) : Label × Pool :=
  let n := p.count category + 1
  (⟨category, n⟩, { p with counts := setCount category n p.counts })

/-- The literal with the given category and text. -/
def find? (category payload : String) (p : Pool) : Option Literal :=
  p.literals.find? fun l => l.label.category = category && l.payload = payload

/-- The label of a literal, a new one if the literal is new. -/
def intern (category payload : String) (p : Pool) : Label × Pool :=
  match p.find? category payload with
  | some l => (l.label, p)
  | none =>
    let (label, p) := p.fresh category
    (label, { p with literals := p.literals ++ [⟨payload, label⟩] })

end Pool

end Arvore.Assembly
