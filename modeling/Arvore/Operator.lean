/-!
# Operators

The operators of the language by family, each with its symbol. A symbol outside the family is kept, so that
diagnostics can quote it.
-/

namespace Arvore

/-- Operators on two numbers. -/
inductive ArithmeticOp where
  | add
  | sub
  | mul
  | div
  | other (symbol : String)
  deriving DecidableEq, Repr

namespace ArithmeticOp

/-- How the operator is written. -/
def symbol : ArithmeticOp → String
  | add => "+"
  | sub => "-"
  | mul => "*"
  | div => "/"
  | other symbol => symbol

/-- The operators of the language. -/
def known : List ArithmeticOp := [add, sub, mul, div]

/-- The operator with the given symbol. -/
def ofSymbol (symbol : String) : ArithmeticOp := (known.find? (·.symbol = symbol)).getD (other symbol)

end ArithmeticOp

/-- Operators on two truth values. -/
inductive LogicalOp where
  | and
  | or
  | other (symbol : String)
  deriving DecidableEq, Repr

namespace LogicalOp

/-- How the operator is written. -/
def symbol : LogicalOp → String
  | and => "&&"
  | or => "||"
  | other symbol => symbol

/-- The operators of the language. -/
def known : List LogicalOp := [and, or]

/-- The operator with the given symbol. -/
def ofSymbol (symbol : String) : LogicalOp := (known.find? (·.symbol = symbol)).getD (other symbol)

end LogicalOp

/-- Comparisons. -/
inductive RelationalOp where
  | lt
  | le
  | gt
  | ge
  | eq
  | ne
  | other (symbol : String)
  deriving DecidableEq, Repr

namespace RelationalOp

/-- How the operator is written. -/
def symbol : RelationalOp → String
  | lt => "<"
  | le => "<="
  | gt => ">"
  | ge => ">="
  | eq => "=="
  | ne => "!="
  | other symbol => symbol

/-- The operators of the language. -/
def known : List RelationalOp := [lt, le, gt, ge, eq, ne]

/-- The operator with the given symbol. -/
def ofSymbol (symbol : String) : RelationalOp := (known.find? (·.symbol = symbol)).getD (other symbol)

end RelationalOp

/-- Operators on one operand. -/
inductive UnaryOp where
  | neg
  | not
  | other (symbol : String)
  deriving DecidableEq, Repr

namespace UnaryOp

/-- How the operator is written. -/
def symbol : UnaryOp → String
  | neg => "-"
  | not => "!"
  | other symbol => symbol

/-- The operators of the language. -/
def known : List UnaryOp := [neg, not]

/-- The operator with the given symbol. -/
def ofSymbol (symbol : String) : UnaryOp := (known.find? (·.symbol = symbol)).getD (other symbol)

end UnaryOp

/-- The two ways to count a variable on. -/
inductive StepOp where
  | up
  | down
  | other (symbol : String)
  /-- no operator at all -/
  | absent
  deriving DecidableEq, Repr

namespace StepOp

/-- How the operator is written. -/
def symbol : StepOp → String
  | up => "++"
  | down => "--"
  | other symbol => symbol
  | absent => ""

/-- The operators of the language. -/
def known : List StepOp := [up, down]

/-- The operator with the given symbol. -/
def ofSymbol (symbol : String) : StepOp := (known.find? (·.symbol = symbol)).getD (other symbol)

end StepOp

end Arvore
