/-!
# Kinds of nodes

The kinds of nodes that a program tree has, and their names. A name that is no kind of the language is kept.
-/

namespace Arvore

/-- What a node of a program tree stands for. -/
inductive Kind where
  | program
  | function
  | parameter
  | block
  | declaration
  | declarationItems
  | identifier
  | number
  | string
  | boolean
  | arithmetic
  | logical
  | relational
  | unary
  | assignment
  | increment
  | call
  | branch
  | whileLoop
  | forLoop
  | read
  | print
  | result
  | typeName
  | operator
  | other (name : String)
  deriving DecidableEq, Repr, Inhabited

namespace Kind

/-- The name of a kind. -/
def name : Kind → String
  | program => "program"
  | function => "function"
  | parameter => "param"
  | block => "commands"
  | declaration => "declaration"
  | declarationItems => "declarations"
  | identifier => "identifier"
  | number => "number"
  | string => "string"
  | boolean => "boolean"
  | arithmetic => "binary_expression"
  | logical => "logical_expression"
  | relational => "relational_expression"
  | unary => "unary_expression"
  | assignment => "assignment_expression"
  | increment => "increment_expression"
  | call => "call_function_expression"
  | branch => "if"
  | whileLoop => "while"
  | forLoop => "for"
  | read => "read"
  | print => "print"
  | result => "return_expression"
  | typeName => "type"
  | operator => "operator"
  | other name => name

/-- The kinds of the language. -/
def known : List Kind :=
  [program, function, parameter, block, declaration, declarationItems, identifier, number, string, boolean,
    arithmetic, logical, relational, unary, assignment, increment, call, branch, whileLoop, forLoop, read, print,
    result, typeName, operator]

/-- The kind with the given name. -/
def ofName (name : String) : Kind := (known.find? (·.name = name)).getD (other name)

end Kind

end Arvore
