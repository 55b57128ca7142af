import Arvore.Datum.Reader
import Arvore.Text.Quoted

/-!
# Loading errors

Why a text holds no program: it is no datum, or a datum of the wrong shape. A shape error points at the line of the
datum that is wrong.
-/

namespace Arvore

namespace LoadError

/-- What a name is wanted for. -/
inductive NameRole where
  | function
  | variable
  deriving DecidableEq, Repr

/-- The word for what a name is wanted for. -/
def NameRole.word : NameRole → String
  | .function => "function"
  | .variable => "variable"

/-- What is wrong with the shape of a datum. Where something else was wanted, `got` is the text of the datum. -/
inductive Shape where
  | notProgram
  | lineNotNumber (got : String)
  | invalidLine (text : String)
  | notName (role : NameRole) (got : String)
  | literalName (word : String)
  | notType (got : String)
  | unknownType (word : String)
  | operatorNotString (got : String)
  | unsupportedOperator (symbol : String) (allowed : List String)
  | operands (head : String) (least most given : Nat)
  | notFunction (got : String)
  | notParameterList (got : String)
  | notParameter (got : String)
  | notBlock (got : String)
  | notStatement (got : String)
  | unknownStatement (got : String)
  | emptyDeclaration
  | notDeclarationItem (got : String)
  | notArgumentList (got : String)
  | notExpression (got : String)
  | malformedNumber (text : String)
  | integerOutOfRange (text : String)
  | realOutOfRange (text : String)
  deriving DecidableEq, Repr

/-- The wording of a wrong shape. -/
def Shape.text : Shape → String
  | notProgram => "expected (program ...) at top level"
  | lineNotNumber got => "line metadata must be a number, got " ++ got
  | invalidLine text => "invalid line metadata " ++ text
  | notName role got => "expected " ++ role.word ++ " name, got " ++ got
  | literalName word => word ++ " is a literal, not a variable"
  | notType got => "expected type, got " ++ got
  | unknownType word => "unknown type " ++ Text.quoted word
  | operatorNotString got => "operator must be a string, got " ++ got
  | unsupportedOperator symbol allowed =>
    "unsupported operator " ++ Text.quoted symbol ++ ", expected one of " ++ " ".intercalate allowed
  | operands head least most given =>
    if least = most then
      "(" ++ head ++ ") takes " ++ toString least ++ " operand(s), got " ++ toString given
    else "(" ++ head ++ ") takes " ++ toString least ++ " to " ++ toString most ++ " operands, got " ++ toString given
  | notFunction got => "expected (func ...), got " ++ got
  | notParameterList got => "expected [param...] list, got " ++ got
  | notParameter got => "expected (param TYPE NAME), got " ++ got
  | notBlock got => "expected [statement...] block, got " ++ got
  | notStatement got => "expected statement, got " ++ got
  | unknownStatement got => "unknown statement " ++ got
  | emptyDeclaration => "(decl) needs a type and at least one name"
  | notDeclarationItem got => "expected NAME or (init NAME EXPR), got " ++ got
  | notArgumentList got => "expected [argument...] list, got " ++ got
  | notExpression got => "expected expression, got " ++ got
  | malformedNumber text => "malformed number literal " ++ text
  | integerOutOfRange text => "integer literal " ++ text ++ " out of range"
  | realOutOfRange text => "real literal " ++ text ++ " out of range"

end LoadError

/-- Why a text holds no program. -/
inductive LoadError where
  | unreadable (error : Datum.SyntaxError)
  | shape (line : Nat) (found : LoadError.Shape)
  deriving DecidableEq, Repr

/-- The message of a loading error. -/
def LoadError.message : LoadError → String
  | unreadable error => "tree: " ++ error.message
  | shape line found => "tree: line " ++ toString line ++ ": " ++ found.text

end Arvore
