/-!
# Types

The types of the language by their keywords. A word that is no keyword is kept as a type of its own, which nothing
can be declared with, so that diagnostics can name it.
-/

namespace Arvore

/-- The type of a variable, an expression or a function. -/
inductive Ty where
  | integer
  | real
  | logical
  | character
  | function
  | void
  | other (word : String)
  deriving DecidableEq, Repr, Inhabited

namespace Ty

/-- The type that a word names. -/
def ofWord : String → Ty
  | "inteiro" => integer
  | "real" => real
  | "logico" => logical
  | "caracter" => character
  | "funcao" => function
  | "vazio" => void
  | word => other word

/-- The word that names a type. -/
def word : Ty → String
  | integer => "inteiro"
  | real => "real"
  | logical => "logico"
  | character => "caracter"
  | function => "funcao"
  | void => "vazio"
  | other word => word

/-- The number of bytes that a variable takes. -/
def size? : Ty → Option Nat
  | integer => some 4
  | real => some 8
  | logical | character => some 1
  | function | void | other _ => none

/-- Whether arithmetic accepts operands of this type. -/
def isNumeric : Ty → Bool
  | integer | real => true
  | _ => false

/-- Whether parameters and locals may have this type. -/
def isVariable : Ty → Bool
  | integer | real | logical | character => true
  | _ => false

@[simp] theorem word_ofWord (word : String) : (ofWord word).word = word := by
  unfold ofWord
  split <;> rfl

/-- The types of variables are those that take room. -/
theorem isVariable_iff_size?_isSome (t : Ty) : t.isVariable = true ↔ t.size?.isSome = true := by
  cases t <;> simp [isVariable, size?]

end Ty

/-- The literal for truth. -/
def trueWord : String := "verdadeiro"

/-- The literal for falsehood. -/
def falseWord : String := "falso"

/-- Whether a word is one of the two truth values. -/
def isTruthWord (word : String) : Bool := word = trueWord || word = falseWord

end Arvore
