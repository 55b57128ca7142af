import Arvore.Numeral.Decimal

/-!
# Number literals

A number literal is an optional sign, digits, an optional fraction and an optional exponent, all in ASCII. One
with neither fraction nor exponent is integral. A single line end behind a literal is overlooked.
-/

namespace Arvore.Numeral

/-- The text without a line end at its end. -/
def dropLineEnd (text : List Char) : List Char :=
  if text.getLast? = some '\n' then text.dropLast else text

/-- At least one digit, and nothing else. -/
def isDigits (text : List Char) : Bool := !text.isEmpty && text.all Char.isDigit

/-- Whether a text is nothing, or a letter, an optional sign and digits. -/
def isExponent : List Char → Bool
  | [] => true
  | c :: rest => (c = 'e' || c = 'E') && isDigits (Decimal.takeSign rest).2

/-- What remains of a text behind a point and digits. Without a digit the point does not belong to the literal. -/
def dropFraction : List Char → List Char
  | '.' :: d :: rest => if d.isDigit then rest.dropWhile Char.isDigit else '.' :: d :: rest
  | text => text

/-- Whether a text is a number literal. -/
def isLiteral (text : String) : Bool :=
  let body := (Decimal.takeSign (dropLineEnd text.toList)).2
  (body.head?.map Char.isDigit).getD false && isExponent (dropFraction (body.dropWhile Char.isDigit))

/-- Whether a text is an integral literal. -/
def isIntegral (text : String) : Bool := isDigits (Decimal.takeSign (dropLineEnd text.toList)).2

/-- Whether a value can be written with so many bits in two's complement. -/
def fits (bits : Nat) (value : Int) : Bool :=
  let bound : Int := Nat.pow 2 (bits - 1)
  value < bound && -bound ≤ value

/-- The value of a text of an optional sign and digits, if it fits into 64 bits. -/
def integer? (text : String) : Option Int :=
  let (negative, digits) := Decimal.takeSign text.toList
  if isDigits digits then
    let value : Int := if negative then -(Decimal.digitsValue digits : Int) else Decimal.digitsValue digits
    if fits 64 value then some value else none
  else none

/-- The value of an integral literal that fits into the 32 bits of an immediate operand. -/
def immediate? (text : String) : Option Int :=
  if isIntegral text then (integer? text).filter (fits 32) else none

end Arvore.Numeral
