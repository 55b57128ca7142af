/-!
# Decimal numerals

A decimal is a whole number times a power of ten, with a sign of its own, so that zero has two of them. Reading
takes an optional sign, digits with at most one point among them, and an optional exponent.
-/

namespace Arvore

/-- The number `digits * 10 ^ exponent`, negated if `negative`. -/
structure Decimal where
  negative : Bool
  digits : Nat
  exponent : Int
  deriving DecidableEq, Repr

namespace Decimal

/-- The number that a run of ASCII digits stands for. -/
def digitsValue (digits : List Char) : Nat :=
  digits.foldl (fun n c => n * 10 + (c.toNat - '0'.toNat)) 0

/-- Takes a sign off a text. A text without one is positive. -/
def takeSign : List Char → Bool × List Char
  | '-' :: rest => (true, rest)
  | '+' :: rest => (false, rest)
  | text => (false, text)

/-- The number that the digits of an exponent stand for. Once it has reached ten thousand, further digits no longer
count. -/
def exponentValue (digits : List Char) : Nat :=
  digits.foldl (fun n c => if n < 10000 then n * 10 + (c.toNat - '0'.toNat) else n) 0

/-- The exponent behind the digits of a numeral: nothing, or a letter, an optional sign and at least one digit. -/
def readExponent? : List Char → Option Int
  | [] => some 0
  | c :: rest =>
    let (negative, digits) := takeSign rest
    if (c = 'e' || c = 'E') && !digits.isEmpty && digits.all Char.isDigit then
      some (if negative then -(exponentValue digits : Int) else exponentValue digits)
    else none

/-- The digits behind a point, if there is a point, and what follows. -/
def takeFraction : List Char → List Char × List Char
  | '.' :: rest => (rest.takeWhile Char.isDigit, rest.dropWhile Char.isDigit)
  | text => ([], text)

/-- Reads a numeral. At least one digit has to stand before or behind the point. -/
def read? (text : List Char) : Option Decimal :=
  let (negative, rest) := takeSign text
  let whole := rest.takeWhile Char.isDigit
  let (part, rest) := takeFraction (rest.dropWhile Char.isDigit)
  if whole.isEmpty && part.isEmpty then none
  else (readExponent? rest).map fun power =>
    { negative, digits := digitsValue (whole ++ part), exponent := power - part.length }

end Decimal

end Arvore
