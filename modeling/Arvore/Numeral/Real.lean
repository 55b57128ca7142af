import Arvore.Numeral.Shortest

/-!
# Real literals

A real literal is kept by its value: it is rounded to double precision, and written back with the fewest digits.
Numbers from a tenth of a thousandth up to a million are written out, all others with an exponent. A point or an
exponent is always there, so that the text reads as a real.
-/

namespace Arvore.Real

/-- Why a text is no finite real. -/
inductive Error where
  | malformed
  | outOfRange
  deriving DecidableEq, Repr

/-- The wording of a reading error. -/
def Error.text : Error → String
  | malformed => "invalid syntax"
  | outOfRange => "value out of range"

/-- Reads a real. -/
def read (text : List Char) : Except Error Binary64 :=
  match Decimal.read? text with
  | none => .error .malformed
  | some d =>
    match Binary64.ofDecimal? d with
    | none => .error .outOfRange
    | some x => .ok x

/-- Digits written out, the first one at the power `x` of ten. -/
def positional (digits : List Char) (x : Int) : List Char :=
  if x < 0 then '0' :: '.' :: List.replicate (-x - 1).toNat '0' ++ digits
  else
    let whole := x.toNat + 1
    if digits.length ≤ whole then digits ++ List.replicate (whole - digits.length) '0'
    else digits.take whole ++ '.' :: digits.drop whole

/-- Digits with a point behind the first, and the power `x` of ten with a sign and at least two digits. -/
def scientific (digits : List Char) (x : Int) : List Char :=
  let power := Nat.toDigits 10 x.natAbs
  digits.take 1 ++ (if digits.length ≤ 1 then [] else '.' :: digits.drop 1) ++
    ['e', if x < 0 then '-' else '+'] ++ List.replicate (2 - power.length) '0' ++ power

/-- The shortest text of a number. -/
def write (x : Binary64) : List Char :=
  let sign := if x.negative then ['-'] else []
  if x.mantissa = 0 then sign ++ ['0']
  else
    let (digits, power) := Binary64.shortest x.mantissa x.exponent
    sign ++ if power < -4 || 6 ≤ power then scientific digits power else positional digits power

/-- The text of a number as a real literal. -/
def literal (x : Binary64) : List Char :=
  let text := write x
  if text.any (fun c => c = '.' || c = 'e') then text else text ++ ['.', '0']

end Arvore.Real
