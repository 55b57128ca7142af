import Arvore.Numeral.Decimal

/-!
# Double-precision numbers

The finite numbers of the format binary64, as a mantissa of at most 53 bits times a power of two. A decimal is
rounded to the nearest of them, a half to the one with the even mantissa. Every number has exactly one form, so
equal numbers are equal values.
-/

namespace Arvore

/-- The number `mantissa * 2 ^ exponent`, negated if `negative`. The exponent is the least possible one. -/
structure Binary64 where
  negative : Bool
  mantissa : Nat
  exponent : Int
  deriving DecidableEq, Repr

namespace Binary64

/-- The least exponent, that of zero and of the numbers closest to it. -/
def leastExponent : Int := -1074

/-- The exponent of the greatest finite numbers. -/
def greatestExponent : Int := 971

/-- The quotient rounded to the nearest whole number, a half to the even one. -/
def roundDiv (num den : Nat) : Nat :=
  let q := num / den
  let r := num % den
  if den < 2 * r || 2 * r = den && q % 2 = 1 then q + 1 else q

/-- The fraction `num / den` divided by `2 ^ e`. -/
def scale (num den : Nat) (e : Int) : Nat × Nat :=
  if 0 ≤ e then (num, den * Nat.pow 2 e.toNat) else (num * Nat.pow 2 (-e).toNat, den)

/-- The exponent with which the positive number `num / den` has a mantissa of 53 bits, but not below the least. -/
def binade (num den : Nat) : Int :=
  let low := (num.log2 : Int) - den.log2 - 53
  let (n, d) := scale num den low
  max (if Nat.pow 2 53 * d ≤ n then low + 1 else low) leastExponent

/-- The mantissa and the exponent nearest to the positive number `num / den`, unless it is too large. -/
def nearest? (num den : Nat) : Option (Nat × Int) :=
  let e := binade num den
  let (n, d) := scale num den e
  let m := roundDiv n d
  let (m, e) := if m = Nat.pow 2 53 then (Nat.pow 2 52, e + 1) else (m, e)
  if greatestExponent < e then none else some (m, e)

/-- The number nearest to a decimal, unless it is too large. Decimals of 10 ^ 309 and more are too large, and those
below 10 ^ -324 are nearest to zero, so no power of ten out of range is ever computed. -/
def ofDecimal? (d : Decimal) : Option Binary64 :=
  let places : Int := d.exponent + (Nat.toDigits 10 d.digits).length
  if d.digits = 0 || places ≤ -324 then some ⟨d.negative, 0, leastExponent⟩
  else if 310 ≤ places then none
  else
    let found :=
      if 0 ≤ d.exponent then nearest? (d.digits * Nat.pow 10 d.exponent.toNat) 1
      else nearest? d.digits (Nat.pow 10 (-d.exponent).toNat)
    found.map fun (mantissa, exponent) => ⟨d.negative, mantissa, exponent⟩

end Binary64

end Arvore
