import Arvore.Numeral.Binary64

/-!
# Shortest decimals

Of all decimals that round to a given double-precision number, the one with the fewest digits, and of those the
nearest to the number. All comparisons are made on whole numbers.
-/

namespace Arvore.Binary64

/-- Compares `a * 10 ^ k` with `b * 2 ^ e`. -/
def compareScaled (a : Nat) (k : Int) (b : Nat) (e : Int) : Ordering :=
  compare (a * Nat.pow 10 k.toNat * Nat.pow 2 (-e).toNat) (b * Nat.pow 2 e.toNat * Nat.pow 10 (-k).toNat)

/-- The greatest whole number that is at most `b * 2 ^ e / 10 ^ k`. -/
def floorScaled (b : Nat) (e k : Int) : Nat :=
  b * Nat.pow 2 e.toNat * Nat.pow 10 (-k).toNat / (Nat.pow 10 k.toNat * Nat.pow 2 (-e).toNat)

/-- The power of ten of the first digit of the positive number `m * 2 ^ e`. -/
def magnitude (m : Nat) (e : Int) : Int :=
  let num := m * Nat.pow 2 e.toNat
  let den := Nat.pow 2 (-e).toNat
  if den ≤ num then (Nat.toDigits 10 (num / den)).length - 1
  else -((Nat.toDigits 10 ((den + num - 1) / num - 1)).length : Int)

/-- Whether `c * 10 ^ k` rounds to the number `m * 2 ^ e`. The bounds are half-way to the two neighbours, and
belong to the number if its mantissa is even. Below a power of two the neighbour is twice as near. -/
def roundsTo (m : Nat) (e : Int) (c : Nat) (k : Int) : Bool :=
  let low := if m = Nat.pow 2 52 && e != leastExponent then 4 * m - 1 else 4 * m - 2
  let fromLow := compareScaled c k low (e - 2)
  let toHigh := compareScaled c k (4 * m + 2) (e - 2)
  (fromLow = .gt || fromLow = .eq && m % 2 = 0) && (toHigh = .lt || toHigh = .eq && m % 2 = 0)

/-- Of the decimals with so many digits around the positive number `m * 2 ^ e`, the nearest that rounds to it, as a
whole number and a power of ten; of two that are equally near, the even one. -/
def withDigits? (m : Nat) (e : Int) (count : Nat) : Option (Nat × Int) :=
  let k := magnitude m e - count + 1
  let below := floorScaled m e k
  match roundsTo m e below k, roundsTo m e (below + 1) k with
  | true, true =>
    match compareScaled (2 * below + 1) k (2 * m) e with
    | .gt => some (below, k)
    | .lt => some (below + 1, k)
    | .eq => some (if below % 2 = 0 then below else below + 1, k)
  | true, false => some (below, k)
  | false, true => some (below + 1, k)
  | false, false => none

/-- The shortest decimal for the positive number `m * 2 ^ e`: its digits without zeros at the end, and the power of
ten of the first one. Seventeen digits are always enough. -/
def shortest (m : Nat) (e : Int) : List Char × Int :=
  let (c, k) := ((List.range' 1 17).findSome? (withDigits? m e)).getD (floorScaled m e 0, 0)
  let digits := Nat.toDigits 10 c
  ((digits.reverse.dropWhile (· = '0')).reverse, k + digits.length - 1)

end Arvore.Binary64
