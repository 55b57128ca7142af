/-!
# Sets of code points

A property of characters, such as being a letter, is a set of code points. It is written as a list of ranges in
ascending order.
-/

namespace Arvore.Text

/-- A set of code points: ascending ranges, both ends included. -/
abbrev Ranges := List (Nat × Nat)

/-- Whether one of the ranges holds `n`. The search ends at the first range that starts above `n`. -/
def Ranges.contains : Ranges → Nat → Bool
  | [], _ => false
  | (lo, hi) :: rest, n => if n < lo then false else n ≤ hi || Ranges.contains rest n

end Arvore.Text
