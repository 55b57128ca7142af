/-!
# Data

A tree file holds one datum: a symbol, a string, a number, a list, an array or a map. A list carries metadata, and
every datum knows the line on which it starts.
-/

namespace Arvore

/-- One datum of a tree file. The line is that of its first character. -/
inductive Datum where
  | symbol (line : Nat) (text : String)
  | string (line : Nat) (text : String)
  | number (line : Nat) (text : String)
  | list (line : Nat) (metadata : List (String × Datum)) (items : List Datum)
  | array (line : Nat) (items : List Datum)
  | map (line : Nat) (entries : List (String × Datum))
  deriving Inhabited

namespace Datum

/-- The line on which a datum starts. -/
def line : Datum → Nat
  | symbol l _ | string l _ | number l _ | list l _ _ | array l _ | map l _ => l

/-- Symbols, strings and numbers have no parts. -/
def isAtom : Datum → Bool
  | symbol .. | string .. | number .. => true
  | list .. | array .. | map .. => false

/-- The symbol at the head of a list, empty for every other datum. -/
def head : Datum → String
  | list _ _ (symbol _ text :: _) => text
  | _ => ""

/-- The items of a list or an array, and the values of a map. -/
def items : Datum → List Datum
  | list _ _ items | array _ items => items
  | map _ entries => entries.map (·.2)
  | symbol .. | string .. | number .. => []

/-- The metadata of a list. -/
def metadata : Datum → List (String × Datum)
  | list _ metadata _ => metadata
  | _ => []

/-- The metadata value under a key. -/
def metadata? (d : Datum) (key : String) : Option Datum := d.metadata.lookup key

/-- Writes one entry: a key that is present keeps its place and takes the new value, a new key goes to the end. -/
def setEntry (key : String) (value : Datum) : List (String × Datum) → List (String × Datum)
  | [] => [(key, value)]
  | (k, v) :: rest => if k = key then (k, value) :: rest else (k, v) :: setEntry key value rest

/-- Writes the entries one after the other, so that of two values for one key the later stays. -/
def mergeEntries (old new : List (String × Datum)) : List (String × Datum) :=
  new.foldl (fun entries entry => setEntry entry.1 entry.2 entries) old

end Datum

end Arvore
