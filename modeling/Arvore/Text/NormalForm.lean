import Arvore.Text.CombiningClass
import Arvore.Text.Compatibility
import Arvore.Text.Composition
import Arvore.Text.Decomposition
import Arvore.Text.Hangul
import Arvore.Text.Ideograph

/-!
# The composed normal form

An accented letter can be written as one character or as a letter followed by marks. The normal form NFC makes
the spellings equal: it decomposes every character, puts the marks of each letter into canonical order, and
composes again as far as possible. The text is taken in runs, each a letter with all that attaches to it. A run of
more than thirty marks is cut by a joiner, which keeps the work on one letter bounded.
-/

namespace Arvore.Text

/-! ### Decomposition -/

/-- Looks a number up in a list with ascending keys. -/
def lookupAscending {α : Type} (n : Nat) : List (Nat × α) → Option α
  | [] => none
  | (key, value) :: rest => if n < key then none else if n = key then some value else lookupAscending n rest

/-- The full canonical decomposition of a character. -/
def decompose (c : Char) : List Char :=
  let n := c.toNat
  if Hangul.isSyllable n then (Hangul.decompose n).map Char.ofNat
  else match lookupAscending n decompositions, lookupAscending n ideographs with
    | some sequence, _ => sequence.map Char.ofNat
    | none, some form => [Char.ofNat form]
    | none, none => [c]

/-! ### Attaching characters -/

/-- Whether `n` is the second character of a triple. -/
private def isSecond (n : Nat) : List (Nat × Nat × Nat) → Bool
  | [] => false
  | (second, _) :: rest => if n < second then false else n = second || isSecond n rest

/-- Whether a character is the second part of a composite. -/
def composesBackward (c : Char) : Bool := isSecond c.toNat compositions

/-- Whether a character attaches to the one before it: marks, and the few starters that compose backwards. -/
def attaches (c : Char) : Bool := combiningClass c != 0 || Hangul.isJoining c.toNat || composesBackward c

/-- The numbers that the ranges give to `n`. -/
private def findCounts (n : Nat) : List (Nat × Nat × Nat × Nat) → Option (Nat × Nat)
  | [] => none
  | (lo, hi, counts) :: rest => if n < lo then none else if n ≤ hi then some counts else findCounts n rest

/-- How many attaching characters the text begins and ends with that a character stands for. -/
def attachingEnds (c : Char) : Nat × Nat :=
  match findCounts c.toNat compatibilityMarks with
  | some counts => counts
  | none =>
    let parts := decompose c
    ((parts.takeWhile attaches).length, (parts.reverse.takeWhile attaches).length)

/-! ### Runs -/

/-- A character of the decomposed text, and whether a run starts with it. -/
structure Piece where
  char : Char
  opens : Bool

/-- The pieces of a character. A starter within a decomposition starts a run of its own. -/
def pieces (opens : Bool) (c : Char) : List Piece :=
  match decompose c with
  | [] => []
  | first :: rest => ⟨first, opens⟩ :: rest.map fun d => ⟨d, !attaches d⟩

/-- The most attaching characters that a run may hold. -/
def runLimit : Nat := 30

/-- Decomposes a text and cuts it into runs. A run starts with every character that does not attach. The grapheme
joiner U+034F ends a run that the next character would make too long; `count` is the number of attaching characters
in the run so far. -/
def cut (count : Nat) : List Char → List Piece
  | [] => []
  | c :: rest =>
    let (leading, trailing) := attachingEnds c
    if leading = 0 then pieces true c ++ cut trailing rest
    else if runLimit < count + leading then ⟨'\u034f', false⟩ :: pieces true c ++ cut leading rest
    else pieces false c ++ cut (count + leading) rest

/-- The runs of a text. -/
def runs (text : List Char) : List (List Char) :=
  ((cut 0 text).splitBy fun _ next => !next.opens).map fun run => run.map (·.char)

/-! ### Canonical order -/

/-- Puts a character in front of an ordered text, behind the marks of a smaller class if it is a mark. -/
def insertMark (c : Char) : List Char → List Char
  | [] => [c]
  | d :: rest =>
    if combiningClass d != 0 && combiningClass d < combiningClass c then d :: insertMark c rest
    else c :: d :: rest

/-- Sorts marks between starters by combining class, keeping the order within a class. -/
def orderMarks (run : List Char) : List Char := run.foldr insertMark []

/-! ### Composition -/

/-- The one character that `a` followed by `b` is written as, if there is one. A pair is told by the low sixteen bits
of its characters. -/
def composePair (a b : Char) : Option Char :=
  let found := compositions.find? fun (second, base, _) =>
    second % 65536 = b.toNat % 65536 && base % 65536 = a.toNat % 65536
  found.map fun (_, _, composite) => Char.ofNat composite

/-- Composes letters to syllables: each character with the one directly before it. `done` holds the text so far, the
last character first. -/
def composeSyllables (done : List Char) : List Char → List Char
  | [] => done.reverse
  | c :: rest =>
    match done with
    | [] => composeSyllables [c] rest
    | last :: before =>
      match Hangul.compose last.toNat c.toNat with
      | some n => composeSyllables (Char.ofNat n :: before) rest
      | none => composeSyllables (c :: last :: before) rest

/-- Composes a run. The characters up to a base are `done`; `kept` holds those after the base that did not compose
with it; both have the last character first. A character composes with the base unless a kept mark of the same or a
higher class stands between them. A kept starter becomes the base when a character follows that composes backwards.
From the first letter of Hangul on, only syllables are composed. -/
def composeAfter (done : List Char) (base : Char) (kept : List Char) : List Char → List Char
  | [] => (kept ++ base :: done).reverse
  | c :: rest =>
    if Hangul.isLetter c.toNat then composeSyllables (kept ++ base :: done) (c :: rest)
    else if !composesBackward c then composeAfter done base (c :: kept) rest
    else match kept with
      | [] =>
        match composePair base c with
        | some composite => composeAfter done composite [] rest
        | none => composeAfter done base [c] rest
      | last :: before =>
        if combiningClass last = 0 then
          match composePair last c with
          | some composite => composeAfter (before ++ base :: done) composite [] rest
          | none => composeAfter (before ++ base :: done) last [c] rest
        else
          match if combiningClass last < combiningClass c then composePair base c else none with
          | some composite => composeAfter done composite kept rest
          | none => composeAfter done base (c :: kept) rest

/-- Composes a decomposed and ordered run. -/
def composeRun : List Char → List Char
  | [] => []
  | c :: rest => composeAfter [] c [] rest

/-- The composed normal form of a text. -/
def nfc (text : String) : String :=
  String.ofList ((runs text.toList).flatMap fun run => composeRun (orderMarks run))

end Arvore.Text
