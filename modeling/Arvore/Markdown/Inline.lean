import Arvore.Text.Blank
import Arvore.Text.Punctuation

/-!
# The words of a heading

A heading may hold emphasis (`*a*`, `**a**`, `_a_`) and code spans. Its plain text is what remains when the marks of
both are taken away. Marks that have no partner are text, and so is a backslash together with the character that it
protects. A heading of several lines reads as if nothing stood between the lines, but for the line ends within code.
-/

namespace Arvore.Markdown

/-- The blanks that separate marks from words: space, tab and the characters of a line end. A form feed or a vertical
tab belongs to the words. -/
def isSpace (c : Char) : Bool := c = ' ' || c = '\t' || c = '\n' || c = '\r'

/-- The text without the spaces at its end. -/
def trimEnd (text : List Char) : List Char := (text.reverse.dropWhile isSpace).reverse

/-- The text without the spaces at both ends. -/
def trim (text : List Char) : List Char := trimEnd (text.dropWhile isSpace)

/-! ### Code spans -/

/-- The mark of code. -/
def tick : Char := '\x60'

/-- Splits a text at the first run of exactly `n` ticks, `k` ticks having been passed just before it. -/
def codeEnd (n : Nat) : Nat → List Char → Option (List Char × List Char)
  | k, [] => if k = n then some ([], []) else none
  | k, c :: rest =>
    if c = tick then codeEnd n (k + 1) rest
    else if k = n then some ([], c :: rest)
    else (codeEnd n 0 rest).map fun (body, after) => (List.replicate k tick ++ c :: body, after)

/-- What follows a code span is no longer than the text in which its end was looked for. -/
theorem length_le_of_codeEnd {n k : Nat} {text body after : List Char}
    (h : codeEnd n k text = some (body, after)) : after.length ≤ text.length := by
  induction text generalizing k body with
  | nil => grind [codeEnd]
  | cons c rest ih =>
    rw [codeEnd] at h
    split at h
    · exact Nat.le_succ_of_le (ih h)
    · split at h
      · grind
      · obtain ⟨⟨inner, behind⟩, found, same⟩ := Option.map_eq_some_iff.1 h
        obtain ⟨-, rfl⟩ := Prod.mk.inj same
        exact Nat.le_succ_of_le (ih found)

/-- Spaces and line ends, one of which on each side does not belong to code. -/
def isPadding (c : Char) : Bool := c = ' ' || c = '\n'

/-- The code in a span: one blank on each side is dropped if there is one on both and other characters between. -/
def codeText (body : List Char) : List Char :=
  if body.all isSpace then body
  else if body.head?.any isPadding && body.getLast?.any isPadding then body.tail.dropLast
  else body

/-! ### Runs of emphasis marks -/

/-- Stars or underscores in a row. -/
structure Run where
  mark : Char
  /-- how many were written -/
  written : Nat
  /-- how many have found no partner -/
  length : Nat
  canOpen : Bool
  canClose : Bool
  deriving DecidableEq, Repr

/-- A run of marks between two characters. It opens at the left end of a word and closes at its right end;
underscores inside a word do neither. -/
def Run.between (mark : Char) (length : Nat) (before after : Char) : Run :=
  let left := !Text.isBlank after &&
    (!Text.isPunctuation after || Text.isBlank before || Text.isPunctuation before)
  let right := !Text.isBlank before &&
    (!Text.isPunctuation before || Text.isBlank after || Text.isPunctuation after)
  if mark = '_' then
    ⟨mark, length, length, left && (!right || Text.isPunctuation before),
      right && (!left || Text.isPunctuation after)⟩
  else ⟨mark, length, length, left, right⟩

/-- The marks that stay text. -/
def Run.text (r : Run) : List Char := List.replicate r.length r.mark

/-- How many marks of an opening and a closing run pair up at once: two if both have as many, and none if one of the
runs could do both and the lengths add up to a multiple of three, unless both are such a multiple. -/
def Run.pairing (opener closer : Run) : Nat :=
  if (opener.canClose || closer.canOpen) && (opener.written + closer.written) % 3 = 0 && closer.written % 3 ≠ 0 then 0
  else if 2 ≤ opener.length && 2 ≤ closer.length then 2
  else 1

/-- A part of a heading: text, or marks that may yet find a partner. -/
inductive Piece where
  | text (chars : List Char)
  | run (run : Run)
  deriving DecidableEq, Repr

/-- What a piece reads as if nothing more is paired. -/
def Piece.chars : Piece → List Char
  | text chars => chars
  | run r => r.text

/-! ### Line ends -/

/-- Splits off the end of a line if there are only spaces before it: whether a backslash before them still protects
what comes next, and the lines after it. Of the spaces only two that break the line leave the protection. -/
def lineEnd? (text : List Char) : Option (Bool × List Char) :=
  let inner (c : Char) : Bool := isSpace c && c ≠ '\n'
  let spaces := text.takeWhile inner
  match text.dropWhile inner with
  | '\n' :: after => some (spaces = [] || spaces = [' ', ' '] || spaces = [' ', ' ', '\r'], after)
  | _ => none

/-- The lines after a line end with a backslash directly before it. -/
def brokenLine? : List Char → Option (List Char)
  | '\\' :: '\n' :: after => some after
  | '\\' :: '\r' :: '\n' :: after => some after
  | _ => none

/-- The lines after a line end are shorter. -/
theorem length_lt_of_lineEnd? {text after : List Char} {protects : Bool}
    (h : lineEnd? text = some (protects, after)) : after.length < text.length := by
  simp only [lineEnd?] at h
  split at h
  · rename_i rest heq
    obtain ⟨-, rfl⟩ := Prod.mk.inj (Option.some.inj h)
    have := (List.dropWhile_suffix (l := text) fun c => isSpace c && decide (c ≠ '\n')).length_le
    rw [heq] at this
    exact this
  · exact absurd h (by simp)

/-- The lines after a broken line are shorter. -/
theorem length_lt_of_brokenLine? {text after : List Char} (h : brokenLine? text = some after) :
    after.length < text.length := by
  unfold brokenLine? at h
  split at h
  · obtain rfl := Option.some.inj h
    exact Nat.lt_succ_of_lt (Nat.lt_succ_self _)
  · obtain rfl := Option.some.inj h
    exact Nat.lt_succ_of_lt (Nat.lt_succ_of_lt (Nat.lt_succ_self _))
  · exact absurd h (by simp)

/-! ### The parts of a heading -/

/-- The parts of a heading that follow the character `before`. A character that is `escaped` is text, except at a
`fresh` start: where a line begins, or directly behind a mark. An opening bracket is such a mark, but always stays
text. Spaces at the end of a line are dropped. So is a backslash there, unless another one stands before it, but
spaces before the backslash stay. -/
def pieces (before : Char) (escaped fresh : Bool) (text : List Char) : List Piece :=
  match _end : lineEnd? text with
  | some (protects, after) => pieces '\n' (escaped && protects) true after
  | none =>
    match _broken : if fresh || before ≠ '\\' then brokenLine? text else none with
    | some after => pieces '\n' escaped true after
    | none =>
      match text with
      | [] => []
      | c :: rest =>
        if (fresh || !escaped) && c = tick then
          let count := (rest.takeWhile (· = tick)).length + 1
          let inner := rest.dropWhile (· = tick)
          match _code : codeEnd count 0 inner with
          | some (body, after) => .text (codeText body) :: pieces tick escaped true after
          | none => .text (List.replicate count tick) :: pieces tick escaped true inner
        else if (fresh || !escaped) && (c = '*' || c = '_') then
          let count := (rest.takeWhile (· = c)).length + 1
          let after := rest.dropWhile (· = c)
          .run (.between c count before (after.head?.getD ' ')) :: pieces c escaped true after
        else if (fresh || !escaped) && (c = '[' || c = '!' && rest.head? = some '[') then
          .text [c] :: pieces c escaped true rest
        else .text [c] :: pieces c (!escaped && c = '\\') false rest
termination_by text.length
decreasing_by
  · exact length_lt_of_lineEnd? _end
  · split at _broken
    · exact length_lt_of_brokenLine? _broken
    · exact absurd _broken (by simp)
  · exact Nat.lt_succ_of_le (Nat.le_trans (length_le_of_codeEnd _code) (List.dropWhile_suffix _).length_le)
  · exact Nat.lt_succ_of_le (List.dropWhile_suffix _).length_le
  · exact Nat.lt_succ_of_le (List.dropWhile_suffix _).length_le
  · exact Nat.lt_succ_self _
  · exact Nat.lt_succ_self _

/-! ### Pairing -/

/-- The nearest partner for a closing run among the pieces before it, the last of which comes first: the pieces that
stand behind the partner, whose marks can no longer be paired, the partner, and the pieces before it. -/
def opener? (closer : Run) : List Piece → Option (List Piece × Run × List Piece)
  | [] => none
  | .text chars :: rest =>
    (opener? closer rest).map fun (behind, found, others) => (.text chars :: behind, found, others)
  | .run r :: rest =>
    if r.canOpen && r.mark = closer.mark && r.pairing closer ≠ 0 then some ([], r, rest)
    else (opener? closer rest).map fun (behind, found, others) => (.text r.text :: behind, found, others)

/-- Pairs the marks of a run with those before it for as long as there is a partner. -/
def close (closer : Run) (before : List Piece) : List Piece :=
  if closer.length = 0 then before
  else
    match opener? closer before with
    | none => .run closer :: before
    | some (behind, found, others) =>
      let left := found.length - found.pairing closer
      let others := if left = 0 then others else .run { found with length := left } :: others
      close { closer with length := closer.length - max 1 (found.pairing closer) } (behind ++ others)
termination_by closer.length
decreasing_by
  have : 1 ≤ max 1 (found.pairing closer) := Nat.le_max_left _ _
  exact Nat.sub_lt (Nat.pos_of_ne_zero ‹_›) this

/-- Adds a piece to those before it. -/
def attach (before : List Piece) : Piece → List Piece
  | .run r => if r.canClose then close r before else .run r :: before
  | piece => piece :: before

/-- The plain text of a heading. -/
def plainText (text : List Char) : List Char :=
  ((pieces '\n' false true (trimEnd text)).foldl attach []).reverse.flatMap Piece.chars

end Arvore.Markdown
