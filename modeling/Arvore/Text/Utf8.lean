/-!
# Reading and writing UTF-8

Bytes become characters. A byte that starts no valid sequence becomes the replacement character on its own, and
reading goes on with the next byte, so that every sequence of bytes is some text.
-/

namespace Arvore.Text.Utf8

/-- Stands for a byte that belongs to no character. -/
def replacement : Char := '\ufffd'

/-- Bytes that may follow the first of a sequence. -/
def isTail (b : UInt8) : Bool := 0x80 ≤ b && b ≤ 0xBF

/-- The character with the given bits, six for each byte after the first. -/
private def assemble (first : Nat) (tail : List UInt8) : Char :=
  Char.ofNat (tail.foldl (fun n b => n * 64 + (b.toNat - 0x80)) first)

/-- The first character of the text that starts with the byte `a`, and how many of the bytes in `rest` belong to
it. Longer forms than needed, surrogates and code points above U+10FFFF are no characters. -/
def first (a : UInt8) (rest : List UInt8) : Char × Nat :=
  if a < 0x80 then (Char.ofNat a.toNat, 0)
  else if 0xC2 ≤ a && a ≤ 0xDF then
    match rest with
    | b :: _ => if isTail b then (assemble (a.toNat - 0xC0) [b], 1) else (replacement, 0)
    | _ => (replacement, 0)
  else if 0xE0 ≤ a && a ≤ 0xEF then
    match rest with
    | b :: c :: _ =>
      let low := if a = 0xE0 then 0xA0 else 0x80
      let high := if a = 0xED then 0x9F else 0xBF
      if low ≤ b && b ≤ high && isTail c then (assemble (a.toNat - 0xE0) [b, c], 2) else (replacement, 0)
    | _ => (replacement, 0)
  else if 0xF0 ≤ a && a ≤ 0xF4 then
    match rest with
    | b :: c :: d :: _ =>
      let low := if a = 0xF0 then 0x90 else 0x80
      let high := if a = 0xF4 then 0x8F else 0xBF
      if low ≤ b && b ≤ high && isTail c && isTail d then (assemble (a.toNat - 0xF0) [b, c, d], 3)
      else (replacement, 0)
    | _ => (replacement, 0)
  else (replacement, 0)

/-- The text that the bytes stand for. -/
def decode : List UInt8 → List Char
  | [] => []
  | a :: rest => (first a rest).1 :: decode (rest.drop (first a rest).2)
termination_by bytes => bytes.length
decreasing_by simp only [List.length_drop, List.length_cons]; omega

/-- The bytes that stand for a text. -/
def encode (text : String) : List UInt8 := text.toUTF8.data.toList

end Arvore.Text.Utf8
