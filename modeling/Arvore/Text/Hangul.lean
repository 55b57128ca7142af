/-!
# Hangul syllables

A syllable of Hangul is two or three letters: a first consonant, a vowel and perhaps a final consonant. Syllables and
letters stand in such an order that a syllable is computed from its letters.
-/

namespace Arvore.Text.Hangul

/-- Splits a syllable into its two or three letters. -/
def decompose (n : Nat) : List Nat :=
  let i := n - 0xAC00
  let start := [0x1100 + i / 588, 0x1161 + i % 588 / 28]
  if i % 28 = 0 then start else start ++ [0x11A7 + i % 28]

/-- Whether `n` is a syllable. -/
def isSyllable (n : Nat) : Bool := 0xAC00 ≤ n && n ≤ 0xD7A3

/-- Whether `n` stands in the block of the letters. -/
def isLetter (n : Nat) : Bool := 0x1100 ≤ n && n ≤ 0x11FF

/-- Whether `n` is a vowel or a final consonant: a letter that joins the letters before it. -/
def isJoining (n : Nat) : Bool := 0x1161 ≤ n && n ≤ 0x1175 || 0x11A8 ≤ n && n ≤ 0x11C2

/-- The syllable that a first consonant makes with a vowel, or an open syllable with a final consonant. -/
def compose (a b : Nat) : Option Nat :=
  if 0x1100 ≤ a && a ≤ 0x1112 && (0x1161 ≤ b && b ≤ 0x1175) then
    some (0xAC00 + (a - 0x1100) * 588 + (b - 0x1161) * 28)
  else if isSyllable a && (a - 0xAC00) % 28 = 0 && (0x11A8 ≤ b && b ≤ 0x11C2) then some (a + (b - 0x11A7))
  else none

end Arvore.Text.Hangul
