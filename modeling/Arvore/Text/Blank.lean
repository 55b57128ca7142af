import Arvore.Text.Ranges

/-!
# Blanks

The characters that separate words: the ASCII controls from tab to carriage return, and the spaces and line
separators of Unicode.
-/

namespace Arvore.Text

/-- The code points of all blanks. -/
def blankRanges : Ranges := [
  (0x9, 0xD), (0x20, 0x20), (0x85, 0x85), (0xA0, 0xA0), (0x1680, 0x1680), (0x2000, 0x200A), (0x2028, 0x2029),
  (0x202F, 0x202F), (0x205F, 0x205F), (0x3000, 0x3000)
]

/-- Spaces, tabs and line ends. -/
def isBlank (c : Char) : Bool := blankRanges.contains c.toNat

end Arvore.Text
