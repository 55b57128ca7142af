/-!
# Quoted strings in assembly

A string directive takes a text in double quotes. Quotes, backslashes, line ends and tabs have escapes of their own,
other control characters are written as a backslash and three octal digits, and all else stands for itself.
-/

namespace Arvore.Assembly

/-- Three octal digits, for numbers below 512. -/
def octalDigits (n : Nat) : List Char := [n / 64 % 8, n / 8 % 8, n % 8].map fun d => Char.ofNat ('0'.toNat + d)

/-- How a character is written inside the quotes. -/
def quotedChar (c : Char) : List Char :=
  if c = '\\' then ['\\', '\\']
  else if c = '"' then ['\\', '"']
  else if c = '\n' then ['\\', 'n']
  else if c = '\t' then ['\\', 't']
  else if c.toNat < 0x20 || c.toNat = 0x7F then '\\' :: octalDigits c.toNat
  else [c]

/-- The text in quotes. -/
def quoteChars (text : List Char) : List Char := '"' :: text.flatMap quotedChar ++ ['"']

/-- The text of a string directive. -/
def quote (text : String) : String := String.ofList (quoteChars text.toList)

/-- The bytes of a quoted sequence of bytes. Only ASCII is ever escaped, so bytes are quoted one by one. -/
def quoteBytes (bytes : List UInt8) : List UInt8 := (quoteChars (bytes.map Char.ofUInt8)).map Char.toUInt8

end Arvore.Assembly
