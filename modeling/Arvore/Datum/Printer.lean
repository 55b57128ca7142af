import Arvore.Datum.Basic

/-!
# Writing data

The text of a datum on one line. In a string only the backslash and the quote are escaped; every other character
stands for itself, line ends included.
-/

namespace Arvore.Datum

/-- A backslash goes before a backslash and before a quote. -/
def escapeChar (c : Char) : List Char := if c = '\\' || c = '"' then ['\\', c] else [c]

/-- The text between quotes. -/
def stringText (text : List Char) : List Char := '"' :: text.flatMap escapeChar ++ ['"']

/-- The bytes of a quoted sequence of bytes. Only ASCII is ever escaped, so bytes are escaped one by one. -/
def stringBytes (bytes : List UInt8) : List UInt8 := (stringText (bytes.map Char.ofUInt8)).map Char.toUInt8

/-- The texts one after the other, with a separator between neighbours. -/
def separated (separator : List Char) : List (List Char) → List Char
  | [] => []
  | [text] => text
  | text :: rest => text ++ separator ++ separated separator rest

mutual

/-- The characters of a datum's text. -/
def chars : Datum → List Char
  | symbol _ text | number _ text => text.toList
  | string _ text => stringText text.toList
  | list _ metadata items =>
    let start := if metadata.isEmpty then [] else [['^', '{'] ++ separated [',', ' '] (entryChars metadata) ++ ['}']]
    '(' :: separated [' '] (start ++ itemChars items) ++ [')']
  | array _ items => '[' :: separated [' '] (itemChars items) ++ [']']
  | map _ entries => '{' :: separated [',', ' '] (entryChars entries) ++ ['}']

/-- The texts of several data. -/
def itemChars : List Datum → List (List Char)
  | [] => []
  | d :: rest => chars d :: itemChars rest

/-- The texts of entries, each a key, a colon and a value. -/
def entryChars : List (String × Datum) → List (List Char)
  | [] => []
  | (key, d) :: rest => (key.toList ++ [':', ' '] ++ chars d) :: entryChars rest

end

/-- The text of a datum. -/
def render (d : Datum) : String := String.ofList d.chars

end Arvore.Datum
