import Arvore.Text.Blank
import Arvore.Text.DecimalDigit
import Arvore.Text.Letter
import Arvore.Text.NonspacingMark

/-!
# Tokens

A text is cut into tokens, each with the line of its first character. Blanks and comments, which run from a
semicolon to the end of the line, separate tokens. The character NUL ends the text wherever it stands. A lexical
error ends the tokens too: nothing behind it is ever read.
-/

namespace Arvore

/-- The words and marks that data are made of. -/
inductive Token where
  | symbol (text : String)
  | string (text : String)
  | number (text : String)
  | leftParen
  | rightParen
  | leftBrace
  | rightBrace
  | leftBracket
  | rightBracket
  | colon
  | comma
  | caret
  deriving DecidableEq, Repr

namespace Token

/-- How diagnostics name a token. -/
def describe : Token → String
  | symbol _ => "symbol"
  | string _ => "string"
  | number _ => "number"
  | leftParen => "'('"
  | rightParen => "')'"
  | leftBrace => "'\x7b'"
  | rightBrace => "'\x7d'"
  | leftBracket => "'['"
  | rightBracket => "']'"
  | colon => "':'"
  | comma => "','"
  | caret => "'^'"

/-- The character that ends a text. -/
def nul : Char := '\x00'

/-- Characters that a symbol starts with. -/
def isSymbolStart (c : Char) : Bool := Text.isLetter c || c = '_' || Text.isNonspacingMark c

/-- Characters that a symbol goes on with. -/
def isSymbolChar (c : Char) : Bool := isSymbolStart c || Text.isDecimalDigit c || c = '-'

/-- A plus or a minus. -/
def isSign (c : Char) : Bool := c = '+' || c = '-'

/-- The marks that are tokens by themselves. -/
def punctuation? : Char → Option Token
  | '(' => some leftParen
  | ')' => some rightParen
  | '{' => some leftBrace
  | '}' => some rightBrace
  | '[' => some leftBracket
  | ']' => some rightBracket
  | ':' => some colon
  | ',' => some comma
  | '^' => some caret
  | _ => none

/-- What can be wrong with the characters of a text. -/
inductive Error where
  | unexpectedCharacter (c : Char)
  | invalidEscape (c : Char)
  | unterminatedString
  deriving DecidableEq, Repr

/-- The wording of a lexical error. -/
def Error.text : Error → String
  | unexpectedCharacter c => "unexpected character '" ++ c.toString ++ "'"
  | invalidEscape c => "invalid escape sequence: \\" ++ c.toString
  | unterminatedString => "unterminated string"

/-- The character that a backslash followed by `c` stands for. -/
def unescape? : Char → Option Char
  | '"' => some '"'
  | '\\' => some '\\'
  | 'n' => some '\n'
  | 't' => some '\t'
  | _ => none

/-- A line end counts one, every other character nothing. -/
def lineEnd (c : Char) : Nat := if c = '\n' then 1 else 0

/-- The outcome of reading a string behind its opening quote: its text and what follows the closing quote, or an
error; in both cases with the number of line ends passed on the way. -/
inductive StringBody where
  | closed (text : List Char) (lineEnds : Nat) (rest : List Char)
  | failed (error : Error) (lineEnds : Nat)

/-- Puts a character, which stood behind so many line ends, in front of a string. -/
def StringBody.cons (c : Char) (ends : Nat) : StringBody → StringBody
  | closed text lineEnds rest => closed (c :: text) (ends + lineEnds) rest
  | failed error lineEnds => failed error (ends + lineEnds)

/-- Reads a string behind its opening quote. -/
def stringBody : List Char → StringBody
  | [] => .failed .unterminatedString 0
  | c :: rest =>
    if c = '"' then .closed [] 0 rest
    else if c = nul then .failed .unterminatedString 0
    else if c = '\\' then
      match rest with
      | [] => .failed (.invalidEscape nul) 0
      | e :: rest =>
        match unescape? e with
        | some c => (stringBody rest).cons c 0
        | none => .failed (.invalidEscape e) 0
    else (stringBody rest).cons c (lineEnd c)

/-- The part of a number behind its whole digits that a point starts. -/
def fraction : List Char → List Char × List Char
  | '.' :: d :: rest =>
    if Text.isDecimalDigit d then
      ('.' :: d :: rest.takeWhile Text.isDecimalDigit, rest.dropWhile Text.isDecimalDigit)
    else ([], '.' :: d :: rest)
  | text => ([], text)

/-- A sign, if one stands here. -/
def sign : List Char → List Char × List Char
  | c :: rest => if isSign c then ([c], rest) else ([], c :: rest)
  | [] => ([], [])

/-- The exponent of a number: its letter, a sign if there is one, and all digits that follow, perhaps none. -/
def exponent : List Char → List Char × List Char
  | c :: rest =>
    if c = 'e' || c = 'E' then
      let (mark, rest) := sign rest
      (c :: mark ++ rest.takeWhile Text.isDecimalDigit, rest.dropWhile Text.isDecimalDigit)
    else ([], c :: rest)
  | [] => ([], [])

/-- A number whose first character, a digit or a sign, is given, and what follows it. -/
def numberText (c : Char) (rest : List Char) : List Char × List Char :=
  let whole := rest.takeWhile Text.isDecimalDigit
  let (part, rest) := fraction (rest.dropWhile Text.isDecimalDigit)
  let (power, rest) := exponent rest
  (c :: whole ++ part ++ power, rest)

/-- Whether a number starts with the character `c` before `rest`. -/
def startsNumber (c : Char) (rest : List Char) : Bool :=
  Text.isDecimalDigit c || isSign c && (rest.head?.map Text.isDecimalDigit).getD false

/-- The outcome of reading one token: the token, the line ends inside it and what follows, or an error behind so
many line ends. -/
inductive Next where
  | token (token : Token) (lineEnds : Nat) (rest : List Char)
  | failed (error : Error) (lineEnds : Nat)

/-- Reads the token that starts with the character `c`, which is no blank, before `rest`. -/
def next (c : Char) (rest : List Char) : Next :=
  match punctuation? c with
  | some mark => .token mark 0 rest
  | none =>
    if c = '"' then
      match stringBody rest with
      | .closed text lineEnds rest => .token (string (String.ofList text)) lineEnds rest
      | .failed error lineEnds => .failed error lineEnds
    else if startsNumber c rest then
      let (text, rest) := numberText c rest
      .token (number (String.ofList text)) 0 rest
    else if isSymbolStart c then
      .token (symbol (String.ofList (c :: rest.takeWhile isSymbolChar))) 0 (rest.dropWhile isSymbolChar)
    else .failed (.unexpectedCharacter c) 0

/-! ### Reading a token shortens the text -/

private theorem length_dropWhile_le {α : Type} (p : α → Bool) (l : List α) :
    (l.dropWhile p).length ≤ l.length :=
  (List.dropWhile_suffix p).length_le

private theorem stringBody_length {text : List Char} : ∀ {value : List Char} {ends : Nat} {rest : List Char},
    stringBody text = .closed value ends rest → rest.length < text.length := by
  fun_induction stringBody text with
  | case1 => intro _ _ _ h; cases h
  | case2 => intro _ _ _ h; cases h; simp
  | case3 => intro _ _ _ h; cases h
  | case4 => intro _ _ _ h; cases h
  | case5 e rest c _ _ _ ih =>
    intro value ends rest' h
    cases hb : stringBody rest with
    | closed => rw [hb] at h; cases h; have := ih hb; simp; omega
    | failed => rw [hb] at h; cases h
  | case6 => intro _ _ _ h; cases h
  | case7 c rest _ _ _ ih =>
    intro value ends rest' h
    cases hb : stringBody rest with
    | closed => rw [hb] at h; cases h; have := ih hb; simp; omega
    | failed => rw [hb] at h; cases h

private theorem fraction_length (text : List Char) : (fraction text).2.length ≤ text.length := by
  unfold fraction
  split
  · split
    · rename_i d rest _
      have := length_dropWhile_le Text.isDecimalDigit rest
      simp; omega
    · simp
  · simp

private theorem sign_length (text : List Char) : (sign text).2.length ≤ text.length := by
  unfold sign
  split
  · split <;> simp
  · simp

private theorem exponent_length (text : List Char) : (exponent text).2.length ≤ text.length := by
  unfold exponent
  split
  · rename_i c rest
    split
    · have := length_dropWhile_le Text.isDecimalDigit (sign rest).2
      have := sign_length rest
      simp; omega
    · simp
  · simp

private theorem numberText_length (c : Char) (rest : List Char) : (numberText c rest).2.length ≤ rest.length := by
  have h1 := length_dropWhile_le Text.isDecimalDigit rest
  have h2 := fraction_length (rest.dropWhile Text.isDecimalDigit)
  have h3 := exponent_length (fraction (rest.dropWhile Text.isDecimalDigit)).2
  simp only [numberText]
  omega

/-- What follows a token is shorter than the text that the token starts. -/
theorem next_length {c : Char} {text rest : List Char} {t : Token} {ends : Nat}
    (h : next c text = .token t ends rest) : rest.length ≤ text.length := by
  unfold next at h
  split at h
  · cases h; exact Nat.le_refl _
  · split at h
    · split at h
      · rename_i hb; cases h; exact Nat.le_of_lt (stringBody_length hb)
      · cases h
    · split at h
      · cases h; exact numberText_length c text
      · split at h
        · cases h; exact length_dropWhile_le _ _
        · cases h

/-! ### All tokens of a text -/

/-- A token with the line of its first character. -/
structure Placed where
  line : Nat
  token : Token
  deriving DecidableEq, Repr

/-- The tokens of a text, the line on which they end, and the error that ended them, if it was not the end of the
text. -/
structure Scan where
  tokens : List Placed
  line : Nat
  error : Option Error
  deriving DecidableEq, Repr

/-- Whether a comment goes on with this character. -/
def inComment (c : Char) : Bool := c != '\n' && c != nul

/-- Cuts a text that starts on the given line into tokens. -/
def scan (line : Nat) : List Char → Scan
  | [] => ⟨[], line, none⟩
  | c :: rest =>
    if c = nul then ⟨[], line, none⟩
    else if Text.isBlank c then scan (line + lineEnd c) rest
    else if c = ';' then scan line (rest.dropWhile inComment)
    else
      match _h : next c rest with
      | .token t ends rest' =>
        let after := scan (line + ends) rest'
        { after with tokens := ⟨line, t⟩ :: after.tokens }
      | .failed error ends => ⟨[], line + ends, some error⟩
termination_by text => text.length
decreasing_by
  · simp
  · have := length_dropWhile_le inComment rest
    simp; omega
  · have := next_length _h
    simp; omega

end Token

end Arvore
