import Arvore.Datum.Basic
import Arvore.Datum.Token

/-!
# Reading data

The reader takes one token after the other and keeps a stack of the structures that are open. A structure that is
closed becomes an item of the one around it; a map behind a caret becomes metadata of the list around it. When the
outermost datum is complete, no token may follow.
-/

namespace Arvore.Datum

/-- What the reader wanted where it found something else. -/
inductive Expectation where
  /-- a datum -/
  | datum
  /-- the map behind a caret -/
  | metadataMap
  | listEnd
  | arrayEnd
  | mapEnd
  /-- the key of a map entry -/
  | key
  /-- the colon behind a key -/
  | colon
  /-- what follows a map value -/
  | entryEnd
  /-- the end of the text -/
  | endOfText
  deriving DecidableEq, Repr

/-- The wording of an unmet expectation, before the name of what was found. -/
def Expectation.text : Expectation → String
  | datum => "unexpected token: "
  | metadataMap => "expected '\x7b' after '^' but got "
  | listEnd => "expected ')' but got "
  | arrayEnd => "expected ']' but got "
  | mapEnd => "expected '\x7d' but got "
  | key => "expected symbol for map key but got "
  | colon => "expected ':' after map key but got "
  | entryEnd => "expected ',' or '\x7d' in map but got "
  | endOfText => "expected EOF but got "

/-- Why a text is no datum, with the line to look at. -/
inductive SyntaxError where
  | lexical (line : Nat) (error : Token.Error)
  | grammar (line : Nat) (expected : Expectation) (found : Option Token)
  deriving DecidableEq, Repr

/-- The message of a syntax error. -/
def SyntaxError.message : SyntaxError → String
  | lexical line error => "line " ++ toString line ++ ": " ++ error.text
  | grammar line expected found =>
    "line " ++ toString line ++ ": " ++ expected.text ++ (found.map Token.describe).getD "EOF"

/-- A structure that has been opened and not closed. What it holds so far is kept with the last part first. -/
inductive Frame where
  /-- a list between two items -/
  | list (line : Nat) (metadata : List (String × Datum)) (items : List Datum)
  /-- a list behind a caret -/
  | caret (line : Nat) (metadata : List (String × Datum)) (items : List Datum)
  /-- an array between two items -/
  | array (line : Nat) (items : List Datum)
  /-- a map before a key -/
  | key (line : Nat) (entries : List (String × Datum))
  /-- a map behind a key -/
  | colon (line : Nat) (entries : List (String × Datum)) (key : String)
  /-- a map behind the colon of a key -/
  | value (line : Nat) (entries : List (String × Datum)) (key : String)
  /-- a map behind a value -/
  | comma (line : Nat) (entries : List (String × Datum))

/-- How far the reader has come: within open structures, the innermost first, or behind the outermost datum. -/
inductive State where
  | reading (stack : List Frame)
  | done (datum : Datum)

/-- Gives a complete datum to the structure around it. -/
def complete (d : Datum) : List Frame → State
  | [] => .done d
  | .list line metadata items :: rest => .reading (.list line metadata (d :: items) :: rest)
  | .caret line metadata items :: rest =>
    match d with
    | .map _ entries => .reading (.list line (mergeEntries metadata entries) items :: rest)
    | _ => .reading (.list line metadata (d :: items) :: rest)
  | .array line items :: rest => .reading (.array line (d :: items) :: rest)
  | .value line entries key :: rest => .reading (.comma line ((key, d) :: entries) :: rest)
  | frame :: rest => .reading (frame :: rest)

/-- Takes the first token of a datum inside the open structures `stack`. -/
def begin (line : Nat) (stack : List Frame) : Token → Except Expectation State
  | .symbol text => .ok (complete (.symbol line text) stack)
  | .string text => .ok (complete (.string line text) stack)
  | .number text => .ok (complete (.number line text) stack)
  | .leftParen => .ok (.reading (.list line [] [] :: stack))
  | .leftBracket => .ok (.reading (.array line [] :: stack))
  | .leftBrace => .ok (.reading (.key line [] :: stack))
  | _ => .error .datum

/-- Takes one token that stands on the given line. -/
def step (line : Nat) (token : Token) : State → Except Expectation State
  | .done _ => .error .endOfText
  | .reading [] => begin line [] token
  | .reading (.list start metadata items :: stack) =>
    match token with
    | .rightParen => .ok (complete (.list start metadata items.reverse) stack)
    | .caret => .ok (.reading (.caret start metadata items :: stack))
    | _ => begin line (.list start metadata items :: stack) token
  | .reading (.caret start metadata items :: stack) =>
    match token with
    | .leftBrace => .ok (.reading (.key line [] :: .caret start metadata items :: stack))
    | _ => .error .metadataMap
  | .reading (.array start items :: stack) =>
    match token with
    | .rightBracket => .ok (complete (.array start items.reverse) stack)
    | _ => begin line (.array start items :: stack) token
  | .reading (.key start entries :: stack) =>
    match token with
    | .symbol text => .ok (.reading (.colon start entries text :: stack))
    | .rightBrace => .ok (complete (.map start entries.reverse) stack)
    | _ => .error .key
  | .reading (.colon start entries key :: stack) =>
    match token with
    | .colon => .ok (.reading (.value start entries key :: stack))
    | _ => .error .colon
  | .reading (.value start entries key :: stack) => begin line (.value start entries key :: stack) token
  | .reading (.comma start entries :: stack) =>
    match token with
    | .comma => .ok (.reading (.key start entries :: stack))
    | .rightBrace => .ok (complete (.map start entries.reverse) stack)
    | _ => .error .entryEnd

/-- The datum that is complete at the end of the text, or what is still missing. -/
def finish : State → Except Expectation Datum
  | .done d => .ok d
  | .reading [] => .error .datum
  | .reading (.list .. :: _) => .error .listEnd
  | .reading (.caret .. :: _) => .error .metadataMap
  | .reading (.array .. :: _) => .error .arrayEnd
  | .reading (.key .. :: _) => .error .mapEnd
  | .reading (.colon .. :: _) => .error .colon
  | .reading (.value .. :: _) => .error .datum
  | .reading (.comma .. :: _) => .error .entryEnd

/-- Takes all tokens. A failure comes with the tokens from the one that could not be taken. -/
def run (state : State) : List Token.Placed → Except (Expectation × List Token.Placed) Datum
  | [] => (finish state).mapError fun expected => (expected, [])
  | t :: rest =>
    match step t.line t.token state with
    | .ok next => run next rest
    | .error expected => .error (expected, t :: rest)

/-- The lexical error of a text that the reader has met when `rest` is left to read. The reader looks one token
ahead, so it has met the error if at most one token stands before it. -/
def lexicalError (scan : Token.Scan) (rest : List Token.Placed) : Option SyntaxError :=
  match scan.error with
  | some error => if rest.length ≤ 1 then some (.lexical scan.line error) else none
  | none => none

/-- Reads a datum from scanned tokens. A lexical error goes before the misreading that it may have caused. -/
def ofScan (scan : Token.Scan) : Except SyntaxError Datum :=
  match run (.reading []) scan.tokens with
  | .ok d =>
    match lexicalError scan [] with
    | some error => .error error
    | none => .ok d
  | .error (expected, rest) =>
    match lexicalError scan rest with
    | some error => .error error
    | none =>
      match rest with
      | [] => .error (.grammar scan.line expected none)
      | t :: _ => .error (.grammar t.line expected (some t.token))

/-- Reads the one datum that a text holds. -/
def parse (text : List Char) : Except SyntaxError Datum := ofScan (Token.scan 1 text)

end Arvore.Datum
