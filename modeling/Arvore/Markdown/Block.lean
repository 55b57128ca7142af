import Arvore.Markdown.Inline

/-!
# Headings and fences of a document

Of a Markdown document only two kinds of blocks matter: headings, with their plain text, and fenced blocks, with
their language and their lines. The reader goes through the lines and keeps the block that is open. Paragraphs,
indented code and thematic breaks are recognised because they decide what the other lines mean.
-/

namespace Arvore.Markdown

/-- A heading or a fenced block. -/
inductive Block where
  | heading (text : String)
  /-- a fenced block with the number of its first line, which is 1 for a block without lines -/
  | fence (language content : String) (line : Nat)
  deriving DecidableEq, Repr

/-- The lines of a text, each with its line end. -/
def lines : List Char → List (List Char)
  | [] => []
  | c :: rest =>
    if c = '\n' then [c] :: lines rest
    else
      match lines rest with
      | [] => [[c]]
      | first :: others => (c :: first) :: others

/-- Cuts off the indentation, whose width is measured from the column `column`: a tab goes to the next multiple of
four. -/
def indented (column : Nat) : List Char → Nat × List Char
  | [] => (column, [])
  | c :: rest =>
    if c = ' ' then indented (column + 1) rest
    else if c = '\t' then indented (column + (4 - column % 4)) rest
    else (column, c :: rest)

/-! ### Lines with a meaning of their own -/

/-- The text of a heading that starts with one to six number signs. A row of number signs at the end does not belong
to it if a space stands before them. -/
def heading? (line : List Char) : Option (List Char) :=
  let level := (line.takeWhile (· = '#')).length
  let rest := line.dropWhile (· = '#')
  if level = 0 || 6 < level then none
  else
    match rest with
    | [] => some []
    | c :: _ =>
      if isSpace c then
        let reversed := (trim rest).reverse
        let shorter := reversed.dropWhile (· = '#')
        if shorter.head?.all isSpace then some (trimEnd shorter.reverse) else some reversed.reverse
      else none

/-- Whether a line under a paragraph makes it a heading: equals signs or dashes only. -/
def isUnderline (line : List Char) : Bool :=
  let marks := trimEnd line
  !marks.isEmpty && (marks.all (· = '=') || marks.all (· = '-'))

/-- Whether a line is a thematic break: three or more stars, dashes or underscores, which may have spaces behind
them. -/
def isThematicBreak (line : List Char) : Bool :=
  let marks := line.filter (!isSpace ·)
  !line.head?.any isSpace && 3 ≤ marks.length &&
    (marks.all (· = '*') || marks.all (· = '-') || marks.all (· = '_'))

/-- What opened a fenced block. -/
structure Fence where
  mark : Char
  length : Nat
  indent : Nat
  language : List Char
  deriving DecidableEq, Repr

/-- The fence that a line opens: three or more ticks or tildes, then the language, which ends at the first space.
Ticks may not stand behind opening ticks. A single byte behind the marks, which is the line end wherever there is
one, is not read. -/
def fence? (indent : Nat) (line : List Char) : Option Fence :=
  match line with
  | [] => none
  | mark :: _ =>
    let length := (line.takeWhile (· = mark)).length
    let rest := line.dropWhile (· = mark)
    let info := if (String.ofList rest).utf8ByteSize ≤ 1 then [] else trim rest
    if (mark = tick || mark = '~') && 3 ≤ length && !(mark = tick && info.contains tick) then
      some ⟨mark, length, indent, info.takeWhile (· ≠ ' ')⟩
    else none

/-- Whether a line closes the block: marks of the same kind, at least as many, indented by at most three columns and
with nothing behind them. -/
def Fence.isClosedBy (f : Fence) (line : List Char) : Bool :=
  let (width, rest) := indented 0 line
  width < 4 && f.length ≤ (rest.takeWhile (· = f.mark)).length && (rest.dropWhile (· = f.mark)).all isSpace

/-- Takes columns of indentation off a line; what remains of a tab are spaces. A line with less indentation loses all
of it, unless there is nothing else on the line. -/
def Fence.contentLine (f : Fence) (line : List Char) : List Char :=
  go line 0 line
where
  /-- Walks through the indentation of `whole`. -/
  go (whole : List Char) (column : Nat) : List Char → List Char
    | [] => if f.indent ≤ column then List.replicate (column - f.indent) ' ' else whole
    | c :: rest =>
      if f.indent ≤ column then List.replicate (column - f.indent) ' ' ++ c :: rest
      else if c = ' ' then go whole (column + 1) rest
      else if c = '\t' then go whole (column + (4 - column % 4)) rest
      else if c = '\n' then whole
      else c :: rest

/-! ### The blocks of a document -/

/-- The block to which the next line may belong. The lines so far are kept with the last one first. -/
inductive OpenBlock where
  | nothing
  | paragraph (lines : List (List Char))
  | fence (fence : Fence) (firstLine : Nat) (lines : List (List Char))
  deriving DecidableEq, Repr

/-- The block that a heading line or an underlined paragraph makes. -/
def Block.ofHeading (text : List Char) : Block := .heading (String.ofList (plainText text))

/-- The block that a fence and its lines make. -/
def Block.ofFence (f : Fence) (firstLine : Nat) (reversed : List (List Char)) : Block :=
  .fence (String.ofList f.language) (String.ofList reversed.reverse.flatten)
    (if reversed.isEmpty then 1 else firstLine)

/-- A line outside of fences: the blocks that it completes, and the block that is open after it. -/
def OpenBlock.line (paragraph : List (List Char)) (number : Nat) (line : List Char) : List Block × OpenBlock :=
  let (indent, rest) := indented 0 line
  if line.all isSpace then ([], .nothing)
  else if 4 ≤ indent then
    if paragraph.isEmpty then ([], .nothing) else ([], .paragraph (rest.dropWhile isSpace :: paragraph))
  else if !paragraph.isEmpty && isUnderline rest then ([.ofHeading paragraph.reverse.flatten], .nothing)
  else if isThematicBreak rest then ([], .nothing)
  else
    match heading? rest with
    | some text => ([.ofHeading text], .nothing)
    | none =>
      match fence? indent rest with
      | some f => ([], .fence f (number + 1) [])
      | none => ([], .paragraph (rest.dropWhile isSpace :: paragraph))

/-- The effect of the line with the given number. -/
def OpenBlock.next (number : Nat) (line : List Char) : OpenBlock → List Block × OpenBlock
  | nothing => OpenBlock.line [] number line
  | paragraph lines => OpenBlock.line lines number line
  | fence f firstLine lines =>
    if f.isClosedBy line then ([.ofFence f firstLine lines], .nothing)
    else ([], .fence f firstLine (f.contentLine line :: lines))

/-- The blocks of the lines from the given number on. -/
def blocksFrom (number : Nat) (current : OpenBlock) : List (List Char) → List Block
  | [] =>
    match current with
    | .fence f firstLine lines => [.ofFence f firstLine lines]
    | _ => []
  | line :: rest =>
    let (found, next) := current.next number line
    found ++ blocksFrom (number + 1) next rest

/-- The headings and fenced blocks of a document. -/
def blocks (text : List Char) : List Block := blocksFrom 1 .nothing (lines text)

end Arvore.Markdown
