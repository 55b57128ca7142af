import Arvore.Datum.Reader
import Arvore.Markdown.Block

/-!
# Cases of a suite

A suite is a Markdown document. A heading that starts with `Test: ` opens a case, to which all fenced blocks belong
up to the next such heading. The language of a block says what it is for: the program to compile, or an assertion
about what becomes of it. Every case has one program and at least one assertion.
-/

namespace Arvore.Suite

open Markdown

/-- What an assertion says about a program. -/
inductive Expectation where
  /-- lines that stand in this order in the assembly -/
  | assembly
  /-- the diagnostic with which the compilation fails -/
  | diagnostic
  /-- the layout of a frame -/
  | symbols (listing : Datum)

/-- What has to hold for a case, with the line where it is written. -/
structure Assertion where
  expectation : Expectation
  content : String
  line : Nat

/-- A program with what is expected of it. -/
structure Case where
  name : String
  input : String := ""
  assertions : List Assertion := []

/-- The language of programs. -/
def inputLanguage : String := "por-tree"

/-- The kinds of assertions. -/
inductive AssertionKind where
  | assembly
  | diagnostic
  | symbols
  deriving DecidableEq, Repr

/-- The language of the blocks with assertions of a kind. -/
def AssertionKind.language : AssertionKind → String
  | assembly => "asm"
  | diagnostic => "compile-error"
  | symbols => "symbols"

/-- The kind of an expectation. -/
def Expectation.kind : Expectation → AssertionKind
  | assembly => .assembly
  | diagnostic => .diagnostic
  | symbols _ => .symbols

/-- What a fenced block is for. -/
inductive Purpose where
  /-- an example for the reader -/
  | prose
  | input
  | assertion (kind : AssertionKind)
  | unknown
  deriving DecidableEq, Repr

/-- The purpose of blocks in a language. -/
def Purpose.ofLanguage (language : String) : Purpose :=
  if language = "" then prose
  else if language = inputLanguage then input
  else if language = AssertionKind.assembly.language then assertion .assembly
  else if language = AssertionKind.diagnostic.language then assertion .diagnostic
  else if language = AssertionKind.symbols.language then assertion .symbols
  else unknown

/-- What a case lacks. -/
inductive Lack where
  | input
  | assertions
  deriving DecidableEq, Repr

/-- Why a document is no suite. -/
inductive Error where
  /-- a program or an assertion before the first case -/
  | outside (line : Nat) (language : String)
  /-- an unknown language before the first case -/
  | unknownOutside (line : Nat) (language : String)
  | unknown (line : Nat) (language name : String)
  | secondInput (line : Nat) (name : String)
  | symbols (line : Nat) (name : String) (error : Datum.SyntaxError)
  /-- a case with something missing, which is the last of the document or is followed by another -/
  | incomplete (name : String) (lack : Lack) (last : Bool)
  deriving DecidableEq, Repr

/-- The wording of what a case lacks. -/
def Lack.text : Lack → String
  | input => "has no input fence"
  | assertions => "has no assertion fences"

/-- The wording of an error, without regard to where it was found. -/
def Error.text : Error → String
  | outside line language => "line " ++ toString line ++ ": " ++ language ++ " fence found outside of test case"
  | unknownOutside line language =>
    "line " ++ toString line ++ ": unknown fence language '" ++ language ++ "' found outside of test case"
  | unknown line language name =>
    "line " ++ toString line ++ ": unknown fence language '" ++ language ++ "' in test '" ++ name ++ "'"
  | secondInput line name => "line " ++ toString line ++ ": multiple input fences found in test '" ++ name ++ "'"
  | symbols line name error =>
    "line " ++ toString line ++ ": failed to parse symbols assertion in test '" ++ name ++ "': " ++ error.message
  | incomplete name lack _ => "test '" ++ name ++ "' " ++ lack.text

/-- The message of an error. It tells whether the error was found before the end of the document. -/
def Error.message : Error → String
  | incomplete name lack true => (incomplete name lack true).text
  | error => "error walking markdown AST: " ++ error.text

/-! ### Collecting cases -/

/-- The name of the case that a heading opens. -/
def name? (heading : String) : Option String :=
  ("Test: ".toList.isPrefixOf? heading.toList).map String.ofList

/-- The text without the line ends behind it. -/
def withoutLineEnds (content : String) : String :=
  String.ofList (content.toList.reverse.dropWhile (· = '\n')).reverse

/-- The expectation that an assertion of a kind states. -/
def AssertionKind.expectation (content : String) : AssertionKind → Except Datum.SyntaxError Expectation
  | assembly => .ok .assembly
  | diagnostic => .ok .diagnostic
  | symbols => (Datum.parse content.toList).map .symbols

namespace Case

/-- Adds a fenced block to a case. An input that is empty counts as none. -/
def add (c : Case) (language content : String) (line : Nat) : Except Error Case :=
  let content := withoutLineEnds content
  match Purpose.ofLanguage language with
  | .prose => .ok c
  | .input => if c.input = "" then .ok { c with input := content } else .error (.secondInput line c.name)
  | .assertion kind =>
    match kind.expectation content with
    | .ok expectation => .ok { c with assertions := c.assertions ++ [⟨expectation, content, line⟩] }
    | .error error => .error (.symbols line c.name error)
  | .unknown => .error (.unknown line language c.name)

/-- What is missing in a case to which nothing more is added. -/
def lack? (c : Case) : Option Lack :=
  if c.input = "" then some .input
  else if c.assertions.isEmpty then some .assertions
  else none

/-- Ends a case, which is the last of the document or is followed by another. -/
def finish (c : Case) (last : Bool) : Except Error Case :=
  match c.lack? with
  | some lack => .error (.incomplete c.name lack last)
  | none => .ok c

end Case

/-- Passes over a fenced block before the first case. -/
def checkOutside (language : String) (line : Nat) : Except Error Unit :=
  match Purpose.ofLanguage language with
  | .prose => .ok ()
  | .unknown => .error (.unknownOutside line language)
  | _ => .error (.outside line language)

/-- The cases of the blocks that follow, the first of them being open. -/
def casesFrom (current : Case) : List Block → Except Error (List Case)
  | [] => do return [← current.finish true]
  | .fence language content line :: rest => do casesFrom (← current.add language content line) rest
  | .heading text :: rest =>
    match name? text with
    | none => casesFrom current rest
    | some name => do
      let complete ← current.finish false
      return complete :: (← casesFrom { name } rest)

/-- The cases of a sequence of blocks. -/
def cases : List Block → Except Error (List Case)
  | [] => .ok []
  | .fence language _ line :: rest => do
    checkOutside language line
    cases rest
  | .heading text :: rest =>
    match name? text with
    | none => cases rest
    | some name => casesFrom { name } rest

/-- The cases that a document holds. -/
def read (text : List Char) : Except Error (List Case) := cases (blocks text)

end Arvore.Suite
