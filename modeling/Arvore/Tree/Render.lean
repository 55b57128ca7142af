import Arvore.Tree.Basic

/-!
# The text of a program tree

A tree is written as a datum that can be read as a program again. Functions, statements and calls carry their line
as metadata; the lines of other nodes are not written. The parts of a node are written from left to right, so a part
that cannot be written is noticed before one that is missing after it.
-/

namespace Arvore.Tree

/-- The metadata that holds a line. -/
def lineText (line : Int) : String := "^\x7bline: " ++ toString line ++ "\x7d"

/-- A form: its head and its parts in round brackets. -/
def form (parts : List String) : String := "(" ++ " ".intercalate parts ++ ")"

/-- Parts in square brackets. -/
def bracketed (parts : List String) : String := "[" ++ " ".intercalate parts ++ "]"

mutual

/-- The text of a tree. -/
def render : Tree → Except Fault String
  | ⟨.program, _, _, functions⟩ => do
    let texts ← renderAll functions
    return "(program" ++ String.join (texts.map ("\n  " ++ ·)) ++ ")"
  | ⟨.function, name, line, type :: rest⟩ => do
    let texts ← renderAll rest
    match texts.getLast? with
    | some body => return form ["func", name, type.value, lineText line, bracketed texts.dropLast, body]
    | none => .error .missingPart
  | ⟨.parameter, _, _, type :: name :: _⟩ => return form ["param", type.value, name.value]
  | ⟨.block, _, _, statements⟩ => return bracketed (← renderAll statements)
  | ⟨.declaration, _, line, type :: chain :: _⟩ => do
    return form (["decl", type.value, lineText line] ++ (← renderChain chain))
  | ⟨.identifier, value, _, _⟩ | ⟨.boolean, value, _, _⟩ | ⟨.number, value, _, _⟩ => return value
  | ⟨.string, value, _, _⟩ => return (Datum.string 0 value).render
  | ⟨.arithmetic, _, _, left :: op :: rest⟩ => do
    return form ["binary", Text.quoted op.value, ← render left, ← renderFirst rest]
  | ⟨.logical, _, _, left :: op :: rest⟩ => do
    return form ["logical", Text.quoted op.value, ← render left, ← renderFirst rest]
  | ⟨.relational, _, _, left :: op :: rest⟩ => do
    return form ["relational", Text.quoted op.value, ← render left, ← renderFirst rest]
  | ⟨.unary, _, _, op :: operand :: _⟩ => do return form ["unary", Text.quoted op.value, ← render operand]
  | ⟨.assignment, _, line, name :: _ :: value :: _⟩ => do
    return form ["assign", lineText line, name.value, ← render value]
  | ⟨.increment, _, line, name :: op :: _⟩ =>
    return form ["increment", lineText line, Text.quoted op.value, name.value]
  | ⟨.call, _, line, callee :: args⟩ => do
    return form ["call", lineText line, callee.value, bracketed (← renderAll args)]
  | ⟨.branch, _, line, [cond, body, other]⟩ => do
    return form ["if", lineText line, ← render cond, ← render body, ← render other]
  | ⟨.branch, _, line, cond :: rest⟩ => do return form ["if", lineText line, ← render cond, ← renderFirst rest]
  | ⟨.whileLoop, _, line, cond :: rest⟩ => do
    return form ["while", lineText line, ← render cond, ← renderLast (cond :: rest)]
  | ⟨.forLoop, _, line, init :: cond :: rest⟩ => do
    return form ["for", lineText line, ← render init, ← render cond, ← renderFirst rest,
      ← renderLast (init :: cond :: rest)]
  | ⟨.forLoop, _, _, [init]⟩ => do
    let _ ← render init
    .error .missingPart
  | ⟨.read, _, line, name :: _⟩ => return form ["read", lineText line, name.value]
  | ⟨.print, _, line, value :: _⟩ => do return form ["print", lineText line, ← render value]
  | ⟨.result, _, line, value :: _⟩ => do return form ["return", lineText line, ← render value]
  | ⟨.result, _, line, []⟩ => return form ["return", lineText line]
  | ⟨.operator, _, _, _⟩ => .error (.unwritable .operator)
  | ⟨.typeName, _, _, _⟩ => .error (.unwritable .typeName)
  | ⟨.declarationItems, _, _, _⟩ => .error (.unwritable .declarationItems)
  | ⟨.other name, _, _, _⟩ => .error (.unwritable (.other name))
  | _ => .error .missingPart

/-- The texts of several trees. -/
def renderAll : List Tree → Except Fault (List String)
  | [] => .ok []
  | t :: rest => do return (← render t) :: (← renderAll rest)

/-- The text of the first tree. -/
def renderFirst : List Tree → Except Fault String
  | [] => .error .missingPart
  | t :: _ => render t

/-- The text of the last tree. -/
def renderLast : List Tree → Except Fault String
  | [] => .error .missingPart
  | [t] => render t
  | _ :: rest => renderLast rest

/-- The texts of the items of a declaration, from a link of their chain on. -/
def renderChain : Tree → Except Fault (List String)
  | ⟨_, _, _, []⟩ => .error .missingPart
  | ⟨_, _, _, name :: parts⟩ => do
    let text := match ← renderInit parts with
      | some value => form ["init", name.value, value]
      | none => name.value
    return text :: (← renderLink parts)

/-- The text of the initial value among the parts of a link: of the last part that is no link. -/
def renderInit : List Tree → Except Fault (Option String)
  | [] => .ok none
  | t :: rest =>
    if rest.any (·.kind ≠ .declarationItems) then renderInit rest
    else if t.kind ≠ .declarationItems then some <$> render t
    else .ok none

/-- The texts of the items from the last link among the parts of a link on. -/
def renderLink : List Tree → Except Fault (List String)
  | [] => .ok []
  | t :: rest =>
    if rest.any (·.kind = .declarationItems) then renderLink rest
    else if t.kind = .declarationItems then renderChain t
    else .ok []

end

end Arvore.Tree
