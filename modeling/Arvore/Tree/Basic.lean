import Arvore.Datum.Printer
import Arvore.Fault

/-!
# Program trees

The uniform view of a program: every node has a kind, a value, a line and children. Nothing keeps the children of a
node from being too few or of the wrong kind, so the parts of a node are asked for and may be missing.
-/

namespace Arvore

/-- A node of a program tree with everything below it. -/
structure Tree where
  kind : Kind
  value : String := ""
  line : Int
  children : List Tree := []
  deriving Inhabited

namespace Tree

/-- The kind of a node, with its value in brackets if it has one. -/
def label (t : Tree) : String := if t.value = "" then t.kind.name else t.kind.name ++ "(" ++ t.value ++ ")"

/-- The child at a position. -/
def child (t : Tree) (i : Nat) : Except Fault Tree :=
  match t.children[i]? with
  | some c => .ok c
  | none => .error .missingPart

/-- The last child: the body of a function or a loop. -/
def body (t : Tree) : Except Fault Tree :=
  match t.children.getLast? with
  | some c => .ok c
  | none => .error .missingPart

/-- The parameters of a function: the children between the type and the body. -/
def params (t : Tree) : List Tree := (t.children.drop 1).dropLast

/-- The symbol of the operator of an expression, an assignment or an increment. -/
def operator (t : Tree) : Except Fault String :=
  match t.kind with
  | .unary => (·.value) <$> t.child 0
  | .arithmetic | .logical | .relational | .assignment | .increment => (·.value) <$> t.child 1
  | _ => .error (.noOperator t.label)

/-- The variable that an assignment, an increment, a read or a parameter binds. -/
def target (t : Tree) : Except Fault Tree :=
  match t.kind with
  | .parameter => t.child 1
  | _ => t.child 0

/-- The expression of an assignment, a negation, a print or a return; a return may have none. -/
def valueExpr? (t : Tree) : Except Fault (Option Tree) :=
  match t.kind with
  | .assignment => some <$> t.child 2
  | .unary => some <$> t.child 1
  | .print => some <$> t.child 0
  | .result => .ok t.children.head?
  | _ => .error (.noValue t.label)

/-- Numbers, strings and truth values. -/
def isLiteral (t : Tree) : Bool := t.kind = .number || t.kind = .string || t.kind = .boolean

/-- The second block of a branch. -/
def otherwise? (t : Tree) : Option Tree :=
  match t.children with
  | [_, _, other] => some other
  | _ => none

mutual

/-- The names of a chain of declaration items, each with its initial value. A link of the chain holds a name, then
perhaps a value and the next link. -/
def chainItems : Tree → Except Fault (List (Tree × Option Tree))
  | ⟨_, _, _, []⟩ => .error .missingPart
  | ⟨_, _, _, name :: parts⟩ => do
    let rest ← lastChainItems parts
    return (name, (parts.filter (·.kind ≠ .declarationItems)).getLast?) :: rest

/-- The items of the last link among the parts of a link, none if no further link is there. -/
def lastChainItems : List Tree → Except Fault (List (Tree × Option Tree))
  | [] => .ok []
  | t :: rest =>
    if rest.any (·.kind = .declarationItems) then lastChainItems rest
    else if t.kind = .declarationItems then chainItems t
    else .ok []

end

/-- The names of a declaration, each with its initial value. -/
def declItems (t : Tree) : Except Fault (List (Tree × Option Tree)) := t.child 1 >>= chainItems

mutual

/-- A statement and all statements in its blocks, in the order of the text. -/
def nested : Tree → Except Fault (List Tree)
  | ⟨.branch, value, line, children⟩ => do
    let below ← match children with
      | _ :: ⟨_, _, _, body⟩ :: rest => do
        let first ← nestedAll body
        let second ← match rest with
          | [⟨_, _, _, other⟩] => nestedAll other
          | _ => .ok []
        pure (first ++ second)
      | _ => .error .missingPart
    return ⟨.branch, value, line, children⟩ :: below
  | ⟨.whileLoop, value, line, children⟩ => do
    return ⟨.whileLoop, value, line, children⟩ :: (← nestedLast children)
  | ⟨.forLoop, value, line, children⟩ => do
    return ⟨.forLoop, value, line, children⟩ :: (← nestedLast children)
  | t => .ok [t]

/-- All statements of a block at any depth. -/
def nestedAll : List Tree → Except Fault (List Tree)
  | [] => .ok []
  | t :: rest => do return (← nested t) ++ (← nestedAll rest)

/-- All statements of the block that stands last. -/
def nestedLast : List Tree → Except Fault (List Tree)
  | [] => .error .missingPart
  | [⟨_, _, _, body⟩] => nestedAll body
  | _ :: rest => nestedLast rest

end

end Tree

end Arvore
