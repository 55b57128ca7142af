import Mathlib
import Arvore.Proofs.Induction
import Arvore.Proofs.Load.Form
import Arvore.Program.Tree
import Arvore.Proofs.Program.Tree

/-!
# Lines are inherited from the nearest list

A place in a datum is a path of positions in lists and arrays. The line at a place is written in the metadata of a list
around it: of all those that have a line, the innermost counts (`Datum.lineAt`). Which node of a program's tree is read
from which place does not depend on lines: `Datum.programTree` gives the tree of a datum, each node on the line of its
place, for any lines whatever. Loading makes this tree, with the line of the nearest list at every node
(`Program.lines_of_nearest_lists`).
-/

namespace Arvore

namespace Datum

/-! ### Lines at places -/

/-- The data around a place, the innermost first: the one at the place, then those that hold it. -/
def around : List Nat → Datum → List Datum
  | [], d => [d]
  | i :: path, d => (d.items[i]?.map (around path)).getD [] ++ [d]

/-- The line that is written in the metadata of a list. -/
def writtenLine? (d : Datum) : Option Int :=
  match d.metadata? "line" with
  | some (.number _ text) => Numeral.integer? text
  | _ => none

/-- The line at a place: the one that is written at the nearest list, or else the line of the whole. -/
def lineAt (outer : Int) (d : Datum) (path : List Nat) : Int := ((around path d).findSome? writtenLine?).getD outer

/-- A line for every place in a datum. -/
abbrev Lines := List Nat → Int

/-- The lines of the places in an item. -/
def Lines.inside (lines : Lines) (i : Nat) : Lines := fun path => lines (i :: path)

/-! ### The tree of a datum -/

/-- The text of an atom. -/
def atomText : Datum → String
  | .symbol _ text | .string _ text | .number _ text => text
  | .list .. | .array .. | .map .. => ""

/-- What stands for a datum that is no part of a program. -/
def noTree : Tree := ⟨.other "", "", 0, []⟩

/-- The node of a name. -/
def nameTree (lines : Lines) (d : Datum) : Tree := ⟨.identifier, Text.nfc d.atomText, lines [], []⟩

/-- The node of a type. -/
def typeTree (lines : Lines) (d : Datum) : Tree := ⟨.typeName, d.atomText, lines [], []⟩

/-- The node of an operator. -/
def operatorTree (lines : Lines) (d : Datum) : Tree := ⟨.operator, d.atomText, lines [], []⟩

mutual

/-- The tree of an expression. -/
def exprTree (lines : Lines) : Datum → Tree
  | .symbol _ text =>
    ⟨if isTruthWord (Text.nfc text) then .boolean else .identifier, Text.nfc text, lines [], []⟩
  | .string _ text => ⟨.string, text, lines [], []⟩
  | .number _ text => ⟨.number, text, lines [], []⟩
  | .list _ _ [.symbol _ "binary", op, left, right] =>
    ⟨.arithmetic, "", lines [],
      [left.exprTree (lines.inside 2), op.operatorTree (lines.inside 1), right.exprTree (lines.inside 3)]⟩
  | .list _ _ [.symbol _ "logical", op, left, right] =>
    ⟨.logical, "", lines [],
      [left.exprTree (lines.inside 2), op.operatorTree (lines.inside 1), right.exprTree (lines.inside 3)]⟩
  | .list _ _ [.symbol _ "relational", op, left, right] =>
    ⟨.relational, "", lines [],
      [left.exprTree (lines.inside 2), op.operatorTree (lines.inside 1), right.exprTree (lines.inside 3)]⟩
  | .list _ _ [.symbol _ "unary", op, operand] =>
    ⟨.unary, "", lines [], [op.operatorTree (lines.inside 1), operand.exprTree (lines.inside 2)]⟩
  | .list _ _ (.symbol _ "call" :: operands) => callTree lines operands
  | _ => noTree

/-- The tree of a call, given its operands. -/
def callTree (lines : Lines) : List Datum → Tree
  | [callee] => ⟨.call, "", lines [], [callee.nameTree (lines.inside 1)]⟩
  | [callee, .array _ args] =>
    ⟨.call, "", lines [], callee.nameTree (lines.inside 1) :: exprTrees (lines.inside 2) 0 args⟩
  | _ => noTree

/-- The trees of expressions, the first one at the given position. -/
def exprTrees (lines : Lines) (i : Nat) : List Datum → List Tree
  | [] => []
  | d :: rest => d.exprTree (lines.inside i) :: exprTrees lines (i + 1) rest

end

/-- The name in an item of a declaration, and the initial value if there is one. -/
def itemTrees (lines : Lines) : Datum → List Tree
  | .list _ _ [_, target, value] => [target.nameTree (lines.inside 1), value.exprTree (lines.inside 2)]
  | d => [d.nameTree lines]

/-- The chain of the items of a declaration, the first one at the given position. -/
def chainTrees (lines : Lines) (i : Nat) : List Datum → List Tree
  | [] => []
  | d :: rest =>
    [⟨.declarationItems, "", lines.inside i [], d.itemTrees (lines.inside i) ++ chainTrees lines (i + 1) rest⟩]

mutual

/-- The tree of a statement. -/
def stmtTree (lines : Lines) : Datum → Tree
  | .list _ _ (.symbol _ "decl" :: type :: items) =>
    ⟨.declaration, "", lines [], type.typeTree (lines.inside 1) :: chainTrees lines 2 items⟩
  | .list _ _ [.symbol _ "assign", target, value] =>
    ⟨.assignment, "", lines [],
      [target.nameTree (lines.inside 1), ⟨.operator, "=", lines [], []⟩, value.exprTree (lines.inside 2)]⟩
  | .list _ _ [.symbol _ "increment", op, target] =>
    ⟨.increment, "", lines [], [target.nameTree (lines.inside 2), op.operatorTree (lines.inside 1)]⟩
  | .list _ _ (.symbol _ "call" :: operands) => callTree lines operands
  | .list _ _ [.symbol _ "if", cond, body] =>
    ⟨.branch, "", lines [], [cond.exprTree (lines.inside 1), body.blockTree (lines.inside 2)]⟩
  | .list _ _ [.symbol _ "if", cond, body, other] =>
    ⟨.branch, "", lines [],
      [cond.exprTree (lines.inside 1), body.blockTree (lines.inside 2), other.blockTree (lines.inside 3)]⟩
  | .list _ _ [.symbol _ "while", cond, body] =>
    ⟨.whileLoop, "", lines [], [cond.exprTree (lines.inside 1), body.blockTree (lines.inside 2)]⟩
  | .list _ _ [.symbol _ "for", init, cond, step, body] =>
    ⟨.forLoop, "", lines [],
      [init.stmtTree (lines.inside 1), cond.exprTree (lines.inside 2), step.stmtTree (lines.inside 3),
        body.blockTree (lines.inside 4)]⟩
  | .list _ _ [.symbol _ "read", target] => ⟨.read, "", lines [], [target.nameTree (lines.inside 1)]⟩
  | .list _ _ [.symbol _ "print", value] => ⟨.print, "", lines [], [value.exprTree (lines.inside 1)]⟩
  | .list _ _ [.symbol _ "return"] => ⟨.result, "", lines [], []⟩
  | .list _ _ [.symbol _ "return", value] => ⟨.result, "", lines [], [value.exprTree (lines.inside 1)]⟩
  | _ => noTree

/-- The tree of a block. -/
def blockTree (lines : Lines) : Datum → Tree
  | .array _ statements => ⟨.block, "", lines [], stmtTrees lines 0 statements⟩
  | _ => noTree

/-- The trees of statements, the first one at the given position. -/
def stmtTrees (lines : Lines) (i : Nat) : List Datum → List Tree
  | [] => []
  | d :: rest => d.stmtTree (lines.inside i) :: stmtTrees lines (i + 1) rest

end

/-- The tree of a parameter. -/
def paramTree (lines : Lines) : Datum → Tree
  | .list _ _ [_, type, target] =>
    ⟨.parameter, "", lines [], [type.typeTree (lines.inside 1), target.nameTree (lines.inside 2)]⟩
  | _ => noTree

/-- The trees of the parameters in an array. -/
def paramTrees (lines : Lines) (d : Datum) : List Tree := d.items.mapIdx fun i p => p.paramTree (lines.inside i)

/-- The tree of a function. -/
def functionTree (lines : Lines) : Datum → Tree
  | .list _ _ [_, name, params, body] =>
    ⟨.function, Text.nfc name.atomText, lines [],
      ⟨.typeName, "vazio", lines [], []⟩ :: params.paramTrees (lines.inside 2) ++ [body.blockTree (lines.inside 3)]⟩
  | .list _ _ [_, name, type, params, body] =>
    ⟨.function, Text.nfc name.atomText, lines [],
      type.typeTree (lines.inside 2) :: params.paramTrees (lines.inside 3) ++ [body.blockTree (lines.inside 4)]⟩
  | _ => noTree

/-- The tree of a program: its functions are the items behind the head. -/
def programTree (lines : Lines) (d : Datum) : Tree :=
  ⟨.program, "", lines [], (d.items.mapIdx fun i f => f.functionTree (lines.inside i)).drop 1⟩

/-! ### Lines inside a list -/

theorem lineAt_nil (outer : Int) (d : Datum) : d.lineAt outer [] = d.writtenLine?.getD outer := by
  cases h : d.writtenLine? <;> simp [lineAt, around, h]

/-- Inside an item, the line of the whole takes the place of the outer line. -/
theorem inside_lineAt {outer : Int} {d item : Datum} {i : Nat} (h : d.items[i]? = some item) :
    Lines.inside (d.lineAt outer) i = item.lineAt (d.lineAt outer []) := by
  funext path
  rw [Lines.inside, lineAt_nil, lineAt, around, h, Option.map_some, Option.getD_some, List.findSome?_append, lineAt]
  cases (around path item).findSome? writtenLine? with
  | some line => rfl
  | none => cases hd : d.writtenLine? <;> simp [hd]

/-- The lines of a list or an array that stands on a line, which its items inherit. -/
structure Lines.Inherited (lines : Lines) (line : Int) (items : List Datum) : Prop where
  here : lines [] = line
  inside : ∀ {i item}, items[i]? = some item → lines.inside i = item.lineAt line

theorem inherited_array (line : Int) (l : Nat) (items : List Datum) :
    Lines.Inherited ((Datum.array l items).lineAt line) line items := ⟨rfl, fun h => inside_lineAt h⟩

/-- The items may be taken one by one, each with its own lines. -/
theorem Lines.Inherited.mapIdx_eq_map {lines : Lines} {line : Int} {items : List Datum}
    (h : lines.Inherited line items) (tree : Lines → Datum → Tree) :
    (items.mapIdx fun i d => tree (lines.inside i) d) = items.map fun d => tree (d.lineAt line) d := by
  refine List.ext_getElem? fun i => ?_
  rw [List.getElem?_mapIdx, List.getElem?_map]
  cases hi : items[i]? with
  | none => rfl
  | some d => rw [Option.map_some, Option.map_some, h.inside hi]

theorem exprTrees_eq_mapIdx (lines : Lines) (i : Nat) (ds : List Datum) :
    exprTrees lines i ds = ds.mapIdx fun j d => d.exprTree (lines.inside (i + j)) := by
  induction ds generalizing i with
  | nil => rfl
  | cons d rest ih =>
    rw [exprTrees, ih, List.mapIdx_cons]
    simp only [Nat.add_zero, Nat.add_assoc, Nat.add_comm 1]

theorem stmtTrees_eq_mapIdx (lines : Lines) (i : Nat) (ds : List Datum) :
    stmtTrees lines i ds = ds.mapIdx fun j d => d.stmtTree (lines.inside (i + j)) := by
  induction ds generalizing i with
  | nil => rfl
  | cons d rest ih =>
    rw [stmtTrees, ih, List.mapIdx_cons]
    simp only [Nat.add_zero, Nat.add_assoc, Nat.add_comm 1]

end Datum

namespace Load

open Datum (Lines)

/-- The items of a list inherit the line that is found for the list. -/
theorem inherited_of_lineOf {start : Nat} {metadata : List (String × Datum)} {inherited line : Int}
    (h : lineOf start metadata inherited = .ok line) (items : List Datum) :
    Lines.Inherited ((Datum.list start metadata items).lineAt inherited) line items := by
  have hhere : (Datum.list start metadata items).lineAt inherited [] = line := by
    rw [Datum.lineAt_nil, Datum.writtenLine?, Datum.metadata?, Datum.metadata]
    unfold lineOf at h
    split at h
    · rename_i hnone
      cases h
      rw [hnone]
      rfl
    · rename_i text hsome
      rw [hsome]
      dsimp only
      split at h
      · rename_i value hvalue
        split at h
        · cases h
          rw [hvalue]
          rfl
        · cases h
      · cases h
    · cases h
  refine ⟨hhere, fun {i item} hi => ?_⟩
  rw [← hhere]
  exact Datum.inside_lineAt hi

/-- Parts that are loaded one by one, each as the tree with its own lines. -/
theorem map_eq_of_forall₂ {α : Type} {R : Datum → α → Prop} {toTree : α → Tree} {tree : Datum → Tree}
    {ds : List Datum} {xs : List α} (h : List.Forall₂ R ds xs) (hr : ∀ d ∈ ds, ∀ x, R d x → toTree x = tree d) :
    xs.map toTree = ds.map tree := by
  induction h with
  | nil => rfl
  | cons hx _ ih =>
    simp only [List.forall_mem_cons] at hr
    rw [List.map_cons, List.map_cons, hr.1 _ hx, ih hr.2]

/-! ### Names, types and operators -/

theorem name_lineAt {role : LoadError.NameRole} {line : Int} {d : Datum} {n : String} (h : name role d = .ok n) :
    Ident.toTree ⟨line, n⟩ = d.nameTree (d.lineAt line) := by
  obtain ⟨l, text, rfl, rfl⟩ := name_eq_ok_iff.1 h
  rfl

theorem ident_lineAt {line : Int} {d : Datum} {x : Ident} (h : ident line d = .ok x) :
    x.toTree = d.nameTree (d.lineAt line) := by
  obtain ⟨l, text, rfl, rfl, -⟩ := ident_eq_ok_iff.1 h
  rfl

theorem type_lineAt {allowed : Ty → Bool} {line : Int} {d : Datum} {t : Ty} (h : type allowed d = .ok t) :
    t.toTree line = d.typeTree (d.lineAt line) := by
  obtain ⟨l, text, rfl, rfl, -⟩ := type_eq_ok_iff.1 h
  rw [Ty.toTree, Ty.word_ofWord]
  rfl

theorem operator_lineAt {α : Type} {known : List α} {symbol : α → String} {line : Int} {d : Datum} {op : α}
    (h : operator known symbol d = .ok op) : Expr.operatorTree line (symbol op) = d.operatorTree (d.lineAt line) := by
  obtain ⟨l, text, rfl, hfind⟩ := operator_eq_ok_iff.1 h
  have htext : symbol op = text := by simpa using List.find?_some hfind
  rw [htext]
  rfl

/-! ### Expressions -/

theorem exprs_lineAt {line : Int} {l : Nat} {items : List Datum} {es : List Expr} (h : exprs line items = .ok es)
    (ih : ∀ d ∈ items, ∀ e, expr line d = .ok e → e.toTree = d.exprTree (d.lineAt line)) :
    Expr.toTrees es = Datum.exprTrees ((Datum.array l items).lineAt line) 0 items := by
  rw [Expr.toTrees_eq_map, Datum.exprTrees_eq_mapIdx, map_eq_of_forall₂ (exprs_eq_ok_iff.1 h) ih]
  simp only [Nat.zero_add]
  exact ((Datum.inherited_array line l items).mapIdx_eq_map fun lines d => d.exprTree lines).symm

theorem call_lineAt {start : Nat} {lines : Lines} {line : Int} {head : Datum} {operands : List Datum} {callee : Ident}
    {args : List Expr} (hl : lines.Inherited line (head :: operands))
    (h : call start line operands = .ok (callee, args))
    (ih : ∀ l inner, .array l inner ∈ operands → ∀ d ∈ inner, ∀ e, expr line d = .ok e →
      e.toTree = d.exprTree (d.lineAt line)) :
    (⟨.call, "", line, callee.toTree :: Expr.toTrees args⟩ : Tree) = Datum.callTree lines operands := by
  obtain ⟨calleeLine, calleeName⟩ := callee
  obtain ⟨d, hn, rfl, ⟨rfl, rfl⟩ | ⟨l, items, rfl, he⟩⟩ := call_eq_ok_iff.1 h
  · rw [Datum.callTree, hl.here, hl.inside (i := 1) rfl, name_lineAt hn]
    rfl
  · rw [Datum.callTree, hl.here, hl.inside (i := 1) rfl, hl.inside (i := 2) rfl, name_lineAt hn,
      exprs_lineAt he (ih l items (by simp))]

theorem exprForm_lineAt {start : Nat} {metadata : List (String × Datum)} {lines : Lines} {line : Int}
    {items : List Datum} {e : Expr} (hl : lines.Inherited line items) (hf : ExprForm line items e)
    (ih : ∀ d ∈ items, ∀ e, expr line d = .ok e → e.toTree = d.exprTree (d.lineAt line))
    (ih' : ∀ l inner, .array l inner ∈ items → ∀ d ∈ inner, ∀ e, expr line d = .ok e →
      e.toTree = d.exprTree (d.lineAt line)) :
    e.toTree = (Datum.list start metadata items).exprTree lines := by
  cases hf with
  | arithmetic ho ha hb | logical ho ha hb | relational ho ha hb =>
    rw [Expr.toTree, Datum.exprTree, hl.here, hl.inside (i := 1) rfl, hl.inside (i := 2) rfl, hl.inside (i := 3) rfl,
      operator_lineAt ho, ih _ (by simp) _ ha, ih _ (by simp) _ hb]
  | unary ho he =>
    rw [Expr.toTree, Datum.exprTree, hl.here, hl.inside (i := 1) rfl, hl.inside (i := 2) rfl, operator_lineAt ho,
      ih _ (by simp) _ he]
  | call hc =>
    rw [Expr.toTree, Datum.exprTree]
    exact call_lineAt hl hc fun l inner hm => ih' l inner (List.mem_cons_of_mem _ hm)

theorem expr_lineAt {inherited : Int} {d : Datum} {e : Expr} (h : expr inherited d = .ok e) :
    e.toTree = d.exprTree (d.lineAt inherited) := by
  induction d using Datum.forms_induction generalizing inherited e with
  | list start metadata items ih ih' =>
    obtain ⟨line, hline, hf⟩ := exprForm_of_eq_ok h
    exact exprForm_lineAt (inherited_of_lineOf hline items) hf (fun d hm e he => ih d hm he)
      fun l inner hm d hd e he => ih' l inner hm d hd he
  | symbol l text =>
    rw [expr] at h
    cases h
    rw [word, Datum.exprTree]
    split <;> simp_all [Expr.toTree, Datum.lineAt_nil, Datum.writtenLine?, Datum.metadata?, Datum.metadata]
  | string l text =>
    rw [expr] at h
    cases h
    rw [Expr.toTree, Datum.exprTree]
    rfl
  | number l text =>
    rw [expr] at h
    obtain ⟨_, _, h⟩ := bind_eq_ok_iff.1 h
    cases h
    rw [Expr.toTree, Datum.exprTree]
    rfl
  | _ => rcases expr_cases h with ⟨_, _, h, _⟩ | ⟨_, _, h, _⟩ | ⟨_, _, h, _⟩ | ⟨_, _, _, _, h, _⟩ <;> cases h

/-! ### Declarations -/

/-- The name and the initial value of an item stand on the line of the item. -/
theorem declItem_lineAt {line : Int} {d : Datum} {item : DeclItem} (h : declItem line d = .ok item) :
    item.target.line = d.lineAt line [] ∧
      item.target.toTree :: (item.init.map Expr.toTree).toList = d.itemTrees (d.lineAt line) := by
  rcases declItem_cases h with ⟨l, text, x, rfl, hx, rfl⟩ |
    ⟨start, metadata, l, target, value, line', x, e, rfl, hline, hx, he, rfl⟩
  · refine ⟨?_, by rw [ident_lineAt hx]; rfl⟩
    obtain ⟨_, _, -, rfl, -⟩ := ident_eq_ok_iff.1 hx
    rfl
  · have hl := inherited_of_lineOf hline [.symbol l "init", target, value]
    refine ⟨?_, ?_⟩
    · obtain ⟨_, _, -, rfl, -⟩ := ident_eq_ok_iff.1 hx
      exact hl.here.symm
    · rw [Datum.itemTrees, hl.inside (i := 1) rfl, hl.inside (i := 2) rfl, ident_lineAt hx, ← expr_lineAt he]
      rfl

/-- Every link of the chain has the lines of its own item, whatever stands in the items before it. -/
theorem chain_lineAt {lines : Lines} {line : Int} {i : Nat} {data : List Datum} {items : List DeclItem}
    (hl : ∀ j d, data[j]? = some d → lines.inside (i + j) = d.lineAt line)
    (h : List.Forall₂ (fun d item => declItem line d = .ok item) data items) :
    DeclItem.chain items = Datum.chainTrees lines i data := by
  induction h generalizing i with
  | nil => rfl
  | @cons d item data items hd _ ih =>
    have hhead : lines.inside i = d.lineAt line := hl 0 d rfl
    have hrest : ∀ j d', data[j]? = some d' → lines.inside (i + 1 + j) = d'.lineAt line := by
      intro j d' hj
      rw [Nat.add_assoc, Nat.add_comm 1]
      exact hl (j + 1) d' hj
    obtain ⟨hline, htrees⟩ := declItem_lineAt hd
    rw [DeclItem.chain, Datum.chainTrees, hhead, hline, ← htrees, ih hrest]

/-! ### Statements -/

theorem stmts_lineAt {line : Int} {l : Nat} {items : List Datum} {ss : List Stmt} (h : stmts line items = .ok ss)
    (ih : ∀ d ∈ items, ∀ s, stmt line d = .ok s → s.toTree = d.stmtTree (d.lineAt line)) :
    (⟨.block, "", line, Stmt.toTrees ss⟩ : Tree) =
      (Datum.array l items).blockTree ((Datum.array l items).lineAt line) := by
  have hl := Datum.inherited_array line l items
  rw [Datum.blockTree, hl.here, Stmt.toTrees_eq_map, Datum.stmtTrees_eq_mapIdx,
    map_eq_of_forall₂ (stmts_eq_ok_iff.1 h) ih]
  simp only [Nat.zero_add]
  rw [hl.mapIdx_eq_map fun lines d => d.stmtTree lines]

theorem stmtForm_lineAt {start : Nat} {metadata : List (String × Datum)} {lines : Lines} {line : Int}
    {items : List Datum} {s : Stmt} (hl : lines.Inherited line items) (hf : StmtForm line items s)
    (ih : ∀ d ∈ items, ∀ s, stmt line d = .ok s → s.toTree = d.stmtTree (d.lineAt line))
    (ih' : ∀ l inner, .array l inner ∈ items → ∀ d ∈ inner, ∀ s, stmt line d = .ok s →
      s.toTree = d.stmtTree (d.lineAt line)) :
    s.toTree = (Datum.list start metadata items).stmtTree lines := by
  have block : ∀ l {inner body}, .array l inner ∈ items → stmts line inner = .ok body →
      (⟨.block, "", line, Stmt.toTrees body⟩ : Tree) =
        (Datum.array l inner).blockTree ((Datum.array l inner).lineAt line) :=
    fun l inner body hm hb => stmts_lineAt hb (ih' l inner hm)
  cases hf with
  | @declare _ _ data _ _ ht hne hi =>
    have hchain : ∀ j d, data[j]? = some d → lines.inside (2 + j) = d.lineAt line := by
      intro j d hj
      rw [Nat.add_comm]
      exact hl.inside (i := j + 2) hj
    rw [Stmt.toTree, Datum.stmtTree, hl.here, hl.inside (i := 1) rfl, type_lineAt ht,
      chain_lineAt hchain (declItems_eq_ok_iff.1 hi)]
  | assign hx he =>
    rw [Stmt.toTree, Datum.stmtTree, hl.here, hl.inside (i := 1) rfl, hl.inside (i := 2) rfl, ident_lineAt hx,
      expr_lineAt he]
    rfl
  | increment ho hx =>
    rw [Stmt.toTree, Datum.stmtTree, hl.here, hl.inside (i := 1) rfl, hl.inside (i := 2) rfl, ident_lineAt hx,
      operator_lineAt ho]
  | call hc =>
    rw [Stmt.toTree, Datum.stmtTree]
    exact call_lineAt hl hc fun _ _ _ _ _ _ he => expr_lineAt he
  | @ifThen _ m _ _ _ _ hc hb | @whileDo _ m _ _ _ _ hc hb =>
    rw [Stmt.toTree, Datum.stmtTree, hl.here, hl.inside (i := 1) rfl, hl.inside (i := 2) rfl, expr_lineAt hc,
      block m (by simp) hb]
  | @ifElse _ m n _ _ _ _ _ _ hc hb ho =>
    rw [Stmt.toTree, Datum.stmtTree, hl.here, hl.inside (i := 1) rfl, hl.inside (i := 2) rfl, hl.inside (i := 3) rfl,
      expr_lineAt hc, block m (by simp) hb, block n (by simp) ho]
  | @forDo _ m _ _ _ _ _ _ _ _ hi hc hs hb =>
    rw [Stmt.toTree, Datum.stmtTree, hl.here, hl.inside (i := 1) rfl, hl.inside (i := 2) rfl, hl.inside (i := 3) rfl,
      hl.inside (i := 4) rfl, ih _ (by simp) _ hi, expr_lineAt hc, ih _ (by simp) _ hs, block m (by simp) hb]
  | read hx => rw [Stmt.toTree, Datum.stmtTree, hl.here, hl.inside (i := 1) rfl, ident_lineAt hx]
  | print he => rw [Stmt.toTree, Datum.stmtTree, hl.here, hl.inside (i := 1) rfl, expr_lineAt he]
  | leave => rw [Stmt.toTree, Datum.stmtTree, hl.here]; rfl
  | result he => rw [Stmt.toTree, Datum.stmtTree, hl.here, hl.inside (i := 1) rfl, ← expr_lineAt he]; rfl

theorem stmt_lineAt {inherited : Int} {d : Datum} {s : Stmt} (h : stmt inherited d = .ok s) :
    s.toTree = d.stmtTree (d.lineAt inherited) := by
  induction d using Datum.forms_induction generalizing inherited s with
  | list start metadata items ih ih' =>
    obtain ⟨_, _, _, line, hd, hline, hf⟩ := stmt_cases h
    cases hd
    exact stmtForm_lineAt (inherited_of_lineOf hline items) hf (fun d hm s hs => ih d hm hs)
      fun l inner hm d hd s hs => ih' l inner hm d hd hs
  | _ =>
    obtain ⟨_, _, _, _, hd, _⟩ := stmt_cases h
    cases hd

/-! ### Functions and programs -/

theorem param_lineAt {line : Int} {d : Datum} {p : Param} (h : param line d = .ok p) :
    p.toTree = d.paramTree (d.lineAt line) := by
  obtain ⟨start, metadata, l, t, target, line', ty, x, rfl, hline, ht, hx, rfl⟩ := param_cases h
  have hl := inherited_of_lineOf hline [.symbol l "param", t, target]
  rw [Param.toTree, Datum.paramTree, hl.here, hl.inside (i := 1) rfl, hl.inside (i := 2) rfl, type_lineAt ht,
    ident_lineAt hx]

theorem params_lineAt {line : Int} {d : Datum} {ps : List Param} (h : params line d = .ok ps) :
    ps.map Param.toTree = d.paramTrees (d.lineAt line) := by
  obtain ⟨l, items, rfl, hps⟩ := params_eq_ok_iff.1 h
  rw [Datum.paramTrees, Datum.items, map_eq_of_forall₂ hps fun d _ p hp => param_lineAt hp]
  exact ((Datum.inherited_array line l items).mapIdx_eq_map fun lines d => d.paramTree lines).symm

theorem block_lineAt {line : Int} {d : Datum} {ss : List Stmt} (h : block line d = .ok ss) :
    (⟨.block, "", line, Stmt.toTrees ss⟩ : Tree) = d.blockTree (d.lineAt line) := by
  obtain ⟨l, items, rfl, hs⟩ := block_eq_ok_iff.1 h
  exact stmts_lineAt hs fun d _ s hs => stmt_lineAt hs

theorem function_lineAt {line : Int} {d : Datum} {f : Function} (h : function line d = .ok f) :
    f.toTree = d.functionTree (d.lineAt line) := by
  obtain ⟨start, metadata, l, called, between, ps, body, line', rfl, hline, rfl, hn, hres, hp, hb, -⟩ :=
    function_cases h
  obtain ⟨m, text, rfl, hname⟩ := name_eq_ok_iff.1 hn
  rw [Function.toTree, params_lineAt hp, block_lineAt hb, hname]
  rcases hres with ⟨rfl, hvoid⟩ | ⟨t, rfl, ht⟩
  · have hl := inherited_of_lineOf hline [.symbol l "func", .symbol m text, ps, body]
    rw [hvoid, List.nil_append, Datum.functionTree, hl.here, hl.inside (i := 2) rfl, hl.inside (i := 3) rfl]
    rfl
  · have hl := inherited_of_lineOf hline [.symbol l "func", .symbol m text, t, ps, body]
    rw [List.singleton_append, Datum.functionTree, hl.here, hl.inside (i := 2) rfl, hl.inside (i := 3) rfl,
      hl.inside (i := 4) rfl, type_lineAt ht]
    rfl

theorem program_lineAt {d : Datum} {p : Program} (h : program d = .ok p) : p.toTree = d.programTree (d.lineAt 1) := by
  obtain ⟨start, metadata, l, items, rfl, hline, hf⟩ := program_cases h
  have hl := inherited_of_lineOf hline (.symbol l "program" :: items)
  rw [Program.toTree, Datum.programTree, hl.here, Datum.items, hl.mapIdx_eq_map fun lines d => d.functionTree lines,
    map_eq_of_forall₂ hf fun d _ f hf => function_lineAt hf]
  rfl

end Load

/-- Lines are inherited from the nearest list. A program that was loaded has the tree of the datum that the text holds,
and every node of it stands on the line that is written in the innermost list around its place, or on line one if none
of them has a line. -/
theorem Program.lines_of_nearest_lists {text : List Char} {p : Program} (h : Program.load text = .ok p) :
    ∃ d, Datum.parse text = .ok d ∧ p.toTree = d.programTree (d.lineAt 1) := by
  obtain ⟨d, hd, hp⟩ := Program.load_eq_ok_iff.1 h
  exact ⟨d, hd, Load.program_lineAt hp⟩

namespace Scattered

/-- A program with lines at some of its lists. The line of one name in a declaration says nothing about the next. -/
def text : List Char :=
  "(program (func f [] ^\x7bline: 4\x7d [(decl inteiro a (^\x7bline: 6\x7d init b (unary \"-\" 1)) c)
    (print (^\x7bline: 8\x7d binary \"+\" a (call f)))]) (func g [] []))".toList

/-- What the text is read as. -/
def datum : Datum :=
  .list 1 [] [.symbol 1 "program",
    .list 1 [("line", .number 1 "4")] [.symbol 1 "func", .symbol 1 "f", .array 1 [], .array 1 [
      .list 1 [] [.symbol 1 "decl", .symbol 1 "inteiro", .symbol 1 "a",
        .list 1 [("line", .number 1 "6")] [.symbol 1 "init", .symbol 1 "b",
          .list 1 [] [.symbol 1 "unary", .string 1 "-", .number 1 "1"]], .symbol 1 "c"],
      .list 2 [] [.symbol 2 "print", .list 2 [("line", .number 2 "8")] [.symbol 2 "binary", .string 2 "+",
        .symbol 2 "a", .list 2 [] [.symbol 2 "call", .symbol 2 "f"]]]]],
    .list 2 [] [.symbol 2 "func", .symbol 2 "g", .array 2 [], .array 2 []]]

def program : Program where
  line := 1
  functions := [
    { line := 4, name := "f", result := .void, params := []
      body := [
        .declare 4 .integer [⟨⟨4, "a"⟩, none⟩, ⟨⟨6, "b"⟩, some (.unary 6 .neg (.number 6 "1"))⟩, ⟨⟨4, "c"⟩, none⟩],
        .print 4 (.arithmetic 8 .add (.var 8 "a") (.call 8 ⟨8, "f"⟩ []))] },
    { line := 1, name := "g", result := .void, params := [], body := [] }]

set_option maxRecDepth 4000 in
theorem parse : Datum.parse text = .ok datum := by
  apply of_literal (P := (Datum.parse · = .ok datum))
  cbv

theorem load : Program.load text = .ok program := Program.load_eq_ok_iff.2 ⟨datum, parse, by rfl⟩

end Scattered

theorem scattered_lines :
    Program.load Scattered.text = .ok Scattered.program ∧ Datum.parse Scattered.text = .ok Scattered.datum ∧
    Scattered.program.toTree = Scattered.datum.programTree (Scattered.datum.lineAt 1) ∧
    Scattered.datum.lineAt 1 [1, 3, 0, 3, 2, 2] = 6 ∧ Scattered.datum.lineAt 1 [1, 3, 0, 4] = 4 := by
  obtain ⟨d, hd, htree⟩ := Program.lines_of_nearest_lists Scattered.load
  obtain rfl : d = Scattered.datum := Except.ok.inj (hd.symm.trans Scattered.parse)
  exact ⟨Scattered.load, Scattered.parse, htree, by decide, by decide⟩

end Arvore
