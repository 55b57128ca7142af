import Mathlib
import Arvore.Proofs.Program.Tree

/-!
# The text of a program

What is written for a program, described on the program itself and not on its tree. A well-formed program has a tree
that can be written, and this is its text (`Program.render_toTree`).
-/

namespace Arvore

open Arvore.Tree (form bracketed lineText)

namespace Expr

mutual

/-- The text of an expression. Calls carry their line, other expressions do not. -/
def text : Expr → String
  | number _ text | boolean _ text | var _ text => text
  | string _ text => (Datum.string 0 text).render
  | arithmetic _ op a b => form ["binary", Text.quoted op.symbol, text a, text b]
  | logical _ op a b => form ["logical", Text.quoted op.symbol, text a, text b]
  | relational _ op a b => form ["relational", Text.quoted op.symbol, text a, text b]
  | unary _ op e => form ["unary", Text.quoted op.symbol, text e]
  | call line callee args => form ["call", lineText line, callee.name, bracketed (texts args)]
  | foreign .. | absent => ""

/-- The texts of several expressions. -/
def texts : List Expr → List String
  | [] => []
  | e :: rest => text e :: texts rest

end

end Expr

/-- The text of one name of a declaration. -/
def DeclItem.text (item : DeclItem) : String :=
  match item.init with
  | none => item.target.name
  | some e => form ["init", item.target.name, e.text]

namespace Stmt

mutual

/-- The text of a statement, with its line. -/
def text : Stmt → String
  | declare line type items => form (["decl", type.word, lineText line] ++ items.map DeclItem.text)
  | assign line x e => form ["assign", lineText line, x.name, e.text]
  | increment line op x => form ["increment", lineText line, Text.quoted op.symbol, x.name]
  | call line callee args => (Expr.call line callee args).text
  | ifThen line c body => form ["if", lineText line, c.text, bracketed (texts body)]
  | ifElse line c body other =>
    form ["if", lineText line, c.text, bracketed (texts body), bracketed (texts other)]
  | whileDo line c body => form ["while", lineText line, c.text, bracketed (texts body)]
  | forDo line i c s body => form ["for", lineText line, text i, c.text, text s, bracketed (texts body)]
  | read line x => form ["read", lineText line, x.name]
  | print line e => form ["print", lineText line, e.text]
  | ret line none => form ["return", lineText line]
  | ret line (some e) => form ["return", lineText line, e.text]
  | foreign .. | incomplete .. => ""

/-- The texts of the statements of a block. -/
def texts : List Stmt → List String
  | [] => []
  | s :: rest => text s :: texts rest

end

end Stmt

/-- The text of a parameter. -/
def Param.text (p : Param) : String := form ["param", p.type.word, p.target.name]

/-- The text of a function, with its line. -/
def Function.text (f : Function) : String :=
  form ["func", f.name, f.result.word, lineText f.line, bracketed (f.params.map Param.text),
    bracketed (f.body.map Stmt.text)]

/-- The text of a program, one function on a line. -/
def Program.text (p : Program) : String :=
  "(program" ++ String.join (p.functions.map ("\n  " ++ ·.text)) ++ ")"

/-! ### Writing the tree -/

variable {L : Lexicon}

theorem Tree.renderAll_eq_ok {α : Type} {toTree : α → Tree} {text : α → String} {xs : List α}
    (h : ∀ x ∈ xs, render (toTree x) = .ok (text x)) : renderAll (xs.map toTree) = .ok (xs.map text) := by
  induction xs with
  | nil => rfl
  | cons x rest ih =>
    simp only [List.forall_mem_cons] at h
    simp only [List.map_cons, renderAll, h.1, ih h.2]
    rfl

theorem Tree.renderAll_append {ts us : List Tree} {ss rs : List String} (ht : renderAll ts = .ok ss)
    (hu : renderAll us = .ok rs) : renderAll (ts ++ us) = .ok (ss ++ rs) := by
  induction ts generalizing ss with
  | nil =>
    cases ht
    exact hu
  | cons t rest ih =>
    simp only [renderAll, bind_eq_ok_iff] at ht
    obtain ⟨s, hs, others, ho, h⟩ := ht
    cases h
    simp only [List.cons_append, renderAll, hs, ih ho]
    rfl

namespace Expr

@[simp] theorem texts_eq_map (es : List Expr) : texts es = es.map text := by
  induction es with
  | nil => rfl
  | cons e rest ih => rw [texts, ih, List.map_cons]

theorem render_toTree {e : Expr} (h : e.WellFormed L) : e.toTree.render = .ok e.text := by
  induction h with
  | number | string | boolean | var => rw [toTree, Tree.render, text]; rfl
  | arithmetic _ _ _ _ iha ihb | logical _ _ _ _ iha ihb | relational _ _ _ _ iha ihb =>
    simp only [toTree, operatorTree, Tree.render, Tree.renderFirst, iha, ihb, text]
    rfl
  | unary _ _ _ ih =>
    simp only [toTree, operatorTree, Tree.render, ih, text]
    rfl
  | call _ _ _ ih =>
    simp only [toTree, Tree.render, toTrees_eq_map, Tree.renderAll_eq_ok ih, text, texts_eq_map]
    rfl

end Expr

namespace DeclItem

/-- The text of the initial value is found before the links after an item. -/
private theorem renderInit_parts {item : DeclItem} (rest : List DeclItem) (h : item.WellFormed L) :
    Tree.renderInit (item.parts.2.toList ++ chain rest) = .ok (item.init.map Expr.text) := by
  obtain ⟨target, init⟩ := item
  cases init with
  | none => cases rest <;> simp [parts, chain, Tree.renderInit]
  | some e =>
    have hk := Expr.kind_toTree_ne (h.init e rfl)
    have he := Expr.render_toTree (h.init e rfl)
    cases rest <;> simp [parts, chain, Tree.renderInit, hk, he]

/-- The links after an item are found behind its initial value. -/
private theorem renderLink_parts {item : DeclItem} {rest : List DeclItem} (h : item.WellFormed L) :
    Tree.renderLink (item.parts.2.toList ++ chain rest) = Tree.renderLink (chain rest) := by
  obtain ⟨target, init⟩ := item
  cases init with
  | none => rfl
  | some e =>
    have hk := Expr.kind_toTree_ne (h.init e rfl)
    cases rest <;> simp [parts, chain, Tree.renderLink, hk]

theorem renderLink_chain {items : List DeclItem} (h : ∀ item ∈ items, item.WellFormed L) :
    Tree.renderLink (chain items) = .ok (items.map text) := by
  induction items with
  | nil => rfl
  | cons item rest ih =>
    simp only [List.forall_mem_cons] at h
    have hi := renderInit_parts rest h.1
    have hl := (renderLink_parts h.1).trans (ih h.2)
    simp only [parts] at hi hl
    simp only [chain, Tree.renderLink, List.any_nil, Bool.false_eq_true, if_false, if_true, List.cons_append,
      Tree.renderChain, hi, hl]
    obtain ⟨target, init⟩ := item
    cases init <;> rfl

end DeclItem

namespace Stmt

@[simp] theorem texts_eq_map (ss : List Stmt) : texts ss = ss.map text := by
  induction ss with
  | nil => rfl
  | cons s rest ih => rw [texts, ih, List.map_cons]

theorem render_toTree {s : Stmt} (h : s.WellFormed L) : s.toTree.render = .ok s.text := by
  induction h with
  | @declare line type items _ _ hne hi =>
    obtain ⟨item, rest, rfl⟩ := List.exists_cons_of_ne_nil hne
    have hl := DeclItem.renderLink_chain hi
    simp only [DeclItem.chain, Tree.renderLink, List.any_nil, Bool.false_eq_true, if_false, if_true] at hl
    simp only [toTree, Ty.toTree, DeclItem.chain, Tree.render, hl, text]
    rfl
  | assign _ _ he =>
    simp only [toTree, Tree.render, Expr.render_toTree he, text]
    rfl
  | increment | read =>
    simp only [toTree, Tree.render, text]
    rfl
  | call hl hc ha =>
    have h := Expr.render_toTree (.call hl hc ha)
    rw [Expr.toTree] at h
    rw [toTree, text, h]
  | ifThen _ hc _ ih =>
    simp only [toTree, Tree.render, Tree.renderFirst, Expr.render_toTree hc, toTrees_eq_map, Tree.renderAll_eq_ok ih,
      text, texts_eq_map]
    rfl
  | ifElse _ hc _ _ ihb iho =>
    simp only [toTree, Tree.render, Expr.render_toTree hc, toTrees_eq_map, Tree.renderAll_eq_ok ihb,
      Tree.renderAll_eq_ok iho, text, texts_eq_map]
    rfl
  | whileDo _ hc _ ih =>
    simp only [toTree, Tree.render, Tree.renderLast, Expr.render_toTree hc, toTrees_eq_map, Tree.renderAll_eq_ok ih,
      text, texts_eq_map]
    rfl
  | forDo _ _ hc _ _ ihi ihs ih =>
    simp only [toTree, Tree.render, Tree.renderFirst, Tree.renderLast, Expr.render_toTree hc, ihi, ihs,
      toTrees_eq_map, Tree.renderAll_eq_ok ih, text, texts_eq_map]
    rfl
  | print _ he =>
    simp only [toTree, Tree.render, Expr.render_toTree he, text]
    rfl
  | @ret line value _ he =>
    cases value with
    | none =>
      simp only [toTree, Option.map_none, Option.toList_none, Tree.render, text]
      rfl
    | some e =>
      simp only [toTree, Option.map_some, Option.toList_some, Tree.render, Expr.render_toTree (he e rfl), text]
      rfl

end Stmt

theorem Param.render_toTree (p : Param) : p.toTree.render = .ok p.text := by
  simp only [Param.toTree, Ty.toTree, Ident.toTree, Tree.render, Param.text]
  rfl

theorem Function.render_toTree {f : Function} (h : f.WellFormed L) : f.toTree.render = .ok f.text := by
  have hb : Tree.renderAll [⟨.block, "", f.line, f.body.map Stmt.toTree⟩] = .ok [bracketed (f.body.map Stmt.text)] := by
    simp only [Tree.renderAll, Tree.render, Tree.renderAll_eq_ok fun s hs => Stmt.render_toTree (h.body s hs)]
    rfl
  have hp : Tree.renderAll (f.params.map Param.toTree) = .ok (f.params.map Param.text) :=
    Tree.renderAll_eq_ok fun p _ => p.render_toTree
  simp only [Function.toTree, Ty.toTree, List.cons_append, Stmt.toTrees_eq_map, Tree.render,
    Tree.renderAll_append hp hb]
  simp [bind, Except.bind, pure, Except.pure, Function.text]

/-- What is written for a well-formed program. -/
theorem Program.render_toTree {p : Program} (h : p.WellFormed L) : p.toTree.render = .ok p.text := by
  simp only [Program.toTree, Tree.render, Tree.renderAll_eq_ok fun f hf => Function.render_toTree (h.functions f hf)]
  simp [Program.text, Function.comp_def, bind, Except.bind, pure, Except.pure]

end Arvore
