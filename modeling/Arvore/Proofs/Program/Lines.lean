import Mathlib
import Arvore.Proofs.Induction
import Arvore.Proofs.Program.Text

/-!
# The lines that a text carries

Functions, statements and calls are written with their lines. When the text is read again, every other part stands on
the line of what it is part of (`Program.relined`). Neither the text of a program nor its tree, up to the lines that are
not written (`Tree.carried`), is changed by that.
-/

namespace Arvore

/-! ### Trees -/

/-- The kinds of nodes whose line is written: functions, statements and calls. -/
def Kind.carriesLine : Kind → Bool
  | function | declaration | assignment | increment | call | branch | whileLoop | forLoop | read | print
  | result => true
  | _ => false

namespace Tree

mutual

/-- A tree without the lines that are not written. -/
def carried : Tree → Tree
  | ⟨kind, value, line, children⟩ => ⟨kind, value, if kind.carriesLine then line else 0, carriedAll children⟩

/-- Several trees without the lines that are not written. -/
def carriedAll : List Tree → List Tree
  | [] => []
  | t :: rest => carried t :: carriedAll rest

end

@[simp] theorem carriedAll_eq_map (ts : List Tree) : carriedAll ts = ts.map carried := by
  induction ts with
  | nil => rfl
  | cons t rest ih => rw [carriedAll, ih, List.map_cons]

@[simp] theorem carried_mk (kind : Kind) (value : String) (line : Int) (children : List Tree) :
    carried ⟨kind, value, line, children⟩ =
      ⟨kind, value, if kind.carriesLine then line else 0, children.map carried⟩ := by
  rw [carried, carriedAll_eq_map]

end Tree

/-! ### Programs as they are read -/

/-- A name on another line. -/
def Ident.relined (line : Int) (x : Ident) : Ident := ⟨line, x.name⟩

namespace Expr

mutual

/-- An expression as it is read on the given line. A call has a line of its own. -/
def relined (inherited : Int) : Expr → Expr
  | number _ text => number inherited text
  | string _ text => string inherited text
  | boolean _ word => boolean inherited word
  | var _ name => var inherited name
  | arithmetic _ op a b => arithmetic inherited op (relined inherited a) (relined inherited b)
  | logical _ op a b => logical inherited op (relined inherited a) (relined inherited b)
  | relational _ op a b => relational inherited op (relined inherited a) (relined inherited b)
  | unary _ op e => unary inherited op (relined inherited e)
  | call line callee args => call line (callee.relined line) (relinedAll line args)
  | foreign line kind => foreign line kind
  | absent => absent

/-- Several expressions as they are read on the given line. -/
def relinedAll (inherited : Int) : List Expr → List Expr
  | [] => []
  | e :: rest => relined inherited e :: relinedAll inherited rest

end

@[simp] theorem relinedAll_eq_map (line : Int) (es : List Expr) : relinedAll line es = es.map (relined line) := by
  induction es with
  | nil => rfl
  | cons e rest ih => rw [relinedAll, ih, List.map_cons]

end Expr

/-- An item of a declaration as it is read on the given line. -/
def DeclItem.relined (line : Int) (item : DeclItem) : DeclItem :=
  ⟨item.target.relined line, item.init.map (Expr.relined line)⟩

namespace Stmt

mutual

/-- A statement as it is read from its text. -/
def relined : Stmt → Stmt
  | declare line type items => declare line type (items.map (DeclItem.relined line))
  | assign line x e => assign line (x.relined line) (e.relined line)
  | increment line op x => increment line op (x.relined line)
  | call line callee args => call line (callee.relined line) (args.map (Expr.relined line))
  | ifThen line c body => ifThen line (c.relined line) (relinedAll body)
  | ifElse line c body other => ifElse line (c.relined line) (relinedAll body) (relinedAll other)
  | whileDo line c body => whileDo line (c.relined line) (relinedAll body)
  | forDo line i c s body => forDo line (relined i) (c.relined line) (relined s) (relinedAll body)
  | read line x => read line (x.relined line)
  | print line e => print line (e.relined line)
  | ret line e => ret line (e.map (Expr.relined line))
  | foreign line kind => foreign line kind
  | incomplete line kind => incomplete line kind

/-- Several statements as they are read from their texts. -/
def relinedAll : List Stmt → List Stmt
  | [] => []
  | s :: rest => relined s :: relinedAll rest

end

@[simp] theorem relinedAll_eq_map (ss : List Stmt) : relinedAll ss = ss.map relined := by
  induction ss with
  | nil => rfl
  | cons s rest ih => rw [relinedAll, ih, List.map_cons]

end Stmt

/-- A parameter as it is read on the given line. -/
def Param.relined (line : Int) (p : Param) : Param := ⟨line, p.type, p.target.relined line⟩

/-- A function as it is read from its text. -/
def Function.relined (f : Function) : Function :=
  { f with params := f.params.map (Param.relined f.line), body := f.body.map Stmt.relined }

/-- A program as it is read from its text. -/
def Program.relined (p : Program) : Program := ⟨1, p.functions.map Function.relined⟩

/-! ### What stays -/

attribute [local simp] Kind.carriesLine Expr.relined Expr.toTree Expr.text Stmt.relined Stmt.toTree Stmt.text

theorem Ident.carried_relined (x : Ident) (line : Int) : (x.relined line).toTree.carried = x.toTree.carried := by
  simp [toTree, relined]

theorem Ty.carried_toTree (t : Ty) (line line' : Int) : (t.toTree line).carried = (t.toTree line').carried := by
  simp [toTree]

theorem Expr.carried_operatorTree (line line' : Int) (symbol : String) :
    (operatorTree line symbol).carried = (operatorTree line' symbol).carried := by
  simp [operatorTree]

theorem Expr.carried_relined (e : Expr) (line : Int) : (e.relined line).toTree.carried = e.toTree.carried := by
  induction e generalizing line with
  | number | string | boolean | var => simp
  | arithmetic l op a b iha ihb | logical l op a b iha ihb | relational l op a b iha ihb =>
    simp [iha, ihb, carried_operatorTree line l]
  | unary l op e ih => simp [ih, carried_operatorTree line l]
  | call l callee args ih => simpa [Ident.carried_relined] using fun e he => ih e he l
  | foreign | absent => rfl

theorem Expr.text_relined (e : Expr) (line : Int) : (e.relined line).text = e.text := by
  induction e generalizing line with
  | call l callee args ih =>
    have hargs : (args.map (relined l)).map text = args.map text := by simpa using fun e he => ih e he l
    simp only [relined, relinedAll_eq_map, text, texts_eq_map, hargs, Ident.relined]
  | _ => simp_all [relined, text]

namespace DeclItem

theorem carried_chain (items : List DeclItem) (line : Int) :
    (chain (items.map (relined line))).map Tree.carried = (chain items).map Tree.carried := by
  induction items with
  | nil => rfl
  | cons item rest ih =>
    obtain ⟨target, init⟩ := item
    cases init <;>
      simp [chain, relined, Ident.carried_relined, Expr.carried_relined, ih]

theorem text_relined (item : DeclItem) (line : Int) : (item.relined line).text = item.text := by
  obtain ⟨target, init⟩ := item
  cases init <;> simp [relined, text, Ident.relined, Expr.text_relined]

end DeclItem

namespace Stmt

theorem carried_relined (s : Stmt) : s.relined.toTree.carried = s.toTree.carried := by
  induction s with
  | declare line type items => simp [DeclItem.carried_chain]
  | assign line x e => simp [Ident.carried_relined, Expr.carried_relined]
  | increment line op x | read line x => simp [Ident.carried_relined]
  | call line callee args => simp [Ident.carried_relined, Expr.carried_relined]
  | ifThen line c body ih | whileDo line c body ih => simpa [Expr.carried_relined] using ih
  | ifElse line c body other ihb iho => simpa [Expr.carried_relined] using ⟨ihb, iho⟩
  | forDo line i c s body ihi ihs ih => simpa [Expr.carried_relined, ihi, ihs] using ih
  | print line e => simp [Expr.carried_relined]
  | ret line value => cases value <;> simp [Expr.carried_relined]
  | foreign | incomplete => rfl

theorem text_relined (s : Stmt) : s.relined.text = s.text := by
  induction s with
  | declare line type items => simp [relined, text, Function.comp_def, DeclItem.text_relined]
  | assign line x e => simp [relined, text, Ident.relined, Expr.text_relined]
  | increment line op x | read line x => simp [relined, text, Ident.relined]
  | call line callee args => simp [relined, text, Ident.relined, Expr.text, Expr.text_relined, Function.comp_def]
  | ifThen line c body ih | whileDo line c body ih =>
    have hb : (body.map relined).map text = body.map text := by simpa using ih
    simp only [relined, text, relinedAll_eq_map, texts_eq_map, Expr.text_relined, hb]
  | ifElse line c body other ihb iho =>
    have hb : (body.map relined).map text = body.map text := by simpa using ihb
    have ho : (other.map relined).map text = other.map text := by simpa using iho
    simp only [relined, text, relinedAll_eq_map, texts_eq_map, Expr.text_relined, hb, ho]
  | forDo line i c s body ihi ihs ih =>
    have hb : (body.map relined).map text = body.map text := by simpa using ih
    simp only [relined, text, relinedAll_eq_map, texts_eq_map, Expr.text_relined, ihi, ihs, hb]
  | print line e => simp [relined, text, Expr.text_relined]
  | ret line value => cases value <;> simp [relined, text, Expr.text_relined]
  | foreign | incomplete => rfl

end Stmt

theorem Param.carried_relined (p : Param) (line : Int) : (p.relined line).toTree.carried = p.toTree.carried := by
  simp [toTree, relined, Ident.carried_relined, Ty.carried_toTree p.type line p.line]

theorem Param.text_relined (p : Param) (line : Int) : (p.relined line).text = p.text := rfl

theorem Function.carried_relined (f : Function) : f.relined.toTree.carried = f.toTree.carried := by
  simp [toTree, relined, Param.carried_relined, Stmt.carried_relined]

theorem Function.text_relined (f : Function) : f.relined.text = f.text := by
  simp [relined, text, Param.text_relined, Stmt.text_relined, Function.comp_def]

/-- A program keeps its tree, up to the lines that are not written. -/
theorem Program.carried_relined (p : Program) : p.relined.toTree.carried = p.toTree.carried := by
  simp [toTree, relined, Function.carried_relined]

/-- A program keeps its text. -/
theorem Program.text_relined (p : Program) : p.relined.text = p.text := by
  simp [relined, text, Function.text_relined, Function.comp_def]

end Arvore
