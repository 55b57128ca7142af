import Mathlib
import Arvore.Proofs.Analysis.Declarations
import Arvore.Proofs.Program.Shape

/-!
# The positions of diagnostics

A diagnostic stands on the line of a node of the program tree; if it is about a name that is not found, the node is this
name. A look-up in a table does not know its line, and every step that looks a name up fills in the line of the name
(`Blames`). A name that is declared again is reported at the second declaration, with the line of the first
(`Redeclares`). The program fails with the first function that fails, and a function with its declarations before its
statements (`Program.FirstFailure`).
-/

namespace Arvore

/-! ### Names that are declared again -/

section Redeclares

variable {α : Type} {name : α → String} {line : α → Int}

/-- The diagnostic for the first name of a list that comes a second time. It stands on the line of the second
declaration and cites that of the first. -/
inductive Redeclares (name : α → String) (line : α → Int) (xs : List α) (d : Diagnostic) : Prop
  | intro {before first between again after} (hxs : xs = before ++ first :: between ++ again :: after)
      (hname : name again = name first) (hnew : ((before ++ first :: between).map name).Nodup)
      (hline : d.line = line again) (hcause : d.cause = .redeclared (name first) d.previousLine)
      (hprevious : d.previousLine = line first)

theorem Redeclares.exists_line {xs : List α} {d : Diagnostic} (h : Redeclares name line xs d) :
    ∃ x ∈ xs, d.line = line x := by
  obtain ⟨rfl, -, -, hline, -, -⟩ := h
  exact ⟨_, by simp, hline⟩

theorem Redeclares.kind {xs : List α} {d : Diagnostic} (h : Redeclares name line xs d) : d.kind = .redeclaration := by
  obtain ⟨-, -, -, -, hcause, -⟩ := h
  rw [Diagnostic.kind, hcause]
  rfl

/-- A table that holds the names of a list with their lines, each of them once. -/
structure SymbolTable.Holds (name : α → String) (line : α → Int) (xs : List α) (t : SymbolTable) : Prop where
  entries : t.entries.map (fun entry => (entry.1, entry.2.line)) = xs.map fun x => (name x, line x)
  distinct : (xs.map name).Nodup

namespace SymbolTable

theorem Holds.names {xs : List α} {t : SymbolTable} (h : t.Holds name line xs) :
    t.entries.map Prod.fst = xs.map name := by
  have hfst := congrArg (List.map Prod.fst) h.entries
  rwa [List.map_map, List.map_map] at hfst

theorem Holds.define {xs : List α} {t t' : SymbolTable} (h : t.Holds name line xs) {x : α} {s : Symbol}
    (hs : s.line = line x) (hd : t.define (name x) s = .ok t') : t'.Holds name line (xs ++ [x]) := by
  obtain ⟨hnone, rfl⟩ := define_eq_ok_iff.1 hd
  have hnew := find?_eq_none_iff.1 hnone
  rw [h.names] at hnew
  refine ⟨by simp [h.entries, hs], ?_⟩
  rw [List.map_append, List.map_singleton, ← List.concat_eq_append, List.nodup_concat]
  exact ⟨hnew, h.distinct⟩

theorem define_eq_error {t : SymbolTable} {n : String} {s : Symbol} {d : Diagnostic} (h : t.define n s = .error d) :
    ∃ previous, t.find? n = some previous ∧ d = ⟨s.line, .redeclared n previous.line⟩ := by
  unfold SymbolTable.define at h
  split at h
  · rename_i previous hfound
    cases h
    exact ⟨previous, hfound, rfl⟩
  · cases h

/-- The entry that is found under a name is that of its first declaration. -/
theorem Holds.redeclares {before : List α} {t : SymbolTable} (h : t.Holds name line before) {x : α} {s : Symbol}
    (hs : s.line = line x) {d : Diagnostic} (hd : t.define (name x) s = .error d) (after : List α) :
    Redeclares name line (before ++ x :: after) d := by
  obtain ⟨previous, hfound, rfl⟩ := define_eq_error hd
  obtain ⟨earlier, later, hentries, -⟩ := List.lookup_eq_some_iff.1 hfound
  have hsplit := h.entries
  rw [hentries, List.map_append, List.map_cons] at hsplit
  obtain ⟨start, rest, rfl, -, hrest⟩ := List.map_eq_append_iff.1 hsplit.symm
  obtain ⟨first, between, rfl, hfirst, -⟩ := List.map_eq_cons_iff.1 hrest
  obtain ⟨hname, hline⟩ := Prod.mk.inj hfirst
  exact .intro rfl hname.symm h.distinct hs (by rw [hname]; rfl) hline.symm

/-- A fold whose steps define one symbol each makes a table of what it goes through. -/
theorem Holds.foldlM {f : SymbolTable → α → Except Failure SymbolTable}
    (hf : ∀ t x t', f t x = .ok t' → ∃ s : Symbol, s.line = line x ∧ t.define (name x) s = .ok t') {done xs : List α}
    {t t' : SymbolTable} (ht : t.Holds name line done) (h : xs.foldlM f t = .ok t') :
    t'.Holds name line (done ++ xs) := by
  induction xs generalizing done t with
  | nil =>
    cases h
    rwa [List.append_nil]
  | cons x rest ih =>
    rw [List.foldlM_cons, bind_eq_ok_iff] at h
    obtain ⟨u, hx, hrest⟩ := h
    obtain ⟨s, hs, hdefine⟩ := hf t x u hx
    rw [List.append_cons]
    exact ih (ht.define hs hdefine) hrest

theorem Holds.nil : SymbolTable.Holds name line [] {} := ⟨rfl, .nil⟩

/-- Declaring a variable defines a symbol on its line. -/
theorem define_of_declare {t t' : SymbolTable} {v : Variable} (h : t.declare v = .ok t') :
    ∃ s : Symbol, s.line = v.line ∧ t.define v.name s = .ok t' := by
  obtain ⟨size, -, hnone, rfl⟩ := declare_eq_ok_iff.1 h
  exact ⟨_, rfl, define_eq_ok_iff.2 ⟨hnone, rfl⟩⟩

theorem define_of_declare_error {t : SymbolTable} {v : Variable} {d : Diagnostic}
    (h : t.declare v = .error (.diagnostic d)) : ∃ s : Symbol, s.line = v.line ∧ t.define v.name s = .error d := by
  rcases bind_eq_error_iff.1 h with h | ⟨_, -, h⟩
  · rcases bind_eq_error_iff.1 h with h | ⟨offset, -, h⟩
    · obtain ⟨_, -, hfault⟩ := mapError_eq_error_iff.1 h
      cases hfault
    · rcases bind_eq_error_iff.1 h with h | ⟨_, -, h⟩
      · obtain ⟨_, hdefine, hd⟩ := mapError_eq_error_iff.1 h
        cases hd
        exact ⟨_, rfl, hdefine⟩
      · cases h
  · cases h

end SymbolTable

end Redeclares

namespace Function

theorem define_eq_ok {t t' : SymbolTable} {f : Function} (h : Function.define t f = .ok t') :
    ∃ s : Symbol, s.line = f.line ∧ t.define f.name s = .ok t' := by
  obtain ⟨s, hs, h⟩ := bind_eq_ok_iff.1 h
  obtain ⟨_, -, hpure⟩ := bind_eq_ok_iff.1 (mapError_eq_ok_iff.1 hs)
  cases hpure
  exact ⟨_, rfl, mapError_eq_ok_iff.1 h⟩

theorem define_eq_error {t : SymbolTable} {f : Function} {d : Diagnostic}
    (h : Function.define t f = .error (.diagnostic d)) :
    ∃ s : Symbol, s.line = f.line ∧ t.define f.name s = .error d := by
  rcases bind_eq_error_iff.1 h with h | ⟨s, hs, h⟩
  · obtain ⟨_, -, hfault⟩ := mapError_eq_error_iff.1 h
    cases hfault
  · obtain ⟨_, -, hpure⟩ := bind_eq_ok_iff.1 (mapError_eq_ok_iff.1 hs)
    cases hpure
    obtain ⟨_, hdefine, hd⟩ := mapError_eq_error_iff.1 h
    cases hd
    exact ⟨_, rfl, hdefine⟩

end Function

/-- The global table fails with a function whose name is taken. -/
theorem Program.redeclares_of_globals {p : Program} {d : Diagnostic} (h : p.globals = .error (.diagnostic d)) :
    Redeclares Function.name Function.line p.functions d := by
  obtain ⟨before, f, after, t, hp, hbefore, hf⟩ := foldlM_eq_error h
  have hstep : ∀ t f t', Function.define t f = .ok t' → ∃ s : Symbol, s.line = f.line ∧ t.define f.name s = .ok t' :=
    fun _ _ _ => Function.define_eq_ok
  have hholds := SymbolTable.Holds.nil.foldlM hstep hbefore
  obtain ⟨s, hs, hdefine⟩ := Function.define_eq_error hf
  rw [hp]
  exact hholds.redeclares hs hdefine after

/-! ### Steps that blame a node -/

/-- A diagnostic about a node: it stands on the line of the node, and the name that it does not find is the node. -/
def Diagnostic.PointsAt (d : Diagnostic) (t : Tree) : Prop :=
  t.line = d.line ∧ ∀ name, d.cause = .notFound name → t.kind = .identifier ∧ t.value = name

/-- A step whose diagnostics are about one of the given nodes. None of them is about a name that is declared again. -/
def Blames {α : Type} (nodes : List Tree) (x : Except Failure α) : Prop :=
  ∀ d, x = .error (.diagnostic d) → d.kind ≠ .redeclaration ∧ ∃ t ∈ nodes, d.PointsAt t

namespace Blames

variable {α β : Type} {nodes nodes' : List Tree}

theorem ok (a : α) : Blames nodes (.ok a) := fun _ h => by cases h

theorem fault (fault : Fault) : Blames nodes (.error (.fault fault) : Except Failure α) := fun _ h => by cases h

theorem reject {line : Int} {cause : Diagnostic.Cause} (hline : ∃ t ∈ nodes, t.line = line)
    (hkind : cause.kind ∈ [.typeMismatch, .invalidForLoop, .paramCount]) :
    Blames nodes (reject line cause : Except Failure α) := by
  intro d h
  cases h
  obtain ⟨t, ht, hline⟩ := hline
  refine ⟨?_, t, ht, hline, ?_⟩
  · intro (hredeclared : cause.kind = .redeclaration)
    simp [hredeclared] at hkind
  · rintro name rfl
    simp [Diagnostic.Cause.kind] at hkind

theorem bind {x : Except Failure α} {f : α → Except Failure β} (hx : Blames nodes x) (hf : ∀ a, Blames nodes (f a)) :
    Blames nodes (x >>= f) := by
  intro d h
  rcases bind_eq_error_iff.1 h with h | ⟨a, -, h⟩
  · exact hx d h
  · exact hf a d h

theorem mono {x : Except Failure α} (h : Blames nodes x) (hsub : nodes ⊆ nodes') : Blames nodes' x := by
  intro d hd
  obtain ⟨hkind, t, ht, hpoints⟩ := h d hd
  exact ⟨hkind, t, hsub ht, hpoints⟩

/-- A check that rejects at the line of a node or passes. -/
theorem check {c : Prop} [Decidable c] {line : Int} {cause : Diagnostic.Cause} (hline : ∃ t ∈ nodes, t.line = line)
    (hkind : cause.kind ∈ [.typeMismatch, .invalidForLoop, .paramCount]) (a : α) :
    Blames nodes (if c then Arvore.reject line cause else .ok a) := by
  split
  · exact reject hline hkind
  · exact ok a

end Blames

namespace Tree

/-- The statements of a block that is a child. -/
theorem nodes_subset_of_block {t s : Tree} {line : Int} {statements : List Tree}
    (hb : ⟨.block, "", line, statements⟩ ∈ t.children) (hs : s ∈ statements) : s.nodes ⊆ t.nodes :=
  List.Subset.trans (nodes_subset hs) (nodes_subset hb)

theorem child_mem_nodes {t c : Tree} (hc : c ∈ t.children) : c ∈ t.nodes := nodes_subset hc c.mem_nodes_self

theorem exists_line (t : Tree) : ∃ n ∈ t.nodes, n.line = t.line := ⟨t, t.mem_nodes_self, rfl⟩

end Tree

/-- A look-up that has been given the line of the name. -/
theorem SymbolTable.lookup_blames {nodes : List Tree} {x : Ident} (h : x.toTree ∈ nodes) (t : SymbolTable) :
    Blames nodes ((t.lookup x.name).mapError fun d => .diagnostic (d.atLine x.line)) := by
  intro d hd
  obtain ⟨found, hlookup, hfound⟩ := mapError_eq_error_iff.1 hd
  unfold SymbolTable.lookup at hlookup
  split at hlookup
  · cases hlookup
  · cases hlookup
    cases hfound
    refine ⟨nofun, x.toTree, h, rfl, ?_⟩
    intro name hname
    cases hname
    exact ⟨rfl, rfl⟩

/-! ### Types -/

section Types

variable {nodes : List Tree} {line : Int} (hline : ∃ t ∈ nodes, t.line = line)

include hline

theorem ArithmeticOp.typeOf_blames (op : ArithmeticOp) (left right : Ty) :
    Blames nodes (op.typeOf line left right) := by
  unfold ArithmeticOp.typeOf
  split
  · exact .ok _
  · exact .reject hline (.head _)

theorem LogicalOp.typeOf_blames (op : LogicalOp) (left right : Ty) : Blames nodes (op.typeOf line left right) := by
  unfold LogicalOp.typeOf
  split
  · exact .ok _
  · exact .reject hline (.head _)

theorem UnaryOp.typeOf_blames (op : UnaryOp) (operand : Ty) : Blames nodes (op.typeOf line operand) := by
  unfold UnaryOp.typeOf
  split
  · split
    · exact .ok _
    · exact .reject hline (.head _)
  · split
    · exact .ok _
    · exact .reject hline (.head _)
  · exact .ok _

theorem Signature.checkArguments_blames (function : String) (position : Nat) (params args : List Ty) :
    Blames nodes (checkArguments line function position params args) := by
  fun_induction checkArguments line function position params args with
  | case1 => assumption
  | case2 => exact .reject hline (.head _)
  | case3 => exact .ok _

theorem Symbol.typeOfCall_blames (s : Symbol) (args : List Ty) : Blames nodes (s.typeOfCall line args) := by
  unfold Symbol.typeOfCall
  dsimp only
  split
  · exact .bind (Signature.checkArguments_blames hline _ _ _ _) fun _ => .ok _
  · exact .reject hline (.tail _ (.tail _ (.head _)))

end Types

namespace Expr

theorem line_toTree (e : Expr) : e.toTree.line = e.line := by
  cases e <;> rw [toTree] <;> rfl

theorem typesOf_blames {nodes : List Tree} {scope : Scope} {es : List Expr}
    (h : ∀ e ∈ es, Blames nodes (e.typeOf scope)) : Blames nodes (typesOf scope es) := by
  induction es with
  | nil => exact .ok _
  | cons e rest ih =>
    rw [List.forall_mem_cons] at h
    rw [typesOf]
    exact .bind h.1 fun _ => .bind (ih h.2) fun _ => .ok _

/-- The operands of an operation come before the operation itself. -/
theorem operands_blames {a b : Expr} {scope : Scope} (ha : Blames a.toTree.nodes (a.typeOf scope))
    (hb : Blames b.toTree.nodes (b.typeOf scope)) {kind : Kind} {line : Int} {op : Tree}
    {f : Ty → Ty → Except Failure Ty}
    (hf : ∀ left right, Blames (Tree.nodes ⟨kind, "", line, [a.toTree, op, b.toTree]⟩) (f left right)) :
    Blames (Tree.nodes ⟨kind, "", line, [a.toTree, op, b.toTree]⟩) (do f (← a.typeOf scope) (← b.typeOf scope)) :=
  .bind (ha.mono (Tree.nodes_subset (by simp))) fun _ => .bind (hb.mono (Tree.nodes_subset (by simp))) fun _ => hf _ _

theorem typeOf_blames (e : Expr) (scope : Scope) : Blames e.toTree.nodes (e.typeOf scope) := by
  induction e with
  | number | string | boolean =>
    rw [typeOf]
    exact .ok _
  | var line name =>
    rw [typeOf, toTree]
    exact .bind (SymbolTable.lookup_blames (Tree.mem_nodes_self _) _) fun _ => .ok _
  | arithmetic line op a b iha ihb =>
    rw [typeOf, toTree]
    exact operands_blames iha ihb (ArithmeticOp.typeOf_blames (Tree.exists_line _) op)
  | logical line op a b iha ihb =>
    rw [typeOf, toTree]
    exact operands_blames iha ihb (LogicalOp.typeOf_blames (Tree.exists_line _) op)
  | relational line op a b iha ihb =>
    rw [typeOf, toTree]
    exact operands_blames iha ihb fun _ _ => .ok _
  | unary line op e ih =>
    rw [typeOf, toTree]
    exact .bind (ih.mono (Tree.nodes_subset (by simp))) fun _ => UnaryOp.typeOf_blames (Tree.exists_line _) _ _
  | call line callee args ih =>
    rw [typeOf, toTree, toTrees_eq_map]
    -- the function is looked up before the arguments
    refine .bind (SymbolTable.lookup_blames (Tree.child_mem_nodes (.head _)) _) fun _ =>
      .bind (typesOf_blames fun e he => (ih e he).mono (Tree.nodes_subset ?_)) fun _ =>
        Symbol.typeOfCall_blames (Tree.exists_line _) _ _
    exact List.mem_cons_of_mem _ (List.mem_map_of_mem he)
  | foreign line kind =>
    rw [typeOf]
    exact .fault _
  | absent =>
    rw [typeOf]
    exact .fault _

end Expr

/-! ### Statements -/

/-- The condition of a statement is its child. -/
theorem Expr.checkCondition_blames (cond : Expr) (scope : Scope) (statement : Conditional) :
    Blames cond.toTree.nodes (cond.checkCondition scope statement) :=
  .bind (cond.typeOf_blames scope) fun _ => .check (line_toTree cond ▸ cond.toTree.exists_line) (.head _) _

theorem Ident.checkAssign_blames (scope : Scope) (line : Int) (x : Ident) (e : Expr) :
    Blames (Stmt.assign line x e).toTree.nodes (x.checkAssign scope line e) := by
  rw [Stmt.toTree]
  exact .bind (SymbolTable.lookup_blames (Tree.child_mem_nodes (.head _)) _) fun _ =>
    .bind ((e.typeOf_blames scope).mono (Tree.nodes_subset (by simp))) fun _ =>
      .check (Tree.exists_line _) (.head _) _

theorem Ident.checkIncrement_blames (scope : Scope) (line : Int) (op : StepOp) (x : Ident) :
    Blames (Stmt.increment line op x).toTree.nodes (x.checkIncrement scope line) := by
  rw [Stmt.toTree]
  exact .bind (SymbolTable.lookup_blames (Tree.child_mem_nodes (.head _)) _) fun _ =>
    .check (Tree.exists_line _) (.head _) _

theorem Place.checkReturn_blames (place : Place) (line : Int) (value : Option Expr) :
    Blames (Stmt.ret line value).toTree.nodes (place.checkReturn line value) := by
  rw [Stmt.toTree]
  cases value with
  | none => exact .check (Tree.exists_line _) (.head _) _
  | some e =>
    exact .bind ((e.typeOf_blames place.scope).mono (Tree.nodes_subset (by simp))) fun _ =>
      .check (Tree.exists_line _) (.head _) _

namespace Stmt

theorem line_toTree (s : Stmt) : s.toTree.line = s.line := by
  cases s <;> rw [toTree] <;> rfl

theorem checkLoopStart_blames (s : Stmt) (scope : Scope) : Blames s.toTree.nodes (s.checkLoopStart scope) := by
  have hline := line_toTree s ▸ s.toTree.exists_line
  unfold checkLoopStart
  split
  · exact Ident.checkAssign_blames _ _ _ _
  · exact .fault _
  · exact .reject hline (.tail _ (.head _))

theorem checkLoopStep_blames (s : Stmt) (scope : Scope) : Blames s.toTree.nodes (s.checkLoopStep scope) := by
  have hline := line_toTree s ▸ s.toTree.exists_line
  unfold checkLoopStep
  split
  · exact Ident.checkAssign_blames _ _ _ _
  · exact Ident.checkIncrement_blames _ _ _ _
  · exact .fault _
  · exact .fault _
  · exact .reject hline (.tail _ (.head _))

theorem checkAll_blames {nodes : List Tree} {place : Place} {body : List Stmt}
    (h : ∀ s ∈ body, Blames nodes (s.check place)) : Blames nodes (checkAll place body) := by
  induction body with
  | nil => exact .ok _
  | cons s rest ih =>
    rw [List.forall_mem_cons] at h
    rw [checkAll]
    exact .bind h.1 fun _ => ih h.2

/-- Checking a block blames a node of one of its statements. -/
theorem checkAll_blames_of_block {t : Tree} {line : Int} {place : Place} {body : List Stmt}
    (hb : ⟨.block, "", line, body.map toTree⟩ ∈ t.children)
    (ih : ∀ s ∈ body, Blames s.toTree.nodes (s.check place)) : Blames t.nodes (checkAll place body) :=
  checkAll_blames fun s hs => (ih s hs).mono (Tree.nodes_subset_of_block hb (List.mem_map_of_mem hs))

theorem check_blames (s : Stmt) (place : Place) : Blames s.toTree.nodes (s.check place) := by
  induction s with
  | declare =>
    rw [check]
    exact .ok _
  | assign line x e =>
    rw [check]
    exact Ident.checkAssign_blames _ _ _ _
  | increment line op x =>
    rw [check]
    exact Ident.checkIncrement_blames _ _ _ _
  | call line callee args =>
    have h := (Expr.call line callee args).typeOf_blames place.scope
    rw [Expr.toTree] at h
    rw [check, toTree]
    exact .bind h fun _ => .ok _
  | ifThen line c body ih =>
    rw [check, toTree, toTrees_eq_map]
    exact .bind ((c.checkCondition_blames _ _).mono (Tree.nodes_subset (by simp))) fun _ =>
      checkAll_blames_of_block (.tail _ (.head _)) ih
  | ifElse line c body other ihb iho =>
    rw [check, toTree, toTrees_eq_map, toTrees_eq_map]
    exact .bind ((c.checkCondition_blames _ _).mono (Tree.nodes_subset (by simp))) fun _ =>
      .bind (checkAll_blames_of_block (.tail _ (.head _)) ihb) fun _ =>
        checkAll_blames_of_block (.tail _ (.tail _ (.head _))) iho
  | whileDo line c body ih =>
    rw [check, toTree, toTrees_eq_map]
    exact .bind ((c.checkCondition_blames _ _).mono (Tree.nodes_subset (by simp))) fun _ =>
      checkAll_blames_of_block (.tail _ (.head _)) ih
  | forDo line i c s body _ _ ih =>
    rw [check, toTree, toTrees_eq_map]
    exact .bind ((i.checkLoopStart_blames _).mono (Tree.nodes_subset (by simp))) fun _ =>
      .bind ((c.checkCondition_blames _ _).mono (Tree.nodes_subset (by simp))) fun _ =>
        .bind ((s.checkLoopStep_blames _).mono (Tree.nodes_subset (by simp))) fun _ =>
          checkAll_blames_of_block (.tail _ (.tail _ (.tail _ (.head _)))) ih
  | read line x =>
    rw [check, toTree]
    exact .bind (SymbolTable.lookup_blames (Tree.child_mem_nodes (.head _)) _) fun _ => .ok _
  | print line e =>
    rw [check, toTree]
    exact .bind ((e.typeOf_blames _).mono (Tree.nodes_subset (by simp))) fun _ => .ok _
  | ret line value =>
    rw [check]
    exact place.checkReturn_blames _ _
  | foreign line kind =>
    rw [check]
    exact .fault _
  | incomplete line kind =>
    rw [check]
    exact .fault _

end Stmt

/-! ### Declarations -/

/-- A declaration on the line of one of the given nodes, with its initial value among them. -/
structure Declaration.StandsIn (nodes : List Tree) (v : Declaration) : Prop where
  line : ∃ t ∈ nodes, t.line = v.line
  init : ∀ e, v.init = some e → e.toTree.nodes ⊆ nodes

theorem Declaration.StandsIn.mono {nodes nodes' : List Tree} {v : Declaration} (h : v.StandsIn nodes)
    (hsub : nodes ⊆ nodes') : v.StandsIn nodes' := by
  obtain ⟨t, ht, hline⟩ := h.line
  exact ⟨⟨t, hsub ht, hline⟩, fun e he => List.Subset.trans (h.init e he) hsub⟩

/-- The items of a declaration stand in its chain of links. -/
theorem DeclItem.standsIn_chain (type : Ty) {items : List DeclItem} {item : DeclItem} (h : item ∈ items) :
    ∃ t ∈ chain items, (item.declaration type).StandsIn t.nodes := by
  induction items with
  | nil => cases h
  | cons first rest ih =>
    refine ⟨_, List.mem_singleton_self _, ?_⟩
    rcases List.mem_cons.1 h with rfl | h
    · refine ⟨Tree.exists_line _, fun e he => Tree.nodes_subset ?_⟩
      have hinit : item.init = some e := he
      simp [hinit]
    · obtain ⟨t, ht, hstands⟩ := ih h
      exact hstands.mono (Tree.nodes_subset (List.mem_append_right _ ht))

theorem Stmt.standsIn_of_mem_declarations (s : Stmt) : ∀ v ∈ s.declarations, v.StandsIn s.toTree.nodes := by
  -- a declaration in a block of a statement stands in the statement
  have block {t : Tree} {line : Int} {body : List Stmt} (hb : ⟨.block, "", line, body.map toTree⟩ ∈ t.children)
      (ih : ∀ s ∈ body, ∀ v ∈ s.declarations, v.StandsIn s.toTree.nodes) :
      ∀ v ∈ declarationsAll body, v.StandsIn t.nodes := by
    intro v hv
    rw [declarationsAll_eq_flatMap, List.mem_flatMap] at hv
    obtain ⟨s, hs, hv⟩ := hv
    exact (ih s hs v hv).mono (Tree.nodes_subset_of_block hb (List.mem_map_of_mem hs))
  induction s with
  | declare line type items =>
    rw [declarations, toTree]
    refine List.forall_mem_map.2 fun item hitem => ?_
    obtain ⟨t, ht, hstands⟩ := DeclItem.standsIn_chain type hitem
    exact hstands.mono (Tree.nodes_subset (List.mem_cons_of_mem _ ht))
  | ifThen line c body ih | whileDo line c body ih =>
    rw [declarations, toTree, toTrees_eq_map]
    exact block (.tail _ (.head _)) ih
  | ifElse line c body other ihb iho =>
    rw [declarations, toTree, toTrees_eq_map, toTrees_eq_map]
    exact List.forall_mem_append.2 ⟨block (.tail _ (.head _)) ihb, block (.tail _ (.tail _ (.head _))) iho⟩
  | forDo line i c s body _ _ ih =>
    rw [declarations, toTree, toTrees_eq_map]
    exact block (.tail _ (.tail _ (.tail _ (.head _)))) ih
  | _ => simp [declarations]

theorem DeclItem.checkInit_blames {nodes : List Tree} {v : Declaration} (h : v.StandsIn nodes) (scope : Scope) :
    Blames nodes (DeclItem.checkInit scope v.type ⟨⟨v.line, v.name⟩, v.init⟩) := by
  unfold DeclItem.checkInit
  split
  · exact .ok _
  · rename_i e he
    exact .bind ((e.typeOf_blames scope).mono (h.init e he)) fun _ => .check h.line (.head _) _

namespace Function

theorem nodes_subset_of_body {f : Function} {s : Stmt} (hs : s ∈ f.body) : s.toTree.nodes ⊆ f.toTree.nodes := by
  refine Tree.nodes_subset_of_block (List.mem_append_right _ (.head _)) ?_
  rw [Stmt.toTrees_eq_map]
  exact List.mem_map_of_mem hs

theorem standsIn_of_mem_declarations {f : Function} : ∀ v ∈ f.declarations, v.StandsIn f.toTree.nodes := by
  rw [declarations, List.forall_mem_append, Stmt.declarationsAll_eq_flatMap]
  constructor
  · refine List.forall_mem_map.2 fun p hp => ?_
    have hchild : p.toTree ∈ f.toTree.children := by
      simp only [Function.toTree, List.cons_append, List.mem_cons, List.mem_append]
      exact .inr (.inl (List.mem_map_of_mem hp))
    refine ⟨⟨p.toTree, Tree.child_mem_nodes hchild, rfl⟩, fun e he => ?_⟩
    cases he
  · intro v hv
    obtain ⟨s, hs, hv⟩ := List.mem_flatMap.1 hv
    exact (s.standsIn_of_mem_declarations v hv).mono (nodes_subset_of_body hs)

/-- The table of a function fails with a name that is declared again, or with an initial value. -/
theorem locals_eq_error {L : Lexicon} {f : Function} (h : f.WellFormed L) {globals : SymbolTable} {d : Diagnostic}
    (hl : f.locals globals = .error (.diagnostic d)) :
    (d.kind = .redeclaration → Redeclares (fun v : Declaration => v.name) (fun v => v.line) f.declarations d) ∧
      ∃ t ∈ f.toTree.nodes, d.PointsAt t := by
  rw [locals_eq_foldlM h] at hl
  obtain ⟨before, v, after, t, hf, hbefore, hv⟩ := foldlM_eq_error hl
  have hmem : v ∈ f.declarations := by simp [hf]
  rcases bind_eq_error_iff.1 hv with hinit | ⟨_, -, hdeclare⟩
  · obtain ⟨hkind, hnode⟩ := DeclItem.checkInit_blames (standsIn_of_mem_declarations v hmem) _ d hinit
    exact ⟨fun hredeclared => absurd hredeclared hkind, hnode⟩
  · have hstep : ∀ t (v : Declaration) t', v.enter globals t = .ok t' →
        ∃ s : Symbol, s.line = v.line ∧ t.define v.name s = .ok t' := by
      intro t v t' henter
      obtain ⟨_, -, henter⟩ := bind_eq_ok_iff.1 henter
      exact SymbolTable.define_of_declare henter
    obtain ⟨s, hs, hdefine⟩ := SymbolTable.define_of_declare_error hdeclare
    have hagain : Redeclares (fun v : Declaration => v.name) (fun v => v.line) f.declarations d := by
      rw [hf]
      exact (SymbolTable.Holds.nil.foldlM hstep hbefore).redeclares hs hdefine after
    refine ⟨fun _ => hagain, ?_⟩
    obtain ⟨w, hw, hline⟩ := hagain.exists_line
    obtain ⟨n, hn, hnode⟩ := (standsIn_of_mem_declarations w hw).line
    refine ⟨n, hn, hnode.trans hline.symm, fun name hname => ?_⟩
    have hkind := hagain.kind
    rw [Diagnostic.kind, hname] at hkind
    cases hkind

end Function

/-! ### Programs -/

/-- A function that analysis accepts. -/
def Function.Passes (globals : SymbolTable) (f : Function) : Prop :=
  ∃ locals, f.locals globals = .ok locals ∧ Stmt.checkAll (f.place ⟨locals, globals⟩) f.body = .ok ()

/-- Why a program fails: a function has the name of an earlier one; or the first function that does not pass fails, with
its table, or with its statements if it has a table. -/
inductive Program.FirstFailure (p : Program) (d : Diagnostic) : Prop
  | functions (hg : p.globals = .error (.diagnostic d)) (hd : Redeclares Function.name Function.line p.functions d)
  | table {globals : SymbolTable} {before : List Function} {f : Function} {after : List Function}
      (hg : p.globals = .ok globals) (hp : p.functions = before ++ f :: after)
      (hbefore : ∀ g ∈ before, g.Passes globals) (hl : f.locals globals = .error (.diagnostic d))
      (hd : d.kind = .redeclaration → Redeclares (fun v : Declaration => v.name) (fun v => v.line) f.declarations d)
      (hnode : ∃ t ∈ f.toTree.nodes, d.PointsAt t)
  | statements {globals : SymbolTable} {before : List Function} {f : Function} {after : List Function}
      {locals : SymbolTable} (hg : p.globals = .ok globals) (hp : p.functions = before ++ f :: after)
      (hbefore : ∀ g ∈ before, g.Passes globals) (hl : f.locals globals = .ok locals)
      (hs : Stmt.checkAll (f.place ⟨locals, globals⟩) f.body = .error (.diagnostic d)) (hd : d.kind ≠ .redeclaration)
      (hnode : ∃ t ∈ f.toTree.nodes, d.PointsAt t)

theorem Function.passes_of_analyze {globals : SymbolTable} {f : Function} {c : CheckedFunction}
    (h : f.analyze globals = .ok c) : f.Passes globals := by
  obtain ⟨locals, hl, h⟩ := bind_eq_ok_iff.1 h
  obtain ⟨_, hs, -⟩ := bind_eq_ok_iff.1 h
  exact ⟨locals, hl, hs⟩

theorem Function.analyzeAll_eq_error {globals : SymbolTable} {fs : List Function} {failure : Failure}
    (h : (analyzeAll globals fs).2 = .error failure) :
    ∃ (before : List Function) (f : Function) (after : List Function), fs = before ++ f :: after ∧
      (∀ g ∈ before, g.Passes globals) ∧ f.analyze globals = .error failure := by
  induction fs with
  | nil => cases h
  | cons f rest ih =>
    unfold analyzeAll at h
    split at h
    · rename_i hf
      cases h
      exact ⟨[], f, rest, rfl, by simp, hf⟩
    · rename_i c hc
      obtain ⟨before, g, after, rfl, hbefore, hg⟩ := ih (map_eq_error_iff.1 h)
      exact ⟨f :: before, g, after, rfl, List.forall_mem_cons.2 ⟨passes_of_analyze hc, hbefore⟩, hg⟩

theorem Program.firstFailure_of_analyze {L : Lexicon} {p : Program} (h : p.WellFormed L) {d : Diagnostic}
    (hd : p.analyze.2 = .error (.diagnostic d)) : p.FirstFailure d := by
  unfold Program.analyze at hd
  split at hd
  · rename_i hg
    cases hd
    exact .functions hg (redeclares_of_globals hg)
  · rename_i globals hg
    obtain ⟨before, f, after, hp, hbefore, hf⟩ := Function.analyzeAll_eq_error (map_eq_error_iff.1 hd)
    have hw : f.WellFormed L := h.functions f (by simp [hp])
    rcases bind_eq_error_iff.1 hf with hl | ⟨locals, hl, hf⟩
    · obtain ⟨hredeclares, hnode⟩ := Function.locals_eq_error hw hl
      exact .table hg hp hbefore hl hredeclares hnode
    · rcases bind_eq_error_iff.1 hf with hs | ⟨_, -, hf⟩
      · have hblames : Blames f.toTree.nodes (Stmt.checkAll (f.place ⟨locals, globals⟩) f.body) :=
          Stmt.checkAll_blames fun s hm => (s.check_blames _).mono (Function.nodes_subset_of_body hm)
        obtain ⟨hkind, hnode⟩ := hblames d hs
        exact .statements hg hp hbefore hl hs hkind hnode
      · cases hf

/-- Wherever a program fails there is a node on the line. -/
theorem Program.FirstFailure.exists_line {p : Program} {d : Diagnostic} (h : p.FirstFailure d) :
    ∃ t ∈ p.toTree.nodes, t.line = d.line := by
  have child {f : Function} (hf : f ∈ p.functions) : f.toTree.nodes ⊆ p.toTree.nodes :=
    Tree.nodes_subset (List.mem_map_of_mem hf)
  cases h with
  | functions hg hd =>
    obtain ⟨f, hf, hline⟩ := hd.exists_line
    exact ⟨f.toTree, child hf (Tree.mem_nodes_self _), hline.symm⟩
  | table hg hp hbefore hl hd hnode =>
    obtain ⟨t, ht, hline, -⟩ := hnode
    exact ⟨t, child (by simp [hp]) ht, hline⟩
  | statements hg hp hbefore hl hs hd hnode =>
    obtain ⟨t, ht, hline, -⟩ := hnode
    exact ⟨t, child (by simp [hp]) ht, hline⟩

theorem Diagnostic.previousLine_eq_zero {d : Diagnostic} (h : d.kind ≠ .redeclaration) : d.previousLine = 0 := by
  unfold Diagnostic.previousLine
  split
  · rename_i hcause
    exact absurd (by rw [Diagnostic.kind, hcause]; rfl) h
  · rfl

/-- A loaded program that is not accepted fails with a diagnostic on the line of one of its nodes: that of its first
failure. Only a name that is declared again cites a line, that of the first declaration. -/
theorem Program.diagnostic_stands_on_node {text : List Char} {p : Program} (h : Program.load text = .ok p)
    {failure : Failure} (hf : p.analyze.2 = .error failure) :
    ∃ d, failure = .diagnostic d ∧ 1 ≤ d.line ∧ (∃ t ∈ p.toTree.nodes, t.line = d.line) ∧ p.FirstFailure d ∧
      (d.kind ≠ .redeclaration → d.previousLine = 0) := by
  have hw := wellFormed_of_load h
  rcases (analyze_faultless hw).cases with ⟨c, hc⟩ | ⟨d, hd⟩
  · rw [hf] at hc
    cases hc
  · rw [hf] at hd
    cases hd
    have hfirst := firstFailure_of_analyze hw hf
    obtain ⟨t, ht, hline⟩ := hfirst.exists_line
    have hpositive := (sound_toTree hw t ht).line
    exact ⟨d, rfl, hline ▸ hpositive, ⟨t, ht, hline⟩, hfirst, Diagnostic.previousLine_eq_zero⟩

/-- Three functions: the first passes, the second declares its parameter again in a block and also returns what is not
declared, the third calls a function that does not exist. -/
def twiceDeclared : List Char :=
  "(program (func f [] [(return)])
    (^{line: 3} func g inteiro [(^{line: 4} param inteiro n)]
      [(if verdadeiro [(^{line: 6} decl real m (^{line: 7} init n 1.5))]) (^{line: 8} return x)])
    (^{line: 9} func h [] [(call k)]))".toList

/-- The second function is blamed for the parameter, not for what it returns. -/
theorem twiceDeclared_fails :
    ∃ p, Program.load twiceDeclared = .ok p ∧ p.analyze.2 = .error (.diagnostic ⟨7, .redeclared "n" 4⟩) ∧
      p.FirstFailure ⟨7, .redeclared "n" 4⟩ := by
  obtain ⟨p, hp, hmap⟩ : ∃ p, Program.load twiceDeclared = .ok p ∧
      p.analyze.2.map (fun _ => ()) = .error (.diagnostic ⟨7, .redeclared "n" 4⟩) := by
    apply exists_of_literal
    decide +kernel
  have hfails := map_eq_error_iff.1 hmap
  obtain ⟨d, hd, -, -, hfirst, -⟩ := Program.diagnostic_stands_on_node hp hfails
  cases hd
  exact ⟨p, hp, hfails, hfirst⟩

end Arvore
