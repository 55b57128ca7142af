import Mathlib
import Arvore.Compilation
import Arvore.Proofs.Analysis.Faultless
import Arvore.Proofs.Relabelling.Program

/-!
# Analysis of a relabelled program

Analysis looks up variables and functions by their names, and everything else that it does with a name or a line is
to report it. So a program with other labels gets the same answer, as long as distinct variables of a function keep
distinct names. Two steps that get the same answer are `Alike`: they succeed together, and their results differ in
labels only, or they fail together for causes of one kind. If names are kept, the causes are the same but for
lines. A function is analyzed alike next to any functions with the same signatures (`Function.analyze_relabel`),
and a whole program also reports the same events (`Program.analyze_relabel`).
-/

namespace Arvore

/-! ### Steps that end alike -/

/-- A cause with the line of an earlier declaration, if it names one, moved to the first line. -/
def Diagnostic.Cause.oneLine : Cause → Cause
  | redeclared name _ => redeclared name 1
  | cause => cause

/-- Failures of one kind. If names are kept, their causes agree as well, but for lines. -/
def Failure.Alike (named : Prop) : Failure → Failure → Prop
  | diagnostic d, diagnostic d' => d'.kind = d.kind ∧ (named → d'.cause.oneLine = d.cause.oneLine)
  | fault f, fault f' => f' = f
  | _, _ => False

/-- Two steps that succeed together, the second with `f` of the result of the first, or fail alike. -/
inductive Alike {α β : Type} (named : Prop) (f : α → β) : Except Failure α → Except Failure β → Prop
  | ok (a : α) : Alike named f (.ok a) (.ok (f a))
  | error {failure failure' : Failure} (h : failure.Alike named failure') :
    Alike named f (.error failure) (.error failure')

namespace Alike

variable {α β α' β' : Type} {named : Prop} {f : α → α'} {g : β → β'}

theorem fault (e : Fault) : Alike named f (.error (.fault e)) (.error (.fault e)) := .error rfl

theorem reject (line line' : Int) (cause : Diagnostic.Cause) :
    Alike named f (Arvore.reject line cause) (Arvore.reject line' cause) := .error ⟨rfl, fun _ => rfl⟩

theorem mapError_fault (x : Except Fault α) : Alike named id (x.mapError .fault) (x.mapError .fault) := by
  cases x with
  | ok a => exact .ok a
  | error e => exact .fault e

theorem eq_ok_iff {x : Except Failure α} {y : Except Failure α'} (h : Alike named f x y) {b : α'} :
    y = .ok b ↔ ∃ a, x = .ok a ∧ f a = b := by
  cases h with
  | ok a => simp
  | error => simp

theorem cases {x : Except Failure α} {y : Except Failure α'} (h : Alike named f x y) :
    (∃ a, x = .ok a ∧ y = .ok (f a)) ∨
    ∃ failure failure', x = .error failure ∧ y = .error failure' ∧ failure.Alike named failure' := by
  cases h with
  | ok a => exact .inl ⟨a, rfl, rfl⟩
  | error h => exact .inr ⟨_, _, rfl, rfl, h⟩

theorem diagnostic {d : Diagnostic} {y : Except Failure α'} (h : Alike named f (.error (.diagnostic d)) y) :
    ∃ d', y = .error (.diagnostic d') ∧ d'.kind = d.kind ∧ (named → d'.cause.oneLine = d.cause.oneLine) := by
  cases h with
  | @error _ failure h =>
    cases failure with
    | diagnostic d' => exact ⟨d', rfl, h⟩
    | fault => exact h.elim

/-- Less is asked of causes if fewer names are kept. -/
theorem mono {named' : Prop} {x : Except Failure α} {y : Except Failure α'} (h : Alike named f x y)
    (hn : named' → named) : Alike named' f x y := by
  cases h with
  | ok a => exact .ok a
  | @error failure failure' h =>
    cases failure <;> cases failure' <;> first | exact .error ⟨h.1, fun hn' => h.2 (hn hn')⟩ | exact .error h

/-- A sequence ends alike if its first part does, and its second part for whatever the first produces. -/
theorem bind {x : Except Failure α} {y : Except Failure α'} {k : α → Except Failure β} {k' : α' → Except Failure β'}
    (hx : Alike named f x y) (hk : ∀ a, Alike named g (k a) (k' (f a))) : Alike named g (x >>= k) (y >>= k') := by
  cases hx with
  | ok a => exact hk a
  | error h => exact .error h

theorem map {x : Except Failure α} {y : Except Failure α'} {k : α → β} {k' : α' → β'} (hx : Alike named f x y)
    (hk : ∀ a, k' (f a) = g (k a)) : Alike named g (x.map k) (y.map k') := by
  cases hx with
  | ok a =>
    rw [Except.map, Except.map, hk]
    exact .ok (k a)
  | error h => exact .error h

theorem ite {c : Prop} [Decidable c] {x₁ x₂ : Except Failure α} {y₁ y₂ : Except Failure α'}
    (h₁ : Alike named f x₁ y₁) (h₂ : Alike named f x₂ y₂) :
    Alike named f (if c then x₁ else x₂) (if c then y₁ else y₂) := by
  split
  · exact h₁
  · exact h₂

theorem foldlM_mapIdx {step : α → β → Except Failure α} {step' : α' → β' → Except Failure α'} {g : Nat → β → β'}
    {xs : List β} (h : ∀ i a b, Alike named f (step a b) (step' (f a) (g i b))) (a : α) :
    Alike named f (xs.foldlM step a) ((xs.mapIdx g).foldlM step' (f a)) := by
  induction xs generalizing a g with
  | nil => exact .ok a
  | cons b rest ih =>
    rw [List.mapIdx_cons, List.foldlM_cons, List.foldlM_cons]
    exact bind (h 0 a b) fun a' => ih (fun i => h (i + 1)) a'

theorem foldlM {step : α → β → Except Failure α} {step' : α' → β' → Except Failure α'} {xs : List β}
    (h : ∀ a b, Alike named f (step a b) (step' (f a) (g b))) (a : α) :
    Alike named f (xs.foldlM step a) ((xs.map g).foldlM step' (f a)) := by
  have hmap : xs.map g = xs.mapIdx fun _ => g := List.ext_getElem? (by simp)
  rw [hmap]
  exact foldlM_mapIdx (fun _ => h) a

end Alike

/-! ### Tables -/

/-- A symbol with other labels. It keeps its type and its place. -/
def Symbol.relabel (r : Relabelling) (s : Symbol) : Symbol := { s with name := r.name s.name, line := r.line s.line }

namespace SymbolTable

/-- A table with other labels. -/
def relabel (r : Relabelling) (t : SymbolTable) : SymbolTable := ⟨t.entries.map fun e => (r.name e.1, e.2.relabel r)⟩

variable (r : Relabelling) (t : SymbolTable)

theorem symbols_relabel : (t.relabel r).symbols = t.symbols.map (Symbol.relabel r) := by simp [symbols, relabel]

theorem size_relabel : (t.relabel r).size = t.size := by simp [size, relabel]

theorem frameSize_relabel : (t.relabel r).frameSize = t.frameSize := by
  rw [frameSize, frameSize, last?, last?, symbols_relabel, List.getLast?_map]
  cases t.symbols.getLast? <;> rfl

theorem nextOffset_relabel (type : Ty) : nextOffset (t.relabel r).symbols type = nextOffset t.symbols type := by
  have hlow : lowest (t.relabel r).symbols = lowest t.symbols := by
    rw [symbols_relabel, lowest, List.foldl_map]
    rfl
  rw [nextOffset, nextOffset, hlow]

/-- Under every name, both tables have a function with the same signature or neither has one. -/
def SameSignatures (t t' : SymbolTable) : Prop :=
  ∀ name, (t'.find? name).map (fun s => (s.name, s.signature)) = (t.find? name).map fun s => (s.name, s.signature)

variable {r} (hr : Function.Injective r.name)
include hr

/-- A variable is found under its new name. -/
theorem find?_relabel (name : String) :
    (t.relabel r).find? (r.name name) = (t.find? name).map (Symbol.relabel r) := by
  obtain ⟨entries⟩ := t
  rw [find?, find?, relabel]
  induction entries with
  | nil => rfl
  | cons e rest ih =>
    obtain ⟨other, s⟩ := e
    by_cases h : name = other
    · simp [h]
    · have hne : (name == other) = false := by simpa using h
      have hne' : (r.name name == r.name other) = false := by simpa using hr.ne h
      simpa [List.lookup, hne, hne'] using ih

theorem define_relabel (name : String) (s : Symbol) :
    Alike (r.name = id) (relabel r) ((t.define name s).mapError .diagnostic)
      (((t.relabel r).define (r.name name) (s.relabel r)).mapError .diagnostic) := by
  rw [define, define, find?_relabel t hr]
  cases t.find? name with
  | some previous => exact .error ⟨rfl, fun h => by rw [h]; rfl⟩
  | none =>
    have hentries : (⟨(t.relabel r).entries ++ [(r.name name, s.relabel r)]⟩ : SymbolTable) =
        relabel r ⟨t.entries ++ [(name, s)]⟩ := by simp [relabel]
    rw [Option.map_none, hentries]
    exact .ok _

theorem defineVariable_relabel (name : String) (type : Ty) (line : Int) :
    Alike (r.name = id) (Prod.map (Symbol.relabel r) (relabel r)) (t.defineVariable name type line)
      ((t.relabel r).defineVariable (r.name name) type (r.line line)) := by
  rw [defineVariable, defineVariable, nextOffset_relabel]
  refine .bind (.mapError_fault _) fun offset => ?_
  exact .bind (t.define_relabel hr name { name, type, line, offset, placed := true }) fun _ => .ok _

end SymbolTable

/-- The variables of the second scope are those of the first with other labels, and its functions have the same
signatures. -/
structure Scope.Relabelled (r : Relabelling) (scope scope' : Scope) : Prop where
  locals : ∀ name, scope'.locals.find? (r.name name) = (scope.locals.find? name).map (Symbol.relabel r)
  globals : scope.globals.SameSignatures scope'.globals

namespace Scope.Relabelled

variable {r : Relabelling} {scope scope' : Scope} (h : scope.Relabelled r scope')
include h

theorem findVariable (x : Ident) :
    Alike (r.name = id) (Symbol.relabel r) (scope.findVariable x) (scope'.findVariable (x.relabel r)) := by
  have hlocals := h.locals x.name
  rw [Scope.findVariable, Scope.findVariable, SymbolTable.lookup, SymbolTable.lookup, Ident.relabel, hlocals]
  cases scope.locals.find? x.name with
  | some s => exact .ok s
  | none => exact .error ⟨rfl, fun hname => by rw [hname]; rfl⟩

/-- What is done with a function ends alike if it asks for its name and its signature only. -/
theorem bind_findFunction {α β : Type} {named : Prop} {g : α → β} (callee : Ident) {k : Symbol → Except Failure α}
    {k' : Symbol → Except Failure β}
    (hk : ∀ s s', s'.name = s.name → s'.signature = s.signature → Alike named g (k s) (k' s')) :
    Alike named g (scope.findFunction callee >>= k)
      (scope'.findFunction ⟨r.line callee.line, callee.name⟩ >>= k') := by
  have hglobals := h.globals callee.name
  rw [Scope.findFunction, Scope.findFunction, SymbolTable.lookup, SymbolTable.lookup]
  cases hs : scope.globals.find? callee.name with
  | none =>
    rw [hs, Option.map_none, Option.map_eq_none_iff] at hglobals
    rw [hglobals]
    exact .error ⟨rfl, fun _ => rfl⟩
  | some s =>
    rw [hs, Option.map_some, Option.map_eq_some_iff] at hglobals
    obtain ⟨s', hs', hsame⟩ := hglobals
    rw [Prod.mk.injEq] at hsame
    rw [hs']
    exact hk s s' hsame.1 hsame.2

end Scope.Relabelled

/-! ### Types of expressions -/

section Lines

variable {named : Prop} (line line' : Int)

theorem ArithmeticOp.typeOf_alike (op : ArithmeticOp) (left right : Ty) :
    Alike named id (op.typeOf line left right) (op.typeOf line' left right) :=
  .ite (.ok _) (.reject _ _ _)

theorem LogicalOp.typeOf_alike (op : LogicalOp) (left right : Ty) :
    Alike named id (op.typeOf line left right) (op.typeOf line' left right) :=
  .ite (.ok _) (.reject _ _ _)

theorem UnaryOp.typeOf_alike (op : UnaryOp) (operand : Ty) :
    Alike named id (op.typeOf line operand) (op.typeOf line' operand) := by
  cases op with
  | neg | not => exact .ite (.ok _) (.reject _ _ _)
  | other => exact .ok _

theorem Signature.checkArguments_alike (function : String) (position : Nat) (params args : List Ty) :
    Alike named id (checkArguments line function position params args)
      (checkArguments line' function position params args) := by
  induction params generalizing position args with
  | nil => exact .ok _
  | cons p params ih =>
    cases args with
    | nil => exact .ok _
    | cons a args =>
      rw [checkArguments, checkArguments]
      exact .ite (ih _ args) (.reject _ _ _)

theorem Symbol.typeOfCall_alike {s s' : Symbol} (hname : s'.name = s.name) (hsignature : s'.signature = s.signature)
    (args : List Ty) : Alike named id (s.typeOfCall line args) (s'.typeOfCall line' args) := by
  rw [typeOfCall, typeOfCall, hname, hsignature]
  exact .ite (.bind (Signature.checkArguments_alike line line' _ _ _ _) fun _ => .ok _) (.reject _ _ _)

end Lines

theorem Expr.typesOf_relabel {r : Relabelling} {scope scope' : Scope} {es : List Expr}
    (ih : ∀ e ∈ es, Alike (r.name = id) id (e.typeOf scope) ((e.relabel r).typeOf scope')) :
    Alike (r.name = id) id (typesOf scope es) (typesOf scope' (es.map (relabel r))) := by
  induction es with
  | nil => exact .ok _
  | cons e rest ihrest =>
    simp only [List.forall_mem_cons] at ih
    rw [List.map_cons, typesOf, typesOf]
    exact .bind ih.1 fun _ => .bind (ihrest ih.2) fun _ => .ok _

section Checks

variable {r : Relabelling} {scope scope' : Scope} (h : scope.Relabelled r scope')
include h

/-- The type of an expression does not depend on its labels. -/
theorem Expr.typeOf_relabel (e : Expr) : Alike (r.name = id) id (e.typeOf scope) ((e.relabel r).typeOf scope') := by
  induction e with
  | number | string | boolean => exact .ok _
  | foreign | absent => exact .fault _
  | var line name => exact .bind (h.findVariable ⟨line, name⟩) fun _ => .ok _
  | arithmetic line op a b iha ihb =>
    exact .bind iha fun left => .bind ihb fun right => op.typeOf_alike line _ left right
  | logical line op a b iha ihb =>
    exact .bind iha fun left => .bind ihb fun right => op.typeOf_alike line _ left right
  | relational line op a b iha ihb => exact .bind iha fun _ => .bind ihb fun _ => .ok _
  | unary line op e ih => exact .bind ih fun operand => op.typeOf_alike line _ operand
  | call line callee args ih =>
    rw [relabel, relabelAll_eq_map, typeOf, typeOf]
    refine h.bind_findFunction callee fun s s' hname hsignature => ?_
    exact .bind (typesOf_relabel ih) fun given => Symbol.typeOfCall_alike line _ hname hsignature given

/-! ### Checking statements -/

theorem DeclItem.checkInit_relabel (type : Ty) (item : DeclItem) :
    Alike (r.name = id) id (item.checkInit scope type) ((item.relabel r).checkInit scope' type) := by
  obtain ⟨target, init⟩ := item
  cases init with
  | none => exact .ok _
  | some e =>
    refine .bind (e.typeOf_relabel h) fun _ => .ite (.error ⟨rfl, fun hname => ?_⟩) (.ok _)
    rw [relabel, Ident.relabel, hname]
    rfl

theorem Expr.checkCondition_relabel (statement : Conditional) (cond : Expr) :
    Alike (r.name = id) id (cond.checkCondition scope statement) ((cond.relabel r).checkCondition scope' statement) :=
  .bind (cond.typeOf_relabel h) fun _ => .ite (.reject _ _ _) (.ok _)

theorem Ident.checkAssign_relabel (line line' : Int) (target : Ident) (value : Expr) :
    Alike (r.name = id) id (target.checkAssign scope line value)
      ((target.relabel r).checkAssign scope' line' (value.relabel r)) := by
  refine .bind (h.findVariable target) fun declared => .bind (value.typeOf_relabel h) fun _ => ?_
  refine .ite (.error ⟨rfl, fun hname => ?_⟩) (.ok _)
  rw [Symbol.relabel, hname]
  rfl

theorem Ident.checkIncrement_relabel (line line' : Int) (target : Ident) :
    Alike (r.name = id) id (target.checkIncrement scope line) ((target.relabel r).checkIncrement scope' line') :=
  .bind (h.findVariable target) fun _ => .ite (.reject _ _ _) (.ok _)

theorem Stmt.checkLoopStart_relabel (s : Stmt) :
    Alike (r.name = id) id (s.checkLoopStart scope) ((s.relabel r).checkLoopStart scope') := by
  cases s with
  | assign line x e => exact x.checkAssign_relabel h line _ e
  | incomplete line kind => cases kind <;> first | exact .fault _ | exact .reject _ _ _
  | _ => exact .reject _ _ _

theorem Stmt.checkLoopStep_relabel (s : Stmt) :
    Alike (r.name = id) id (s.checkLoopStep scope) ((s.relabel r).checkLoopStep scope') := by
  cases s with
  | assign line x e => exact x.checkAssign_relabel h line _ e
  | increment line op x => exact x.checkIncrement_relabel h line _
  | incomplete line kind => cases kind <;> first | exact .fault _ | exact .reject _ _ _
  | _ => exact .reject _ _ _

end Checks

theorem Stmt.checkAll_relabel {r : Relabelling} {place place' : Place} {body : List Stmt}
    (ih : ∀ s ∈ body, Alike (r.name = id) id (s.check place) ((s.relabel r).check place')) :
    Alike (r.name = id) id (checkAll place body) (checkAll place' (body.map (relabel r))) := by
  induction body with
  | nil => exact .ok _
  | cons s rest ihrest =>
    simp only [List.forall_mem_cons] at ih
    rw [List.map_cons, checkAll, checkAll]
    exact .bind ih.1 fun _ => ihrest ih.2

section Places

variable {r : Relabelling} {place : Place} {scope' : Scope} (h : place.scope.Relabelled r scope')
include h

theorem Place.checkReturn_relabel (line line' : Int) (value : Option Expr) :
    Alike (r.name = id) id (place.checkReturn line value)
      (checkReturn { place with scope := scope' } line' (value.map (Expr.relabel r))) := by
  cases value with
  | none => exact .ite (.reject _ _ _) (.ok _)
  | some e => exact .bind (e.typeOf_relabel h) fun _ => .ite (.reject _ _ _) (.ok _)

/-- Whether a statement is accepted does not depend on its labels. -/
theorem Stmt.check_relabel (s : Stmt) :
    Alike (r.name = id) id (s.check place) ((s.relabel r).check { place with scope := scope' }) := by
  induction s with
  | declare => exact .ok _
  | foreign | incomplete => exact .fault _
  | assign line x e => exact x.checkAssign_relabel h line _ e
  | increment line op x => exact x.checkIncrement_relabel h line _
  | call line callee args =>
    have hcall := Expr.typeOf_relabel h (.call line callee args)
    rw [Expr.relabel, Expr.relabelAll_eq_map] at hcall
    rw [relabel, check, check]
    exact .bind hcall fun _ => .ok _
  | ifThen line c body ih | whileDo line c body ih =>
    rw [relabel, relabelAll_eq_map, check, check]
    exact .bind (c.checkCondition_relabel h _) fun _ => checkAll_relabel ih
  | ifElse line c body other ihb iho =>
    rw [relabel, relabelAll_eq_map, relabelAll_eq_map, check, check]
    exact .bind (c.checkCondition_relabel h _) fun _ => .bind (checkAll_relabel ihb) fun _ => checkAll_relabel iho
  | forDo line i c s body _ _ ih =>
    rw [relabel, relabelAll_eq_map, check, check]
    refine .bind (i.checkLoopStart_relabel h) fun _ => .bind (c.checkCondition_relabel h _) fun _ => ?_
    exact .bind (s.checkLoopStep_relabel h) fun _ => checkAll_relabel ih
  | read line x => exact .bind (h.findVariable x) fun _ => .ok _
  | print line e => exact .bind (e.typeOf_relabel h) fun _ => .ok _
  | ret line value => exact place.checkReturn_relabel h line _ value

end Places

/-! ### Tables of a function -/

theorem Stmt.nested_relabel (r : Relabelling) (s : Stmt) : (s.relabel r).nested = s.nested.map (relabel r) := by
  induction s with
  | ifThen line c body ih | whileDo line c body ih =>
    simpa [relabel, nested, nestedAll_eq_flatMap, List.map_flatMap, List.flatMap_map] using List.flatMap_congr ih
  | forDo line i c s body _ _ ih =>
    simpa [relabel, nested, nestedAll_eq_flatMap, List.map_flatMap, List.flatMap_map] using List.flatMap_congr ih
  | ifElse line c body other ihb iho =>
    simp [relabel, nested, nestedAll_eq_flatMap, List.map_flatMap, List.flatMap_map, List.flatMap_congr ihb,
      List.flatMap_congr iho]
  | _ => rfl

section Tables

variable {r : Relabelling} (hr : Function.Injective r.name) {globals globals' : SymbolTable}
include hr

/-- The table of a function with other labels, next to functions with the same signatures. -/
theorem Scope.relabelled_of_locals (hg : globals.SameSignatures globals') (locals : SymbolTable) :
    Scope.Relabelled r ⟨locals, globals⟩ ⟨locals.relabel r, globals'⟩ :=
  ⟨fun name => locals.find?_relabel hr name, hg⟩

theorem Param.define_relabel (locals : SymbolTable) (p : Param) :
    Alike (r.name = id) (SymbolTable.relabel r) (p.define locals) ((p.relabel r).define (locals.relabel r)) :=
  .bind (locals.defineVariable_relabel hr p.target.name p.type p.line) fun _ => .ok _

variable (hg : globals.SameSignatures globals')
include hg

theorem DeclItem.define_relabel (type : Ty) (locals : SymbolTable) (item : DeclItem) :
    Alike (r.name = id) (SymbolTable.relabel r) (item.define globals type locals)
      ((item.relabel r).define globals' type (locals.relabel r)) := by
  have hinit := item.checkInit_relabel (Scope.relabelled_of_locals hr hg locals) type
  have hvariable := locals.defineVariable_relabel hr item.target.name type item.target.line
  exact .bind hinit fun _ => .bind hvariable fun _ => .ok _

theorem Stmt.define_relabel (locals : SymbolTable) (s : Stmt) :
    Alike (r.name = id) (SymbolTable.relabel r) (s.define globals locals)
      ((s.relabel r).define globals' (locals.relabel r)) := by
  cases s with
  | declare line type items => exact .foldlM (fun locals item => item.define_relabel hr hg type locals) locals
  | incomplete line kind => cases kind <;> first | exact .fault _ | exact .ok _
  | _ => exact .ok _

/-- The table of a function is the same under the new names. -/
theorem Function.locals_relabel (f : Function) :
    Alike (r.name = id) (SymbolTable.relabel r) (f.locals globals) ((f.relabel r).locals globals') := by
  have hparams : Alike (r.name = id) (SymbolTable.relabel r) (f.params.foldlM Param.define {})
      ((f.params.map (Param.relabel r)).foldlM Param.define {}) :=
    .foldlM (fun t p => Param.define_relabel hr t p) {}
  have hhead : Alike (r.name = id) id f.checkHead (f.relabel r).checkHead := by
    rw [checkHead, checkHead, relabel]
    cases f.flaw with
    | none => exact .ok _
    | some => exact .fault _
  have hnested : Stmt.nestedAll (f.body.map (Stmt.relabel r)) = (Stmt.nestedAll f.body).map (Stmt.relabel r) := by
    simp [Stmt.nestedAll_eq_flatMap, List.map_flatMap, List.flatMap_map, Stmt.nested_relabel]
  -- parameters come first, then the declarations of the body, blocks inside blocks included
  rw [locals, locals]
  refine .bind hparams fun params => .bind hhead fun _ => ?_
  rw [relabel, hnested]
  exact .foldlM (fun t s => s.define_relabel hr hg t) params

end Tables

/-! ### Functions -/

/-- An accepted function with other labels. -/
def CheckedFunction.relabel (r : Relabelling) (c : CheckedFunction) : CheckedFunction :=
  ⟨c.function.relabel r, c.locals.relabel r⟩

theorem CheckedFunction.event_relabel (r : Relabelling) (c : CheckedFunction) : (c.relabel r).event = c.event := by
  rw [event, event, relabel, SymbolTable.size_relabel, SymbolTable.frameSize_relabel, Function.relabel]

/-- A function with other labels is accepted exactly if the function is, and its variables keep their places. -/
theorem Function.analyze_relabel {r : Relabelling} (hr : Function.Injective r.name) {globals globals' : SymbolTable}
    (hg : globals.SameSignatures globals') (f : Function) :
    Alike (r.name = id) (CheckedFunction.relabel r) (f.analyze globals) ((f.relabel r).analyze globals') := by
  rw [analyze, analyze]
  refine .bind (f.locals_relabel hr hg) fun locals => ?_
  have hscope := Scope.relabelled_of_locals hr hg locals
  have hbody : Alike (r.name = id) id (Stmt.checkAll (f.place ⟨locals, globals⟩) f.body)
      (Stmt.checkAll ((f.relabel r).place ⟨locals.relabel r, globals'⟩) (f.body.map (Stmt.relabel r))) :=
    Stmt.checkAll_relabel fun s _ => s.check_relabel hscope
  exact .bind hbody fun _ => .ok _

/-! ### Programs -/

section Programs

variable (line : Int → Int) (ρ : Nat → String → String)

theorem SymbolTable.sameSignatures_relabel (t : SymbolTable) : t.SameSignatures (t.relabel { line }) := by
  intro name
  have hfind : (t.relabel { line }).find? name = _ := t.find?_relabel (r := { line }) Function.injective_id name
  rw [hfind, Option.map_map]
  rfl

/-- Functions keep their names. -/
theorem Function.define_relabel (r : Relabelling) (table : SymbolTable) (f : Function) :
    Alike True (SymbolTable.relabel { line := r.line }) (f.define table)
      ((f.relabel r).define (table.relabel { line := r.line })) := by
  have hsignature : (f.relabel r).signature = f.signature := by
    simp [signature, relabel, Param.relabel, Function.comp_def]
  have hsymbol : Alike True (Symbol.relabel { line := r.line }) (f.symbol.mapError .fault)
      ((f.relabel r).symbol.mapError .fault) := by
    rw [symbol, symbol, hsignature]
    cases f.signature with
    | ok signature => exact .ok _
    | error e => exact .fault e
  refine .bind hsymbol fun s => ?_
  exact (table.define_relabel (r := { line := r.line }) Function.injective_id f.name s).mono fun _ => rfl

theorem Program.globals_relabel (p : Program) :
    Alike True (SymbolTable.relabel { line }) p.globals (p.relabel line ρ).globals :=
  Alike.foldlM_mapIdx (fun i table f => Function.define_relabel ⟨line, ρ i⟩ table f) {}

/-- An accepted program with other labels. -/
def Compilation.relabel (c : Compilation) : Compilation :=
  ⟨c.program.relabel line ρ, c.globals.relabel { line }, c.functions.mapIdx fun i c => c.relabel ⟨line, ρ i⟩⟩

variable {ρ} (hρ : ∀ i, Function.Injective (ρ i))
include hρ

theorem Function.analyzeAll_relabel (globals : SymbolTable) (fs : List Function) :
    (analyzeAll (globals.relabel { line }) (fs.mapIdx fun i f => f.relabel ⟨line, ρ i⟩)).1 = (analyzeAll globals fs).1 ∧
    Alike (∀ i, ρ i = id) (List.mapIdx fun i c => c.relabel ⟨line, ρ i⟩) (analyzeAll globals fs).2
      (analyzeAll (globals.relabel { line }) (fs.mapIdx fun i f => f.relabel ⟨line, ρ i⟩)).2 := by
  induction fs generalizing ρ with
  | nil => exact ⟨rfl, .ok _⟩
  | cons f rest ih =>
    obtain ⟨hevents, hrest⟩ := ih fun i => hρ (i + 1)
    have hf := f.analyze_relabel (r := ⟨line, ρ 0⟩) (hρ 0) (globals.sameSignatures_relabel line)
    rw [List.mapIdx_cons, analyzeAll, analyzeAll]
    -- the events before a refusal are kept, so the two components are compared together
    rcases hf.cases with ⟨c, hc, hc'⟩ | ⟨failure, failure', hc, hc', h⟩
    · simp only [hc, hc', CheckedFunction.event_relabel, hevents]
      exact ⟨trivial, (hrest.mono fun h i => h (i + 1)).map fun cs => by rw [List.mapIdx_cons]⟩
    · simp only [hc, hc']
      exact ⟨trivial, (Alike.error h).mono fun h => h 0⟩

/-- The analysis of a program reports the same events with other labels, and accepts or refuses it alike. -/
theorem Program.analyze_relabel (p : Program) :
    (p.relabel line ρ).analyze.1 = p.analyze.1 ∧
    Alike (∀ i, ρ i = id) (Compilation.relabel line ρ) p.analyze.2 (p.relabel line ρ).analyze.2 := by
  have hglobals := p.globals_relabel line ρ
  rw [analyze, analyze]
  rcases hglobals.cases with ⟨globals, hg, hg'⟩ | ⟨failure, failure', hg, hg', h⟩
  · obtain ⟨hevents, hall⟩ := Function.analyzeAll_relabel line hρ globals p.functions
    simp only [hg, hg', SymbolTable.size_relabel]
    exact ⟨congrArg _ hevents, hall.map fun cs => rfl⟩
  · simp only [hg, hg']
    exact ⟨trivial, (Alike.error h).mono fun _ => trivial⟩

end Programs

end Arvore
