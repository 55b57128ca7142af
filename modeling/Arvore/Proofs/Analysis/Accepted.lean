import Mathlib
import Arvore.Proofs.Analysis.Faultless

/-!
# Accepted statements

What analysis has found out about the statements of an accepted function, all of it in the scope of the complete
table: variables are declared, expressions have the types that their places ask for, and the head of a for loop holds
an assignment and a step. Initial values were checked in the table as it was when they were met; since tables only grow
they have the same types in the complete one. So everything that code is generated from is known to be in order
(`Function.accepted_of_analyze`).
-/

namespace Arvore

/-- A variable with the given type is declared under a name. -/
def Scope.Declares (scope : Scope) (name : String) (type : Ty) : Prop :=
  ∃ s, scope.locals.find? name = some s ∧ s.type = type

/-- The items of a declaration are declared with its type, and so are their initial values. -/
structure DeclItem.Accepted (scope : Scope) (type : Ty) (item : DeclItem) : Prop where
  target : scope.Declares item.target.name type
  init : ∀ e, item.init = some e → e.typeOf scope = .ok type

/-- Statements that analysis accepts at a place. -/
inductive Stmt.Accepted (place : Place) : Stmt → Prop
  | declare {line type items} (h : ∀ item ∈ items, item.Accepted place.scope type) :
      Accepted place (.declare line type items)
  | assign {line x e type} (hx : place.scope.Declares x.name type) (he : e.typeOf place.scope = .ok type) :
      Accepted place (.assign line x e)
  | increment {line op x} (hx : place.scope.Declares x.name .integer) : Accepted place (.increment line op x)
  | call {line callee args type} (h : (Expr.call line callee args).typeOf place.scope = .ok type) :
      Accepted place (.call line callee args)
  | ifThen {line c body} (hc : c.typeOf place.scope = .ok .logical) (hb : ∀ s ∈ body, Accepted place s) :
      Accepted place (.ifThen line c body)
  | ifElse {line c body other} (hc : c.typeOf place.scope = .ok .logical) (hb : ∀ s ∈ body, Accepted place s)
      (ho : ∀ s ∈ other, Accepted place s) : Accepted place (.ifElse line c body other)
  | whileDo {line c body} (hc : c.typeOf place.scope = .ok .logical) (hb : ∀ s ∈ body, Accepted place s) :
      Accepted place (.whileDo line c body)
  | forDo {line i c s body} (hi : Accepted place i) (hi' : i.kind = .assignment)
      (hc : c.typeOf place.scope = .ok .logical) (hs : Accepted place s)
      (hs' : s.kind = .assignment ∨ s.kind = .increment) (hb : ∀ s ∈ body, Accepted place s) :
      Accepted place (.forDo line i c s body)
  | read {line x type} (hx : place.scope.Declares x.name type) : Accepted place (.read line x)
  | print {line e type} (he : e.typeOf place.scope = .ok type) : Accepted place (.print line e)
  | leave {line} (hr : place.result = .void) : Accepted place (.ret line none)
  | result {line e type} (he : e.typeOf place.scope = .ok type) (hr : place.result = .void ∨ type = place.result) :
      Accepted place (.ret line (some e))

/-! ### While the table grows -/

/-- If every step of a fold only adds to the table, each step was taken in a table that the final one extends. -/
theorem SymbolTable.foldlM_extends {α : Type} {f : SymbolTable → α → Except Failure SymbolTable} {xs : List α}
    (hf : ∀ x ∈ xs, ∀ t t', f t x = .ok t' → t'.Extends t) {t t' : SymbolTable} (h : xs.foldlM f t = .ok t') :
    t'.Extends t ∧ ∀ x ∈ xs, ∃ a b, f a x = .ok b ∧ b.Extends a ∧ t'.Extends b := by
  induction xs generalizing t with
  | nil =>
    cases h
    exact ⟨.refl _, by simp⟩
  | cons x xs ih =>
    rw [List.foldlM_cons, bind_eq_ok_iff] at h
    obtain ⟨u, hx, h⟩ := h
    simp only [List.forall_mem_cons] at hf ⊢
    obtain ⟨hu, hxs⟩ := ih hf.2 h
    have ht := hf.1 t u hx
    exact ⟨hu.trans ht, ⟨t, u, hx, ht, hu⟩, hxs⟩

theorem DeclItem.checkInit_eq_ok {scope : Scope} {type : Ty} {item : DeclItem}
    (h : item.checkInit scope type = .ok ()) : ∀ e, item.init = some e → e.typeOf scope = .ok type := by
  intro e he
  rw [checkInit, he] at h
  obtain ⟨given, hg, h⟩ := bind_eq_ok_iff.1 h
  split at h
  · cases h
  · rename_i hne
    rw [hg, show given = type by simpa using hne]

theorem DeclItem.define_eq_ok {globals locals t : SymbolTable} {type : Ty} {item : DeclItem}
    (h : DeclItem.define globals type locals item = .ok t) :
    item.checkInit ⟨locals, globals⟩ type = .ok () ∧ locals.declare (item.variable type) = .ok t := by
  obtain ⟨_, hc, h⟩ := bind_eq_ok_iff.1 h
  exact ⟨hc, h⟩

theorem Stmt.define_extends {globals locals t : SymbolTable} {s : Stmt} (h : Stmt.define globals locals s = .ok t) :
    t.Extends locals := by
  unfold Stmt.define at h
  split at h
  · exact (SymbolTable.foldlM_extends
      (fun _ _ _ _ h => SymbolTable.extends_of_declare (DeclItem.define_eq_ok h).2) h).1
  case h_6 =>
    cases h
    exact .refl _
  all_goals cases h

/-- The items of a declaration that has been entered into a table are accepted in every later one. -/
theorem Stmt.define_declare {globals locals t table : SymbolTable} {line : Int} {type : Ty} {items : List DeclItem}
    (h : Stmt.define globals locals (.declare line type items) = .ok t) (ht : table.Extends t) :
    ∀ item ∈ items, item.Accepted ⟨table, globals⟩ type := by
  intro item hi
  obtain ⟨a, b, hd, hab, hbt⟩ := (SymbolTable.foldlM_extends
    (fun _ _ _ _ h => SymbolTable.extends_of_declare (DeclItem.define_eq_ok h).2) h).2 item hi
  obtain ⟨hc, hd⟩ := DeclItem.define_eq_ok hd
  obtain ⟨s, hs, hst⟩ := SymbolTable.find?_of_declare hd
  have hb : table.Extends b := ht.trans hbt
  refine ⟨⟨s, hb _ _ hs, hst⟩, fun e he => ?_⟩
  have hscope : Scope.Extends ⟨table, globals⟩ ⟨a, globals⟩ := ⟨hb.trans hab, rfl⟩
  exact Expr.typeOf_extends hscope (DeclItem.checkInit_eq_ok hc e he)

/-- What is known about a table after all parameters and declarations of a function were entered. -/
structure Function.Tabulated (globals table : SymbolTable) (f : Function) : Prop where
  params : ∀ p ∈ f.params, Scope.Declares ⟨table, globals⟩ p.target.name p.type
  declarations : ∀ line type items, .declare line type items ∈ Stmt.nestedAll f.body →
    ∀ item ∈ items, item.Accepted ⟨table, globals⟩ type

theorem Function.tabulated_of_locals {globals table : SymbolTable} {f : Function}
    (h : f.locals globals = .ok table) : f.Tabulated globals table := by
  obtain ⟨params, hp, h⟩ := bind_eq_ok_iff.1 h
  obtain ⟨_, _, h⟩ := bind_eq_ok_iff.1 h
  have hp' := SymbolTable.foldlM_extends
    (fun (p : Param) _ _ _ h => SymbolTable.extends_of_declare (v := p.variable) h) hp
  have hd := SymbolTable.foldlM_extends (fun _ _ _ _ h => Stmt.define_extends h) h
  constructor
  · intro p hm
    obtain ⟨a, b, hab, -, hb⟩ := hp'.2 p hm
    obtain ⟨s, hs, hst⟩ := SymbolTable.find?_of_declare (v := p.variable) hab
    exact ⟨s, (hd.1.trans hb) _ _ hs, hst⟩
  · intro line type items hm
    obtain ⟨a, b, hab, -, hb⟩ := hd.2 _ hm
    exact Stmt.define_declare hab hb

/-! ### Checked statements -/

theorem Expr.checkCondition_eq_ok {scope : Scope} {statement : Conditional} {cond : Expr}
    (h : cond.checkCondition scope statement = .ok ()) : cond.typeOf scope = .ok .logical := by
  obtain ⟨given, hg, h⟩ := bind_eq_ok_iff.1 h
  split at h
  · cases h
  · rename_i hne
    rw [hg, show given = .logical by simpa using hne]

theorem Ident.checkAssign_eq_ok {scope : Scope} {line : Int} {target : Ident} {value : Expr}
    (h : target.checkAssign scope line value = .ok ()) :
    ∃ type, scope.Declares target.name type ∧ value.typeOf scope = .ok type := by
  obtain ⟨declared, hd, h⟩ := bind_eq_ok_iff.1 h
  obtain ⟨given, hg, h⟩ := bind_eq_ok_iff.1 h
  split at h
  · cases h
  · rename_i hne
    have heq : given = declared.type := by simpa using hne
    exact ⟨given, ⟨declared, Scope.findVariable_eq_ok_iff.1 hd, heq.symm⟩, hg⟩

theorem Ident.checkIncrement_eq_ok {scope : Scope} {line : Int} {target : Ident}
    (h : target.checkIncrement scope line = .ok ()) : scope.Declares target.name .integer := by
  obtain ⟨declared, hd, h⟩ := bind_eq_ok_iff.1 h
  split at h
  · cases h
  · rename_i hne
    exact ⟨declared, Scope.findVariable_eq_ok_iff.1 hd, by simpa using hne⟩

theorem Place.checkReturn_eq_ok {place : Place} {line : Int} {value : Option Expr}
    (h : place.checkReturn line value = .ok ()) : Stmt.Accepted place (.ret line value) := by
  cases value with
  | none =>
    rw [checkReturn] at h
    split at h
    · cases h
    · rename_i hne
      exact .leave (by simpa using hne)
  | some e =>
    obtain ⟨given, hg, h⟩ := bind_eq_ok_iff.1 h
    split at h
    · cases h
    · rename_i hne
      refine .result hg ?_
      simp only [Bool.and_eq_true, bne_iff_ne, ne_eq, not_and, not_not] at hne
      by_cases hv : place.result = .void
      · exact .inl hv
      · exact .inr (hne hv)

namespace Stmt

theorem checkAll_eq_ok_iff {place : Place} {body : List Stmt} :
    checkAll place body = .ok () ↔ ∀ s ∈ body, s.check place = .ok () := by
  induction body with
  | nil => simp [checkAll]
  | cons s rest ih =>
    rw [checkAll, bind_eq_ok_iff, List.forall_mem_cons, ih]
    constructor
    · rintro ⟨_, h, h'⟩
      exact ⟨h, h'⟩
    · rintro ⟨h, h'⟩
      exact ⟨(), h, h'⟩

theorem checkLoopStart_eq_ok {place : Place} {s : Stmt} (h : s.checkLoopStart place.scope = .ok ()) :
    s.Accepted place ∧ s.kind = .assignment := by
  unfold checkLoopStart at h
  split at h
  · obtain ⟨type, hx, he⟩ := Ident.checkAssign_eq_ok h
    exact ⟨.assign hx he, rfl⟩
  all_goals cases h

theorem checkLoopStep_eq_ok {place : Place} {s : Stmt} (h : s.checkLoopStep place.scope = .ok ()) :
    s.Accepted place ∧ (s.kind = .assignment ∨ s.kind = .increment) := by
  unfold checkLoopStep at h
  split at h
  · obtain ⟨type, hx, he⟩ := Ident.checkAssign_eq_ok h
    exact ⟨.assign hx he, .inl rfl⟩
  · exact ⟨.increment (Ident.checkIncrement_eq_ok h), .inr rfl⟩
  all_goals cases h

/-- The declarations at any depth of a statement are entered in the table of a place. -/
def Entered (place : Place) (s : Stmt) : Prop :=
  ∀ line type items, .declare line type items ∈ s.nested → ∀ item ∈ items, item.Accepted place.scope type

/-- A statement that was checked, and whose declarations were entered into the table, is accepted. -/
theorem accepted_of_check {place : Place} {s : Stmt} (hn : s.Entered place) (h : s.check place = .ok ()) :
    s.Accepted place := by
  have block {s : Stmt} {body : List Stmt} (hn : s.Entered place)
      (hb : ∀ s' ∈ body, ∀ s'' ∈ s'.nested, s'' ∈ s.nested) (h : checkAll place body = .ok ())
      (ih : ∀ s ∈ body, s.Entered place → s.check place = .ok () → s.Accepted place) :
      ∀ s ∈ body, s.Accepted place := fun s' hs' =>
    ih s' hs' (fun line type items hm => hn line type items (hb s' hs' _ hm)) (checkAll_eq_ok_iff.1 h s' hs')
  induction s with
  | declare line type items => exact .declare (hn line type items (by simp [nested]))
  | assign line x e =>
    rw [check] at h
    obtain ⟨type, hx, he⟩ := Ident.checkAssign_eq_ok h
    exact .assign hx he
  | increment line op x =>
    rw [check] at h
    exact .increment (Ident.checkIncrement_eq_ok h)
  | call line callee args =>
    rw [check, bind_eq_ok_iff] at h
    obtain ⟨type, ht, -⟩ := h
    exact .call ht
  | ifThen line c body ih =>
    rw [check, bind_eq_ok_iff] at h
    obtain ⟨_, hc, h⟩ := h
    refine .ifThen (Expr.checkCondition_eq_ok hc) (block hn ?_ h ih)
    intro s hs s' hs'
    rw [nested, nestedAll_eq_flatMap]
    exact List.mem_cons_of_mem _ (List.mem_flatMap.2 ⟨s, hs, hs'⟩)
  | ifElse line c body other ihb iho =>
    simp only [check, bind_eq_ok_iff] at h
    obtain ⟨_, hc, _, hb, ho⟩ := h
    refine .ifElse (Expr.checkCondition_eq_ok hc) (block hn ?_ hb ihb) (block hn ?_ ho iho)
    all_goals
      intro s hs s' hs'
      simp only [nested, nestedAll_eq_flatMap, List.mem_cons, List.mem_append, List.cons_append, List.mem_flatMap]
    · exact .inr (.inl ⟨s, hs, hs'⟩)
    · exact .inr (.inr ⟨s, hs, hs'⟩)
  | whileDo line c body ih =>
    rw [check, bind_eq_ok_iff] at h
    obtain ⟨_, hc, h⟩ := h
    refine .whileDo (Expr.checkCondition_eq_ok hc) (block hn ?_ h ih)
    intro s hs s' hs'
    rw [nested, nestedAll_eq_flatMap]
    exact List.mem_cons_of_mem _ (List.mem_flatMap.2 ⟨s, hs, hs'⟩)
  | forDo line i c s body _ _ ih =>
    simp only [check, bind_eq_ok_iff] at h
    obtain ⟨_, hi, _, hc, _, hs, h⟩ := h
    obtain ⟨hi, hi'⟩ := checkLoopStart_eq_ok hi
    obtain ⟨hs, hs'⟩ := checkLoopStep_eq_ok hs
    refine .forDo hi hi' (Expr.checkCondition_eq_ok hc) hs hs' (block hn ?_ h ih)
    intro s hs s' hs'
    rw [nested, nestedAll_eq_flatMap]
    exact List.mem_cons_of_mem _ (List.mem_flatMap.2 ⟨s, hs, hs'⟩)
  | read line x =>
    rw [check, bind_eq_ok_iff] at h
    obtain ⟨s, hs, -⟩ := h
    exact .read ⟨s, Scope.findVariable_eq_ok_iff.1 hs, rfl⟩
  | print line e =>
    rw [check, bind_eq_ok_iff] at h
    obtain ⟨type, he, -⟩ := h
    exact .print he
  | ret line value =>
    rw [check] at h
    exact Place.checkReturn_eq_ok h
  | foreign line kind | incomplete line kind =>
    rw [check] at h
    cases h

end Stmt

/-! ### Accepted functions -/

theorem Function.analyze_eq_ok {globals : SymbolTable} {f : Function} {c : CheckedFunction}
    (h : f.analyze globals = .ok c) :
    c.function = f ∧ f.locals globals = .ok c.locals ∧
      Stmt.checkAll (f.place ⟨c.locals, globals⟩) f.body = .ok () := by
  obtain ⟨table, ht, h⟩ := bind_eq_ok_iff.1 h
  obtain ⟨_, hc, h⟩ := bind_eq_ok_iff.1 h
  cases h
  exact ⟨rfl, ht, hc⟩

/-- The statements of an accepted function are accepted in the scope of its complete table. -/
theorem Function.accepted_of_analyze {globals : SymbolTable} {f : Function} {c : CheckedFunction}
    (h : f.analyze globals = .ok c) : ∀ s ∈ f.body, s.Accepted (f.place ⟨c.locals, globals⟩) := by
  obtain ⟨-, ht, hc⟩ := Function.analyze_eq_ok h
  intro s hs
  refine Stmt.accepted_of_check (fun line type items hm => ?_) (Stmt.checkAll_eq_ok_iff.1 hc s hs)
  refine (Function.tabulated_of_locals ht).declarations line type items ?_
  rw [Stmt.nestedAll_eq_flatMap]
  exact List.mem_flatMap.2 ⟨s, hs, hm⟩

/-! ### Accepted programs -/

theorem Function.analyzeAll_eq_ok_iff {globals : SymbolTable} {fs : List Function} {cs : List CheckedFunction} :
    (Function.analyzeAll globals fs).2 = .ok cs ↔ List.Forall₂ (fun f c => f.analyze globals = .ok c) fs cs := by
  induction fs generalizing cs with
  | nil => simp [Function.analyzeAll, eq_comm]
  | cons f rest ih =>
    rw [List.forall₂_cons_left_iff]
    unfold Function.analyzeAll
    cases hf : f.analyze globals with
    | error failure => simp
    | ok c =>
      dsimp only
      constructor
      · intro h
        cases ho : (Function.analyzeAll globals rest).2 with
        | error failure =>
          rw [ho] at h
          cases h
        | ok others =>
          rw [ho] at h
          cases h
          exact ⟨c, others, rfl, ih.1 ho, rfl⟩
      · rintro ⟨c', others, hc, ho, rfl⟩
        cases hc
        rw [ih.2 ho]
        rfl

/-- What it means for a program to be accepted. -/
theorem Program.analyze_eq_ok {p : Program} {c : Compilation} (h : p.analyze.2 = .ok c) :
    c.program = p ∧ p.globals = .ok c.globals ∧
      List.Forall₂ (fun f c' => f.analyze c.globals = .ok c') p.functions c.functions := by
  unfold Program.analyze at h
  split at h
  · cases h
  · rename_i globals hg
    dsimp only at h
    cases ho : (Function.analyzeAll globals p.functions).2 with
    | error failure =>
      rw [ho] at h
      cases h
    | ok functions =>
      rw [ho] at h
      cases h
      exact ⟨rfl, hg, Function.analyzeAll_eq_ok_iff.1 ho⟩

/-- The functions of an accepted program are accepted in their order. -/
theorem Program.functions_of_analyze {p : Program} {c : Compilation} (h : p.analyze.2 = .ok c) :
    c.functions.map CheckedFunction.function = p.functions := by
  obtain ⟨-, -, hf⟩ := Program.analyze_eq_ok h
  have hsame : List.Forall₂ Eq p.functions (c.functions.map CheckedFunction.function) :=
    List.forall₂_map_right_iff.2 (hf.imp fun f c' h => (Function.analyze_eq_ok h).1.symm)
  rw [List.forall₂_eq_eq_eq] at hsame
  exact hsame.symm

theorem Program.analyze_of_mem {p : Program} {c : Compilation} (h : p.analyze.2 = .ok c) {cf : CheckedFunction}
    (hm : cf ∈ c.functions) : cf.function ∈ p.functions ∧ cf.function.analyze c.globals = .ok cf := by
  obtain ⟨-, -, hf⟩ := Program.analyze_eq_ok h
  have key : ∀ cf ∈ c.functions, cf.function ∈ p.functions ∧ cf.function.analyze c.globals = .ok cf := by
    refine forall_mem_of_forall₂ hf (fun _ _ => trivial) fun f hf cf _ ha => ?_
    obtain rfl := (Function.analyze_eq_ok ha).1
    exact ⟨hf, ha⟩
  exact key cf hm

end Arvore
