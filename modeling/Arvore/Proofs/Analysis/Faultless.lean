import Mathlib
import Arvore.Compilation
import Arvore.Proofs.Analysis.Table
import Arvore.Proofs.Load.WellFormed

/-!
# Analysis does not fault

On a well-formed program analysis ends well or with a diagnostic. Every fault it could meet, a part that is missing or
foreign or a type that takes no room, is a part that a well-formed program does not have.
-/

namespace Arvore

variable {L : Lexicon}

/-- A fold is without faults if each of its steps is. -/
theorem Faultless.foldlM {α β : Type} {f : β → α → Except Failure β} {xs : List α}
    (h : ∀ x ∈ xs, ∀ b, Faultless (f b x)) (b : β) : Faultless (xs.foldlM f b) := by
  induction xs generalizing b with
  | nil => exact .ok b
  | cons x xs ih =>
    rw [List.foldlM_cons]
    exact .bind (h x (by simp) b) fun b' _ => ih (fun y hy => h y (by simp [hy])) b'

/-! ### Types -/

theorem ArithmeticOp.typeOf_faultless (line : Int) (op : ArithmeticOp) (left right : Ty) :
    Faultless (op.typeOf line left right) := by
  unfold ArithmeticOp.typeOf
  split
  · exact .ok _
  · exact .reject _ _

theorem LogicalOp.typeOf_faultless (line : Int) (op : LogicalOp) (left right : Ty) :
    Faultless (op.typeOf line left right) := by
  unfold LogicalOp.typeOf
  split
  · exact .ok _
  · exact .reject _ _

theorem UnaryOp.typeOf_faultless (line : Int) (op : UnaryOp) (operand : Ty) : Faultless (op.typeOf line operand) := by
  unfold UnaryOp.typeOf
  split
  · split
    · exact .ok _
    · exact .reject _ _
  · split
    · exact .ok _
    · exact .reject _ _
  · exact .ok _

theorem Signature.checkArguments_faultless (line : Int) (function : String) (position : Nat) (params args : List Ty) :
    Faultless (checkArguments line function position params args) := by
  fun_induction checkArguments line function position params args with
  | case1 => assumption
  | case2 => exact .reject _ _
  | case3 => exact .ok _

theorem Symbol.typeOfCall_faultless (s : Symbol) (line : Int) (args : List Ty) :
    Faultless (s.typeOfCall line args) := by
  unfold Symbol.typeOfCall
  dsimp only
  split
  · exact .bind (Signature.checkArguments_faultless _ _ _ _ _) fun _ _ => .ok _
  · exact .reject _ _

theorem Expr.typesOf_faultless {scope : Scope} {es : List Expr} (h : ∀ e ∈ es, Faultless (e.typeOf scope)) :
    Faultless (typesOf scope es) := by
  induction es with
  | nil => exact .ok _
  | cons e rest ih =>
    rw [typesOf]
    exact .bind (h e (by simp)) fun _ _ => .bind (ih fun e' h' => h e' (by simp [h'])) fun _ _ => .ok _

theorem Expr.typeOf_faultless {e : Expr} (h : e.WellFormed L) (scope : Scope) : Faultless (e.typeOf scope) := by
  induction h with
  | number | string | boolean =>
    rw [typeOf]
    exact .ok _
  | var hx =>
    rw [typeOf]
    exact .bind (scope.findVariable_faultless _) fun _ _ => .ok _
  | arithmetic _ _ _ _ iha ihb =>
    rw [typeOf]
    exact .bind iha fun _ _ => .bind ihb fun _ _ => ArithmeticOp.typeOf_faultless _ _ _ _
  | logical _ _ _ _ iha ihb =>
    rw [typeOf]
    exact .bind iha fun _ _ => .bind ihb fun _ _ => LogicalOp.typeOf_faultless _ _ _ _
  | relational _ _ _ _ iha ihb =>
    rw [typeOf]
    exact .bind iha fun _ _ => .bind ihb fun _ _ => .ok _
  | unary _ _ _ ih =>
    rw [typeOf]
    exact .bind ih fun _ _ => UnaryOp.typeOf_faultless _ _ _
  | call _ _ _ ih =>
    rw [typeOf]
    exact .bind (scope.findFunction_faultless _) fun _ _ => .bind (typesOf_faultless ih) fun _ _ =>
      Symbol.typeOfCall_faultless _ _ _

/-! ### Tables -/

theorem Function.define_faultless {f : Function} (h : f.flaw = none) (table : SymbolTable) :
    Faultless (Function.define table f) := by
  refine .bind ?_ fun s _ => .mapError fun d => ⟨d, rfl⟩
  rw [Function.symbol, Function.signature, h]
  exact .ok _

theorem Program.globals_faultless {p : Program} (h : p.WellFormed L) : Faultless p.globals :=
  .foldlM (fun f hf => Function.define_faultless (h.functions f hf).flaw) _

theorem Param.define_faultless {p : Param} (h : p.WellFormed L) (locals : SymbolTable) :
    Faultless (Param.define locals p) :=
  SymbolTable.declare_faultless (v := p.variable) h.type

theorem DeclItem.define_faultless {item : DeclItem} (h : item.WellFormed L) {type : Ty} (ht : type.isVariable = true)
    (globals locals : SymbolTable) : Faultless (DeclItem.define globals type locals item) := by
  refine .bind ?_ fun _ _ => SymbolTable.declare_faultless (v := item.variable type) ht
  unfold DeclItem.checkInit
  split
  · exact .ok _
  · rename_i e he
    refine .bind (Expr.typeOf_faultless (h.init e he) _) fun given _ => ?_
    split
    · exact .reject _ _
    · exact .ok _

theorem Stmt.nestedAll_eq_flatMap (body : List Stmt) : nestedAll body = body.flatMap nested := by
  induction body with
  | nil => rw [nestedAll, List.flatMap_nil]
  | cons s rest ih => rw [nestedAll, ih, List.flatMap_cons]

theorem Stmt.define_faultless {s : Stmt} (h : s.WellFormed L) (globals locals : SymbolTable) :
    Faultless (Stmt.define globals locals s) := by
  cases h with
  | declare _ ht _ hi => exact .foldlM (fun item hm => DeclItem.define_faultless (hi item hm) ht globals) locals
  | _ => exact .ok _

theorem Stmt.wellFormed_nested {s : Stmt} (h : s.WellFormed L) : ∀ s' ∈ s.nested, s'.WellFormed L := by
  induction h with
  | ifThen hl hc hb ih =>
    rw [nested, nestedAll_eq_flatMap]
    simp only [List.mem_cons, List.mem_flatMap, forall_eq_or_imp]
    refine ⟨.ifThen hl hc hb, ?_⟩
    rintro s' ⟨s, hs, h⟩
    exact ih s hs s' h
  | ifElse hl hc hb ho ihb iho =>
    rw [nested, nestedAll_eq_flatMap, nestedAll_eq_flatMap]
    simp only [List.cons_append, List.mem_cons, List.mem_append, List.mem_flatMap, forall_eq_or_imp]
    refine ⟨.ifElse hl hc hb ho, fun s' h => ?_⟩
    rcases h with ⟨s, hs, h⟩ | ⟨s, hs, h⟩
    · exact ihb s hs s' h
    · exact iho s hs s' h
  | whileDo hl hc hb ih =>
    rw [nested, nestedAll_eq_flatMap]
    simp only [List.mem_cons, List.mem_flatMap, forall_eq_or_imp]
    refine ⟨.whileDo hl hc hb, ?_⟩
    rintro s' ⟨s, hs, h⟩
    exact ih s hs s' h
  | forDo hl hi hc hs hb _ _ ih =>
    rw [nested, nestedAll_eq_flatMap]
    simp only [List.mem_cons, List.mem_flatMap, forall_eq_or_imp]
    refine ⟨.forDo hl hi hc hs hb, ?_⟩
    rintro s' ⟨s, hs, h⟩
    exact ih s hs s' h
  | _ =>
    simp only [nested, List.mem_singleton, forall_eq]
    constructor <;> assumption

theorem Function.locals_faultless {f : Function} (h : f.WellFormed L) (globals : SymbolTable) :
    Faultless (f.locals globals) := by
  refine .bind (.foldlM (fun p hp => Param.define_faultless (h.params p hp)) _) fun params _ => .bind ?_ fun _ _ => ?_
  · rw [Function.checkHead, h.flaw]
    exact .ok _
  · refine .foldlM (fun s hs => Stmt.define_faultless (L := L) ?_ globals) params
    rw [Stmt.nestedAll_eq_flatMap, List.mem_flatMap] at hs
    obtain ⟨s', hs', hs⟩ := hs
    exact Stmt.wellFormed_nested (h.body s' hs') s hs

/-! ### Statements -/

theorem Expr.checkCondition_faultless {cond : Expr} (h : cond.WellFormed L) (scope : Scope) (statement : Conditional) :
    Faultless (cond.checkCondition scope statement) := by
  refine .bind (Expr.typeOf_faultless h scope) fun given _ => ?_
  split
  · exact .reject _ _
  · exact .ok _

theorem Ident.checkAssign_faultless {value : Expr} (h : value.WellFormed L) (scope : Scope) (line : Int)
    (target : Ident) : Faultless (target.checkAssign scope line value) := by
  refine .bind (scope.findVariable_faultless _) fun declared _ => ?_
  refine .bind (Expr.typeOf_faultless h scope) fun given _ => ?_
  split
  · exact .reject _ _
  · exact .ok _

theorem Ident.checkIncrement_faultless (scope : Scope) (line : Int) (target : Ident) :
    Faultless (target.checkIncrement scope line) := by
  refine .bind (scope.findVariable_faultless _) fun declared _ => ?_
  split
  · exact .reject _ _
  · exact .ok _

theorem Place.checkReturn_faultless {value : Option Expr} (h : ∀ e, value = some e → e.WellFormed L) (place : Place)
    (line : Int) : Faultless (place.checkReturn line value) := by
  cases value with
  | none =>
    rw [Place.checkReturn]
    split
    · exact .reject _ _
    · exact .ok _
  | some e =>
    refine .bind (Expr.typeOf_faultless (h e rfl) _) fun given _ => ?_
    split
    · exact .reject _ _
    · exact .ok _

namespace Stmt

theorem checkLoopStart_faultless {s : Stmt} (h : s.WellFormed L) (scope : Scope) :
    Faultless (s.checkLoopStart scope) := by
  cases h with
  | assign _ _ he => exact Ident.checkAssign_faultless he _ _ _
  | _ => exact .reject _ _

theorem checkLoopStep_faultless {s : Stmt} (h : s.WellFormed L) (scope : Scope) :
    Faultless (s.checkLoopStep scope) := by
  cases h with
  | assign _ _ he => exact Ident.checkAssign_faultless he _ _ _
  | increment => exact Ident.checkIncrement_faultless _ _ _
  | _ => exact .reject _ _

theorem checkAll_faultless {place : Place} {body : List Stmt} (h : ∀ s ∈ body, Faultless (s.check place)) :
    Faultless (checkAll place body) := by
  induction body with
  | nil => exact .ok _
  | cons s rest ih =>
    rw [checkAll]
    exact .bind (h s (by simp)) fun _ _ => ih fun s' h' => h s' (by simp [h'])

theorem check_faultless {s : Stmt} (h : s.WellFormed L) (place : Place) : Faultless (s.check place) := by
  induction h with
  | declare =>
    rw [check]
    exact .ok _
  | assign _ _ he =>
    rw [check]
    exact Ident.checkAssign_faultless he _ _ _
  | increment =>
    rw [check]
    exact Ident.checkIncrement_faultless _ _ _
  | call hl hc ha =>
    rw [check]
    exact .bind (Expr.typeOf_faultless (.call hl hc ha) _) fun _ _ => .ok _
  | ifThen _ hc _ ih =>
    rw [check]
    exact .bind (Expr.checkCondition_faultless hc _ _) fun _ _ => checkAll_faultless ih
  | ifElse _ hc _ _ ihb iho =>
    rw [check]
    exact .bind (Expr.checkCondition_faultless hc _ _) fun _ _ => .bind (checkAll_faultless ihb) fun _ _ =>
      checkAll_faultless iho
  | whileDo _ hc _ ih =>
    rw [check]
    exact .bind (Expr.checkCondition_faultless hc _ _) fun _ _ => checkAll_faultless ih
  | forDo _ hi hc hs _ _ _ ih =>
    rw [check]
    exact .bind (checkLoopStart_faultless hi _) fun _ _ => .bind (Expr.checkCondition_faultless hc _ _) fun _ _ =>
      .bind (checkLoopStep_faultless hs _) fun _ _ => checkAll_faultless ih
  | read =>
    rw [check]
    exact .bind (place.scope.findVariable_faultless _) fun _ _ => .ok _
  | print _ he =>
    rw [check]
    exact .bind (Expr.typeOf_faultless he _) fun _ _ => .ok _
  | ret _ he =>
    rw [check]
    exact Place.checkReturn_faultless he _ _

end Stmt

/-! ### Programs -/

theorem Function.analyze_faultless {f : Function} (h : f.WellFormed L) (globals : SymbolTable) :
    Faultless (f.analyze globals) :=
  .bind (Function.locals_faultless h globals) fun _ _ =>
    .bind (Stmt.checkAll_faultless fun s hs => Stmt.check_faultless (h.body s hs) _) fun _ _ => .ok _

theorem Function.analyzeAll_faultless {fs : List Function} (h : ∀ f ∈ fs, f.WellFormed L) (globals : SymbolTable) :
    Faultless (Function.analyzeAll globals fs).2 := by
  induction fs with
  | nil => exact .ok _
  | cons f rest ih =>
    simp only [List.forall_mem_cons] at h
    unfold Function.analyzeAll
    split
    · rename_i hf
      exact (Function.analyze_faultless h.1 globals).error hf
    · exact (ih h.2).map _

/-- On a well-formed program analysis ends well or with a diagnostic. -/
theorem Program.analyze_faultless {p : Program} (h : p.WellFormed L) : Faultless p.analyze.2 := by
  unfold Program.analyze
  split
  · rename_i hg
    exact (Program.globals_faultless h).error hg
  · exact (Function.analyzeAll_faultless h.functions _).map _

end Arvore
