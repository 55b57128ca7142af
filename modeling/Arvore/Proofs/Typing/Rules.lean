import Mathlib
import Arvore.Proofs.Analysis.Accepted
import Arvore.Proofs.Analysis.Declarations

/-!
# Typing rules

The types of expressions and the statements that are well typed, by rules. A `Context` lists the variables that are
declared and the functions of the program; it knows nothing of tables or places. In a scope that stands for a context,
an expression has exactly the types that the rules give it (`Expr.typeOf_eq_ok_iff`), and a statement passes the check
exactly if it is well typed (`Stmt.check_eq_ok_iff`).
-/

namespace Arvore

/-- What names stand for: variables that are declared, and the functions of the program. -/
structure Context where
  locals : List Variable
  functions : List Function

/-- A variable is declared under a name with a type. -/
def Context.Declares (Γ : Context) (name : String) (type : Ty) : Prop :=
  ∃ v ∈ Γ.locals, v.name = name ∧ v.type = type

/-- The expression has the type. -/
inductive Expr.HasType (Γ : Context) : Expr → Ty → Prop
  | integral {line text} (h : Numeral.isIntegral text = true) : HasType Γ (.number line text) .integer
  | fractional {line text} (h : Numeral.isIntegral text = false) : HasType Γ (.number line text) .real
  | string {line text} : HasType Γ (.string line text) .character
  | boolean {line word} : HasType Γ (.boolean line word) .logical
  | var {line name type} (h : Γ.Declares name type) : HasType Γ (.var line name) type
  | integers {line op a b} (ha : HasType Γ a .integer) (hb : HasType Γ b .integer) :
      HasType Γ (.arithmetic line op a b) .integer
  /-- a number that meets a real is promoted -/
  | reals {line op a b s t} (ha : HasType Γ a s) (hb : HasType Γ b t) (hs : s = .integer ∨ s = .real)
      (ht : t = .integer ∨ t = .real) (hr : s = .real ∨ t = .real) : HasType Γ (.arithmetic line op a b) .real
  | logical {line op a b} (ha : HasType Γ a .logical) (hb : HasType Γ b .logical) :
      HasType Γ (.logical line op a b) .logical
  /-- the types of the operands need not agree -/
  | relational {line op a b s t} (ha : HasType Γ a s) (hb : HasType Γ b t) :
      HasType Γ (.relational line op a b) .logical
  | neg {line e t} (he : HasType Γ e t) (ht : t = .integer ∨ t = .real) : HasType Γ (.unary line .neg e) t
  | not {line e} (he : HasType Γ e .logical) : HasType Γ (.unary line .not e) .logical
  | call {line callee args f} (hf : f ∈ Γ.functions) (hn : f.name = callee.name)
      (ha : List.Forall₂ (HasType Γ) args (f.params.map (·.type))) : HasType Γ (.call line callee args) f.result

/-- The statement is well typed in a function with the given result. The initial values of declarations have rules of
their own, since less is declared where they stand. -/
inductive Stmt.WellTyped (Γ : Context) (result : Ty) : Stmt → Prop
  | declare {line type items} : WellTyped Γ result (.declare line type items)
  | assign {line x e type} (hx : Γ.Declares x.name type) (he : e.HasType Γ type) :
      WellTyped Γ result (.assign line x e)
  | increment {line op x} (hx : Γ.Declares x.name .integer) : WellTyped Γ result (.increment line op x)
  | call {line callee args type} (h : (Expr.call line callee args).HasType Γ type) :
      WellTyped Γ result (.call line callee args)
  | ifThen {line c body} (hc : c.HasType Γ .logical) (hb : ∀ s ∈ body, WellTyped Γ result s) :
      WellTyped Γ result (.ifThen line c body)
  | ifElse {line c body other} (hc : c.HasType Γ .logical) (hb : ∀ s ∈ body, WellTyped Γ result s)
      (ho : ∀ s ∈ other, WellTyped Γ result s) : WellTyped Γ result (.ifElse line c body other)
  | whileDo {line c body} (hc : c.HasType Γ .logical) (hb : ∀ s ∈ body, WellTyped Γ result s) :
      WellTyped Γ result (.whileDo line c body)
  | forDo {line i c s body} (hi : WellTyped Γ result i) (hi' : i.kind = .assignment) (hc : c.HasType Γ .logical)
      (hs : WellTyped Γ result s) (hs' : s.kind = .assignment ∨ s.kind = .increment)
      (hb : ∀ s ∈ body, WellTyped Γ result s) : WellTyped Γ result (.forDo line i c s body)
  | read {line x type} (hx : Γ.Declares x.name type) : WellTyped Γ result (.read line x)
  | print {line e type} (he : e.HasType Γ type) : WellTyped Γ result (.print line e)
  | leave {line} (hr : result = .void) : WellTyped Γ result (.ret line none)
  | result {line e} (hr : result ≠ .void) (he : e.HasType Γ result) : WellTyped Γ result (.ret line (some e))
  /-- a function without a result may return anything -/
  | dropped {line e type} (hr : result = .void) (he : e.HasType Γ type) : WellTyped Γ result (.ret line (some e))

/-- The function is well typed in a program with the given functions. An initial value can use the parameters and what
was declared before it, a statement everything that the function declares anywhere. -/
structure Function.WellTyped (functions : List Function) (f : Function) : Prop where
  names : (f.declarations.map (·.name)).Nodup
  inits : ∀ before (d : Declaration) after, f.declarations = before ++ d :: after → ∀ e, d.init = some e →
    e.HasType ⟨before.map Declaration.toVariable, functions⟩ d.type
  body : ∀ s ∈ f.body, s.WellTyped ⟨f.declarations.map Declaration.toVariable, functions⟩ f.result

/-- The program is well typed. -/
structure Program.WellTyped (p : Program) : Prop where
  names : (p.functions.map Function.name).Nodup
  functions : ∀ f ∈ p.functions, f.WellTyped p.functions

/-! ### Scopes and contexts -/

/-- The signature that calls of a function are checked against. -/
def Function.sign (f : Function) : Signature := ⟨f.params.map (·.type), f.result⟩

/-- The scope has the variables and the functions of the context. -/
structure Scope.StandsFor (scope : Scope) (Γ : Context) : Prop where
  locals : ∀ name type, scope.Declares name type ↔ Γ.Declares name type
  functions : ∀ name signature,
    (∃ s, scope.globals.find? name = some s ∧ s.signature.getD ⟨[], .other ""⟩ = signature) ↔
      ∃ f ∈ Γ.functions, f.name = name ∧ f.sign = signature

/-! ### Expressions -/

theorem Signature.checkArguments_eq_ok_iff {line : Int} {function : String} {position : Nat} {params args : List Ty}
    (h : args.length = params.length) :
    checkArguments line function position params args = .ok () ↔ args = params := by
  induction params generalizing position args with
  | nil =>
    obtain rfl := List.length_eq_zero_iff.1 h
    simp [checkArguments]
  | cons p params ih =>
    obtain ⟨a, args, rfl⟩ := List.exists_cons_of_length_eq_add_one h
    rw [checkArguments]
    split
    · rename_i ha
      rw [ha, ih (by simpa using h), List.cons.injEq, eq_self, true_and]
    · rename_i ha
      simp [reject, ha]

theorem Symbol.typeOfCall_eq_ok_iff {s : Symbol} {line : Int} {args : List Ty} {t : Ty} :
    s.typeOfCall line args = .ok t ↔
      ∃ signature, s.signature.getD ⟨[], .other ""⟩ = signature ∧ args = signature.params ∧ t = signature.result := by
  rw [typeOfCall]
  split
  · rename_i hlength
    simp only [bind_eq_ok_iff, Signature.checkArguments_eq_ok_iff hlength]
    constructor
    · rintro ⟨-, ha, h⟩
      cases h
      exact ⟨_, rfl, ha, rfl⟩
    · rintro ⟨_, rfl, ha, rfl⟩
      exact ⟨(), ha, rfl⟩
  · rename_i hlength
    simp only [reject, reduceCtorEq, exists_eq_left', false_iff, not_and]
    intro ha
    exact absurd (congrArg List.length ha) hlength

theorem ArithmeticOp.typeOf_eq_ok_iff {line : Int} {op : ArithmeticOp} {s t u : Ty} :
    op.typeOf line s t = .ok u ↔ (s = .integer ∨ s = .real) ∧ (t = .integer ∨ t = .real) ∧
      u = if s = .real ∨ t = .real then .real else .integer := by
  cases s <;> cases t <;> simp [typeOf, Ty.isNumeric, reject, eq_comm]

theorem LogicalOp.typeOf_eq_ok_iff {line : Int} {op : LogicalOp} {s t u : Ty} :
    op.typeOf line s t = .ok u ↔ s = .logical ∧ t = .logical ∧ u = .logical := by
  by_cases hs : s = .logical <;> by_cases ht : t = .logical <;> simp [typeOf, reject, hs, ht, eq_comm]

theorem UnaryOp.typeOf_neg_eq_ok_iff {line : Int} {s t : Ty} :
    UnaryOp.neg.typeOf line s = .ok t ↔ s = t ∧ (s = .integer ∨ s = .real) := by
  cases s <;> simp [typeOf, Ty.isNumeric, reject]

theorem UnaryOp.typeOf_not_eq_ok_iff {line : Int} {s t : Ty} :
    UnaryOp.not.typeOf line s = .ok t ↔ s = .logical ∧ t = .logical := by
  by_cases h : s = .logical <;> simp [typeOf, reject, h, eq_comm]

variable {L : Lexicon} {scope : Scope} {Γ : Context}

/-- The type that is computed for an expression is the one that the rules give it. -/
theorem Expr.typeOf_eq_ok_iff (hs : scope.StandsFor Γ) {e : Expr} (hw : e.WellFormed L) {t : Ty} :
    e.typeOf scope = .ok t ↔ e.HasType Γ t := by
  induction e generalizing t with
  | number line text =>
    rw [typeOf, Except.ok.injEq, Numeral.type]
    cases hi : Numeral.isIntegral text with
    | true =>
      refine ⟨?_, fun h => ?_⟩
      · rintro rfl
        exact .integral hi
      · cases h with
        | integral => rfl
        | fractional h => simp [hi] at h
    | false =>
      refine ⟨?_, fun h => ?_⟩
      · rintro rfl
        exact .fractional hi
      · cases h with
        | integral h => simp [hi] at h
        | fractional => rfl
  | string line text =>
    rw [typeOf, Except.ok.injEq]
    refine ⟨?_, fun h => ?_⟩
    · rintro rfl
      exact .string
    · cases h
      rfl
  | boolean line word =>
    rw [typeOf, Except.ok.injEq]
    refine ⟨?_, fun h => ?_⟩
    · rintro rfl
      exact .boolean
    · cases h
      rfl
  | var line name =>
    have hv := hs.locals name t
    simp only [typeOf, bind_eq_ok_iff, Scope.findVariable_eq_ok_iff]
    constructor
    · rintro ⟨s, hf, h⟩
      cases h
      exact .var (hv.1 ⟨s, hf, rfl⟩)
    · intro h
      cases h with
      | var h =>
        obtain ⟨s, hf, rfl⟩ := hv.2 h
        exact ⟨s, hf, rfl⟩
  | arithmetic line op a b iha ihb =>
    cases hw with | arithmetic _ _ hwa hwb =>
    simp only [typeOf, bind_eq_ok_iff, ArithmeticOp.typeOf_eq_ok_iff]
    constructor
    · rintro ⟨s, ha, u, hb, hs, hu, rfl⟩
      have ha := (iha hwa).1 ha
      have hb := (ihb hwb).1 hb
      split
      · rename_i hr
        exact .reals ha hb hs hu hr
      · rename_i hr
        rw [not_or] at hr
        rw [hs.resolve_right hr.1] at ha
        rw [hu.resolve_right hr.2] at hb
        exact .integers ha hb
    · intro h
      cases h with
      | integers ha hb => exact ⟨_, (iha hwa).2 ha, _, (ihb hwb).2 hb, .inl rfl, .inl rfl, by simp⟩
      | reals ha hb hs hu hr => exact ⟨_, (iha hwa).2 ha, _, (ihb hwb).2 hb, hs, hu, by rw [if_pos hr]⟩
  | logical line op a b iha ihb =>
    cases hw with | logical _ _ hwa hwb =>
    simp only [typeOf, bind_eq_ok_iff, LogicalOp.typeOf_eq_ok_iff]
    constructor
    · rintro ⟨_, ha, _, hb, rfl, rfl, rfl⟩
      exact .logical ((iha hwa).1 ha) ((ihb hwb).1 hb)
    · intro h
      cases h with
      | logical ha hb => exact ⟨_, (iha hwa).2 ha, _, (ihb hwb).2 hb, rfl, rfl, rfl⟩
  | relational line op a b iha ihb =>
    cases hw with | relational _ _ hwa hwb =>
    simp only [typeOf, bind_eq_ok_iff]
    constructor
    · rintro ⟨_, ha, _, hb, h⟩
      cases h
      exact .relational ((iha hwa).1 ha) ((ihb hwb).1 hb)
    · intro h
      cases h with
      | relational ha hb => exact ⟨_, (iha hwa).2 ha, _, (ihb hwb).2 hb, rfl⟩
  | unary line op e ih =>
    cases hw with | unary _ ho hwe =>
    simp only [typeOf, bind_eq_ok_iff]
    cases op with
    | neg =>
      simp only [UnaryOp.typeOf_neg_eq_ok_iff]
      constructor
      · rintro ⟨s, he, rfl, ht⟩
        exact .neg ((ih hwe).1 he) ht
      · intro h
        cases h with
        | neg he ht => exact ⟨_, (ih hwe).2 he, rfl, ht⟩
    | not =>
      simp only [UnaryOp.typeOf_not_eq_ok_iff]
      constructor
      · rintro ⟨s, he, rfl, rfl⟩
        exact .not ((ih hwe).1 he)
      · intro h
        cases h with
        | not he => exact ⟨_, (ih hwe).2 he, rfl, rfl⟩
    | other symbol => simp [UnaryOp.known] at ho
  | call line callee args ih =>
    cases hw with | call _ _ hwa =>
    simp only [typeOf, bind_eq_ok_iff, Scope.findFunction_eq_ok_iff, typesOf_eq_ok_iff, Symbol.typeOfCall_eq_ok_iff]
    constructor
    · rintro ⟨s, hf, ts, ha, signature, hsign, rfl, rfl⟩
      obtain ⟨f, hf, hn, rfl⟩ := (hs.functions _ _).1 ⟨s, hf, hsign⟩
      exact .call hf hn (forall₂_imp_of_mem (fun e he t h => (ih e he (hwa e he)).1 h) ha)
    · intro h
      cases h with
      | @call _ _ _ f hf hn ha =>
        obtain ⟨s, hfind, hsign⟩ := (hs.functions callee.name f.sign).2 ⟨f, hf, hn, rfl⟩
        exact ⟨s, hfind, _, forall₂_imp_of_mem (fun e he t h => (ih e he (hwa e he)).2 h) ha, f.sign, hsign, rfl, rfl⟩
  | foreign line kind | absent => cases hw

/-! ### Statements -/

/-- Two checks one after the other. -/
theorem check_bind_eq_ok_iff {α : Type} {x : Except Failure Unit} {f : Unit → Except Failure α} {a : α} :
    (x >>= f) = .ok a ↔ x = .ok () ∧ f () = .ok a :=
  bind_eq_ok_iff.trans ⟨fun ⟨_, hx, hf⟩ => ⟨hx, hf⟩, fun ⟨hx, hf⟩ => ⟨(), hx, hf⟩⟩

/-- A check that rejects unless two types agree. -/
private theorem unless_eq_ok_iff {c : Bool} {line : Int} {cause : Diagnostic.Cause} :
    (if c = true then reject line cause else pure ()) = Except.ok () ↔ c = false := by
  cases c <;> simp [reject, pure, Except.pure]

theorem Expr.checkCondition_eq_ok_iff {statement : Conditional} {cond : Expr} :
    cond.checkCondition scope statement = .ok () ↔ cond.typeOf scope = .ok .logical := by
  simp only [checkCondition, bind_eq_ok_iff, unless_eq_ok_iff, bne_eq_false_iff_eq]
  exact ⟨fun ⟨_, h, ht⟩ => ht ▸ h, fun h => ⟨_, h, rfl⟩⟩

theorem DeclItem.checkInit_eq_ok_iff {type : Ty} {item : DeclItem} :
    item.checkInit scope type = .ok () ↔ ∀ e, item.init = some e → e.typeOf scope = .ok type := by
  refine ⟨checkInit_eq_ok, fun h => ?_⟩
  rw [checkInit]
  split
  · rfl
  · rename_i e he
    rw [h e he]
    simp [bind, Except.bind, pure, Except.pure]

theorem Ident.checkAssign_eq_ok_iff {line : Int} {target : Ident} {value : Expr} :
    target.checkAssign scope line value = .ok () ↔
      ∃ type, scope.Declares target.name type ∧ value.typeOf scope = .ok type := by
  simp only [checkAssign, bind_eq_ok_iff, unless_eq_ok_iff, bne_eq_false_iff_eq, Scope.findVariable_eq_ok_iff]
  constructor
  · rintro ⟨s, hs, type, ht, rfl⟩
    exact ⟨s.type, ⟨s, hs, rfl⟩, ht⟩
  · rintro ⟨_, ⟨s, hs, rfl⟩, ht⟩
    exact ⟨s, hs, s.type, ht, rfl⟩

theorem Ident.checkIncrement_eq_ok_iff {line : Int} {target : Ident} :
    target.checkIncrement scope line = .ok () ↔ scope.Declares target.name .integer := by
  simp only [checkIncrement, bind_eq_ok_iff, unless_eq_ok_iff, bne_eq_false_iff_eq, Scope.findVariable_eq_ok_iff]
  exact Iff.rfl

namespace Stmt

variable {place : Place}

theorem checkLoopStart_eq_ok_iff {s : Stmt} (hw : s.WellFormed L) :
    s.checkLoopStart place.scope = .ok () ↔ s.check place = .ok () ∧ s.kind = .assignment := by
  cases hw with
  | assign => simp [checkLoopStart, check, kind]
  | _ => simp [checkLoopStart, reject, kind]

theorem checkLoopStep_eq_ok_iff {s : Stmt} (hw : s.WellFormed L) :
    s.checkLoopStep place.scope = .ok () ↔
      s.check place = .ok () ∧ (s.kind = .assignment ∨ s.kind = .increment) := by
  cases hw with
  | assign | increment => simp [checkLoopStep, check, kind]
  | _ => simp [checkLoopStep, reject, kind]

/-- A statement passes the check exactly if it is well typed. -/
theorem check_eq_ok_iff (hs : place.scope.StandsFor Γ) {s : Stmt} (hw : s.WellFormed L) :
    s.check place = .ok () ↔ s.WellTyped Γ place.result := by
  have block {body : List Stmt} (hwb : ∀ s ∈ body, s.WellFormed L)
      (ih : ∀ s ∈ body, s.WellFormed L → (s.check place = .ok () ↔ s.WellTyped Γ place.result)) :
      checkAll place body = .ok () ↔ ∀ s ∈ body, s.WellTyped Γ place.result := by
    rw [checkAll_eq_ok_iff]
    exact forall₂_congr fun s hm => ih s hm (hwb s hm)
  induction s with
  | declare line type items => exact ⟨fun _ => .declare, fun _ => by rw [check]⟩
  | assign line x e =>
    cases hw with | assign _ _ hwe =>
    rw [check, Ident.checkAssign_eq_ok_iff]
    constructor
    · rintro ⟨type, hx, he⟩
      exact .assign ((hs.locals _ _).1 hx) ((Expr.typeOf_eq_ok_iff hs hwe).1 he)
    · intro h
      cases h with
      | assign hx he => exact ⟨_, (hs.locals _ _).2 hx, (Expr.typeOf_eq_ok_iff hs hwe).2 he⟩
  | increment line op x =>
    rw [check, Ident.checkIncrement_eq_ok_iff, hs.locals]
    constructor
    · exact .increment
    · intro h
      cases h with
      | increment hx => exact hx
  | call line callee args =>
    cases hw with | call hl hc ha =>
    simp only [check, bind_eq_ok_iff, Expr.typeOf_eq_ok_iff hs (.call hl hc ha)]
    constructor
    · rintro ⟨type, h, -⟩
      exact .call h
    · intro h
      cases h with
      | call h => exact ⟨_, h, rfl⟩
  | ifThen line c body ih =>
    cases hw with | ifThen _ hwc hwb =>
    simp only [check, check_bind_eq_ok_iff, Expr.checkCondition_eq_ok_iff, Expr.typeOf_eq_ok_iff hs hwc, block hwb ih]
    constructor
    · rintro ⟨hc, hb⟩
      exact .ifThen hc hb
    · intro h
      cases h with
      | ifThen hc hb => exact ⟨hc, hb⟩
  | ifElse line c body other ihb iho =>
    cases hw with | ifElse _ hwc hwb hwo =>
    simp only [check, check_bind_eq_ok_iff, Expr.checkCondition_eq_ok_iff, Expr.typeOf_eq_ok_iff hs hwc, block hwb ihb,
      block hwo iho]
    constructor
    · rintro ⟨hc, hb, ho⟩
      exact .ifElse hc hb ho
    · intro h
      cases h with
      | ifElse hc hb ho => exact ⟨hc, hb, ho⟩
  | whileDo line c body ih =>
    cases hw with | whileDo _ hwc hwb =>
    simp only [check, check_bind_eq_ok_iff, Expr.checkCondition_eq_ok_iff, Expr.typeOf_eq_ok_iff hs hwc, block hwb ih]
    constructor
    · rintro ⟨hc, hb⟩
      exact .whileDo hc hb
    · intro h
      cases h with
      | whileDo hc hb => exact ⟨hc, hb⟩
  | forDo line i c s body ihi ihs ih =>
    cases hw with | forDo _ hwi hwc hws hwb =>
    simp only [check, check_bind_eq_ok_iff, Expr.checkCondition_eq_ok_iff, Expr.typeOf_eq_ok_iff hs hwc, block hwb ih,
      checkLoopStart_eq_ok_iff hwi, checkLoopStep_eq_ok_iff hws, ihi hwi, ihs hws]
    constructor
    · rintro ⟨⟨hi, hi'⟩, hc, ⟨hst, hs'⟩, hb⟩
      exact .forDo hi hi' hc hst hs' hb
    · intro h
      cases h with
      | forDo hi hi' hc hst hs' hb => exact ⟨⟨hi, hi'⟩, hc, ⟨hst, hs'⟩, hb⟩
  | read line x =>
    simp only [check, bind_eq_ok_iff, Scope.findVariable_eq_ok_iff]
    constructor
    · rintro ⟨s, hf, -⟩
      exact .read ((hs.locals _ _).1 ⟨s, hf, rfl⟩)
    · intro h
      cases h with
      | read hx =>
        obtain ⟨s, hf, -⟩ := (hs.locals _ _).2 hx
        exact ⟨s, hf, rfl⟩
  | print line e =>
    cases hw with | print _ hwe =>
    simp only [check, bind_eq_ok_iff, Expr.typeOf_eq_ok_iff hs hwe]
    constructor
    · rintro ⟨type, h, -⟩
      exact .print h
    · intro h
      cases h with
      | print h => exact ⟨_, h, rfl⟩
  | ret line value =>
    cases hw with | ret _ hwe =>
    cases value with
    | none =>
      by_cases hr : place.result = .void
      · simp only [check, Place.checkReturn, hr]
        exact ⟨fun _ => .leave rfl, fun _ => rfl⟩
      · simp only [check, Place.checkReturn, bne_iff_ne, ne_eq, hr, not_false_eq_true, if_true, reject, reduceCtorEq,
          false_iff]
        intro h
        cases h with
        | leave hv => exact hr hv
    | some e =>
      simp only [check, Place.checkReturn, bind_eq_ok_iff, unless_eq_ok_iff, Expr.typeOf_eq_ok_iff hs (hwe e rfl)]
      constructor
      · rintro ⟨type, he, h⟩
        by_cases hr : place.result = .void
        · exact .dropped hr he
        · have ht : type = place.result := by simpa [hr] using h
          exact .result hr (ht ▸ he)
      · intro h
        cases h with
        | result hr he => exact ⟨_, he, by simp⟩
        | dropped hr he => exact ⟨_, he, by simp [hr]⟩
  | foreign line kind | incomplete line kind => cases hw

end Stmt

end Arvore
