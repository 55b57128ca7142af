import Mathlib
import Arvore.Compilation
import Arvore.Proofs.Analysis.Accepted
import Arvore.Proofs.Analysis.Layout
import Arvore.Proofs.Code.Pool

/-!
# Code for every accepted program

Generating code can meet faults: a variable without a place, an expression without a type, an operator without
instructions, a literal without a directive. None of them is met in a function that is well formed and accepted. A step
of code generation is `Total` if it ends well with every pool whose literals can be written, and leaves such a pool.
-/

namespace Arvore

open Assembly

/-- A directive can be written for every literal of the pool. -/
def Assembly.Pool.Writable (p : Pool) : Prop := ∀ l ∈ p.literals, ∃ line, l.directive = .ok line

theorem Assembly.Literal.directive_eq_ok {l : Literal} (h : l.label.category ∈ Category.literals) :
    ∃ line, l.directive = .ok line := by
  simp only [Category.literals, List.mem_cons, List.not_mem_nil, or_false] at h
  unfold Literal.directive
  rcases h with h | h | h <;> rw [h] <;> exact ⟨_, rfl⟩

theorem Assembly.Literal.listing_eq_ok {ls : List Literal} (h : ∀ l ∈ ls, ∃ line, l.directive = .ok line) :
    ∃ lines, listing ls = .ok lines := by
  induction ls with
  | nil => exact ⟨[], rfl⟩
  | cons l rest ih =>
    simp only [List.forall_mem_cons] at h
    obtain ⟨line, hl⟩ := h.1
    obtain ⟨lines, hr⟩ := ih h.2
    exact ⟨[.label l.label, line] ++ lines, bind_eq_ok_iff.2 ⟨line, hl, bind_eq_ok_iff.2 ⟨lines, hr, rfl⟩⟩⟩

theorem Assembly.Pool.Writable.dataCode {p : Pool} (h : p.Writable) : ∃ lines, p.dataCode = .ok lines := by
  obtain ⟨lines, hl⟩ := Literal.listing_eq_ok h
  exact ⟨.dataSection :: lines, bind_eq_ok_iff.2 ⟨lines, hl, rfl⟩⟩

theorem Assembly.Pool.Writable.intern {p : Pool} (h : p.Writable) {category payload : String}
    (hc : category ∈ Category.literals) : (p.intern category payload).2.Writable := by
  unfold Pool.intern
  split
  · exact h
  · intro l hl
    rcases List.mem_append.1 hl with hl | hl
    · exact h l hl
    · rw [List.mem_singleton] at hl
      subst hl
      exact Literal.directive_eq_ok hc

namespace Gen

variable {α β : Type}

/-- A step that ends well whatever was generated before it, and keeps the literals writable. -/
def Total (x : Gen α) : Prop := ∀ p, p.Writable → ∃ a q, x.Emits p a q ∧ q.Writable

namespace Total

theorem pure (a : α) : Total (pure a) := fun p hp => ⟨a, p, by simp, hp⟩

theorem bind {x : Gen α} {f : α → Gen β} (hx : Total x) (hf : ∀ a, Total (f a)) : Total (x >>= f) := by
  intro p hp
  obtain ⟨a, q, hxa, hq⟩ := hx p hp
  obtain ⟨b, r, hfb, hr⟩ := hf a q hq
  exact ⟨b, r, emits_bind.2 ⟨a, q, hxa, hfb⟩, hr⟩

theorem lift {x : Except Fault α} (h : ∃ a, x = .ok a) : Total (liftM x) := by
  obtain ⟨a, rfl⟩ := h
  exact fun p hp => ⟨a, p, emits_lift.2 ⟨rfl, rfl⟩, hp⟩

/-- After a step that draws no labels, only what it produced matters. -/
theorem bind_lift {x : Except Fault α} {f : α → Gen β} {a : α} (hx : x = .ok a) (hf : Total (f a)) :
    Total (liftM x >>= f) := by
  intro p hp
  obtain ⟨b, q, hb, hq⟩ := hf p hp
  exact ⟨b, q, emits_bind.2 ⟨a, p, emits_lift.2 ⟨hx, rfl⟩, hb⟩, hq⟩

theorem fresh (category : String) : Total (fresh category) := fun _ hp => ⟨_, _, emits_fresh.2 ⟨rfl, rfl⟩, hp⟩

theorem intern {category payload : String} (hc : category ∈ Category.literals) : Total (intern category payload) :=
  fun _ hp => ⟨_, _, emits_intern.2 ⟨rfl, rfl⟩, hp.intern hc⟩

end Total

end Gen

/-! ### Expressions -/

/-- Every variable has a type that takes room. -/
def Scope.Stored (scope : Scope) : Prop :=
  ∀ name s, scope.locals.find? name = some s → s.type.isVariable = true

theorem Ty.width_eq_ok {t : Ty} (h : t.isVariable = true) : ∃ w, t.width = .ok w := by
  cases t <;> first | exact ⟨_, rfl⟩ | cases h

theorem Symbol.load_eq_ok {s : Symbol} (h : s.type.isVariable = true) : ∃ code, s.load = .ok code := by
  obtain ⟨w, hw⟩ := Ty.width_eq_ok h
  rw [Symbol.load, hw]
  cases w <;> exact ⟨_, rfl⟩

theorem Symbol.storeFrom_eq_ok {s : Symbol} (h : s.type.isVariable = true) (src : Operand) :
    ∃ code, s.storeFrom src = .ok code := by
  obtain ⟨w, hw⟩ := Ty.width_eq_ok h
  rw [Symbol.storeFrom, hw]
  exact ⟨_, rfl⟩

theorem Target.find_eq_ok_iff {target : Target} {name : String} {s : Symbol} :
    target.find name = .ok s ↔ target.scope.locals.find? name = some s := by
  rw [Target.find, mapError_eq_ok_iff, SymbolTable.lookup_eq_ok_iff]

theorem Target.typeOf_eq_ok_iff {target : Target} {e : Expr} {t : Ty} :
    target.typeOf e = .ok t ↔ e.typeOf target.scope = .ok t := by
  rw [Target.typeOf, mapError_eq_ok_iff]

theorem Numeral.code_total {text : String} (h : Representable text) : (Numeral.code text).Total := by
  obtain ⟨-, hi, hr⟩ := h
  unfold Numeral.code
  split
  · rename_i hn
    obtain ⟨x, hx⟩ := hr (by simpa using hn)
    have hp : realPayload text = .ok (String.ofList (Real.literal x)) := by simp [realPayload, hx]
    exact .bind_lift hp (.bind (.intern (by simp [Category.literals])) fun _ => .pure _)
  · rename_i hn
    obtain ⟨value, hv⟩ := hi (by simpa using hn)
    split
    · exact .pure _
    · rw [hv]
      exact .bind (.intern (by simp [Category.literals])) fun _ => .pure _

section Operators

theorem ArithmeticOp.integerCode_eq_ok {op : ArithmeticOp} (h : op ∈ known) : ∃ code, op.integerCode = .ok code := by
  cases op <;> first | exact ⟨_, rfl⟩ | simp [known] at h

theorem ArithmeticOp.realOp_eq_ok {op : ArithmeticOp} (h : op ∈ known) : ∃ r, op.realOp = .ok r := by
  cases op <;> first | exact ⟨_, rfl⟩ | simp [known] at h

theorem LogicalOp.code_eq_ok {op : LogicalOp} (h : op ∈ known) : ∃ code, op.code = .ok code := by
  cases op <;> first | exact ⟨_, rfl⟩ | simp [known] at h

theorem RelationalOp.condition_eq_ok {op : RelationalOp} (h : op ∈ known) : ∃ c, op.condition = .ok c := by
  cases op <;> first | exact ⟨_, rfl⟩ | simp [known] at h

theorem RelationalOp.realCode_eq_ok {op : RelationalOp} (h : op ∈ known) : ∃ code, op.realCode = .ok code := by
  cases op <;> first | exact ⟨_, rfl⟩ | simp [known] at h

theorem UnaryOp.code_eq_ok {op : UnaryOp} (h : op ∈ known) (t : Ty) : ∃ code, op.code (.ok t) = .ok code := by
  cases op with
  | neg =>
    by_cases ht : t = .real
    · exact ⟨_, bind_eq_ok_iff.2 ⟨t, rfl, if_pos ht⟩⟩
    · exact ⟨_, bind_eq_ok_iff.2 ⟨t, rfl, if_neg ht⟩⟩
  | not => exact ⟨_, rfl⟩
  | other symbol => simp [known] at h

theorem StepOp.code_eq_ok {op : StepOp} (h : op ∈ known) : ∃ i, op.code = .ok i := by
  cases op <;> first | exact ⟨_, rfl⟩ | simp [known] at h

end Operators

namespace Expr

variable {L : Lexicon} {target : Target}

theorem argsCode_total {args : List Expr} (h : ∀ e ∈ args, (e.code target).Total) :
    (argsCode target args).Total := by
  induction args with
  | nil =>
    rw [argsCode]
    exact .pure _
  | cons e rest ih =>
    rw [argsCode]
    simp only [List.forall_mem_cons] at h
    exact .bind h.1 fun _ => .bind (ih h.2) fun _ => .pure _

/-- There is code for every well-formed expression that has a type. -/
theorem code_total {e : Expr} {t : Ty} (hs : target.scope.Stored) (hw : e.WellFormed L)
    (ht : e.typeOf target.scope = .ok t) : (e.code target).Total := by
  induction e generalizing t with
  | number line text =>
    rw [code]
    cases hw with
    | number _ _ hr => exact Numeral.code_total hr
  | string line text =>
    rw [code]
    exact .bind (.intern (by simp [Category.literals])) fun _ => .pure _
  | boolean line word =>
    rw [code]
    exact .pure _
  | var line name =>
    rw [code]
    obtain ⟨s, hv, -⟩ := bind_eq_ok_iff.1 (typeOf.eq_def .. ▸ ht)
    have hv := Scope.findVariable_eq_ok_iff.1 hv
    exact .bind_lift (Target.find_eq_ok_iff.2 hv) (.lift (Symbol.load_eq_ok (hs _ _ hv)))
  | arithmetic line op a b iha ihb =>
    rw [code]
    have hty := Target.typeOf_eq_ok_iff.2 ht
    simp only [typeOf, bind_eq_ok_iff] at ht
    obtain ⟨ta, hta, tb, htb, -⟩ := ht
    cases hw with
    | arithmetic _ ho ha hb =>
      refine .bind_lift hty (.bind (iha ha hta) fun left => .bind (ihb hb htb) fun right => ?_)
      split
      · refine .bind_lift (Target.typeOf_eq_ok_iff.2 hta) (.bind_lift (Target.typeOf_eq_ok_iff.2 htb) ?_)
        exact .bind (.lift (ArithmeticOp.realOp_eq_ok ho)) fun _ => .pure _
      · exact .bind (.lift (ArithmeticOp.integerCode_eq_ok ho)) fun _ => .pure _
  | logical line op a b iha ihb =>
    rw [code]
    simp only [typeOf, bind_eq_ok_iff] at ht
    obtain ⟨ta, hta, tb, htb, -⟩ := ht
    cases hw with
    | logical _ ho ha hb =>
      refine .bind (iha ha hta) fun left => .bind (ihb hb htb) fun right => ?_
      exact .bind (.lift (LogicalOp.code_eq_ok ho)) fun _ => .pure _
  | relational line op a b iha ihb =>
    rw [code]
    simp only [typeOf, bind_eq_ok_iff] at ht
    obtain ⟨ta, hta, tb, htb, -⟩ := ht
    cases hw with
    | relational _ ho ha hb =>
      refine .bind_lift (Target.typeOf_eq_ok_iff.2 hta) (.bind_lift (Target.typeOf_eq_ok_iff.2 htb) ?_)
      refine .bind (iha ha hta) fun left => .bind (ihb hb htb) fun right => ?_
      split
      · exact .bind (.lift (RelationalOp.realCode_eq_ok ho)) fun _ => .pure _
      · exact .bind (.lift (RelationalOp.condition_eq_ok ho)) fun _ => .pure _
  | unary line op e ih =>
    rw [code]
    have hty := Target.typeOf_eq_ok_iff.2 ht
    simp only [typeOf, bind_eq_ok_iff] at ht
    obtain ⟨te, hte, -⟩ := ht
    cases hw with
    | unary _ ho he =>
      rw [hty]
      exact .bind (ih he hte) fun _ => .bind (.lift (UnaryOp.code_eq_ok ho t)) fun _ => .pure _
  | call line callee args ih =>
    rw [code]
    simp only [typeOf, bind_eq_ok_iff, typesOf_eq_ok_iff] at ht
    obtain ⟨f, -, ts, hts, -⟩ := ht
    cases hw with
    | call _ _ ha =>
      have hty : ∀ e ∈ args, ∃ t, e.typeOf target.scope = .ok t :=
        forall_mem_of_forall₂ hts.flip (fun _ _ => trivial) fun t _ _ _ h => ⟨t, h⟩
      refine .bind (argsCode_total fun e he => ?_) fun _ => .pure _
      obtain ⟨t, hte⟩ := hty e he
      exact ih e he (ha e he) hte
  | foreign line kind | absent => cases hw

end Expr

/-! ### Statements -/

section Statements

variable {L : Lexicon} {target : Target}

theorem Symbol.assignCode_total {s : Symbol} {e : Expr} {t : Ty} (hs : target.scope.Stored)
    (hv : s.type.isVariable = true) (hw : e.WellFormed L) (ht : e.typeOf target.scope = .ok t) :
    (s.assignCode target e).Total := by
  unfold Symbol.assignCode
  split
  · exact .lift (Symbol.storeFrom_eq_ok hv _)
  · exact .bind (Expr.code_total hs hw ht) fun _ => .bind (.lift (Symbol.storeFrom_eq_ok hv _)) fun _ => .pure _

/-- Assigning to a declared variable: what declarations and assignments have in common. -/
theorem Target.assign_total {name : String} {e : Expr} {t t' : Ty} (hs : target.scope.Stored)
    (hx : target.scope.Declares name t) (hw : e.WellFormed L) (ht : e.typeOf target.scope = .ok t') :
    Gen.Total (do let s ← target.find name; s.assignCode target e) := by
  obtain ⟨s, hf, -⟩ := hx
  exact .bind_lift (Target.find_eq_ok_iff.2 hf) (Symbol.assignCode_total hs (hs _ _ hf) hw ht)

theorem DeclItem.code_total {item : DeclItem} {t : Ty} (hs : target.scope.Stored) (hw : item.WellFormed L)
    (ha : item.Accepted target.scope t) : (item.code target).Total := by
  unfold DeclItem.code
  split
  · exact .pure _
  · rename_i e he
    exact Target.assign_total hs ha.target (hw.init e he) (ha.init e he)

theorem DeclItem.codes_total {items : List DeclItem} (h : ∀ item ∈ items, (item.code target).Total) :
    (DeclItem.codes target items).Total := by
  induction items with
  | nil => exact .pure _
  | cons item rest ih =>
    simp only [List.forall_mem_cons] at h
    exact .bind h.1 fun _ => .bind (ih h.2) fun _ => .pure _

theorem Expr.printCode_total {e : Expr} {t : Ty} (hs : target.scope.Stored) (hw : e.WellFormed L)
    (ht : e.typeOf target.scope = .ok t) : (e.printCode target).Total := by
  unfold Expr.printCode
  split
  · exact .bind (.intern (by simp [Category.literals])) fun _ => .pure _
  · exact .bind (Expr.code_total hs hw ht) fun _ => .pure _

namespace Stmt

theorem codes_total {body : List Stmt} (h : ∀ s ∈ body, (s.code target).Total) : (codes target body).Total := by
  induction body with
  | nil =>
    rw [codes]
    exact .pure _
  | cons s rest ih =>
    rw [codes]
    simp only [List.forall_mem_cons] at h
    exact .bind h.1 fun _ => .bind (ih h.2) fun _ => .pure _

/-- There is code for every well-formed statement that analysis accepts. -/
theorem code_total {s : Stmt} (place : Place) (hp : place.scope = target.scope) (hs : target.scope.Stored)
    (hw : s.WellFormed L) (ha : s.Accepted place) : (s.code target).Total := by
  induction s with
  | declare line type items =>
    rw [code]
    cases hw with
    | declare _ _ _ hi =>
      cases ha with
      | declare h => exact DeclItem.codes_total fun item hm => DeclItem.code_total hs (hi item hm) (hp ▸ h item hm)
  | assign line x e =>
    rw [code]
    cases hw with
    | assign _ _ hwe =>
      cases ha with
      | assign hx he => exact Target.assign_total hs (hp ▸ hx) hwe (hp ▸ he)
  | increment line op x =>
    rw [code]
    cases hw with
    | increment _ ho _ =>
      cases ha with
      | increment hx =>
        obtain ⟨s, hf, -⟩ := hx
        have hf : target.scope.locals.find? x.name = some s := hp ▸ hf
        have hv := hs _ _ hf
        refine .bind_lift (Target.find_eq_ok_iff.2 hf) (.bind (.lift (Symbol.load_eq_ok hv)) fun _ => ?_)
        refine .bind (.lift (StepOp.code_eq_ok ho)) fun _ => ?_
        exact .bind (.lift (Symbol.storeFrom_eq_ok hv _)) fun _ => .pure _
  | call line callee args =>
    rw [code]
    cases hw with
    | call hl hc hwa =>
      cases ha with
      | call h => exact Expr.code_total hs (.call hl hc hwa) (hp ▸ h)
  | ifThen line c body ih =>
    rw [code]
    cases hw with
    | ifThen _ hwc hwb =>
      cases ha with
      | ifThen hc hb =>
        refine .bind (.fresh _) fun _ => .bind (Expr.code_total hs hwc (hp ▸ hc)) fun _ => ?_
        exact .bind (codes_total fun s hm => ih s hm (hwb s hm) (hb s hm)) fun _ => .pure _
  | ifElse line c body other ihb iho =>
    rw [code]
    cases hw with
    | ifElse _ hwc hwb hwo =>
      cases ha with
      | ifElse hc hb ho =>
        refine .bind (.fresh _) fun _ => .bind (.fresh _) fun _ => ?_
        refine .bind (Expr.code_total hs hwc (hp ▸ hc)) fun _ => ?_
        refine .bind (codes_total fun s hm => ihb s hm (hwb s hm) (hb s hm)) fun _ => ?_
        exact .bind (codes_total fun s hm => iho s hm (hwo s hm) (ho s hm)) fun _ => .pure _
  | whileDo line c body ih =>
    rw [code]
    cases hw with
    | whileDo _ hwc hwb =>
      cases ha with
      | whileDo hc hb =>
        refine .bind (.fresh _) fun _ => .bind (.fresh _) fun _ => ?_
        refine .bind (Expr.code_total hs hwc (hp ▸ hc)) fun _ => ?_
        exact .bind (codes_total fun s hm => ih s hm (hwb s hm) (hb s hm)) fun _ => .pure _
  | forDo line i c s body ihi ihs ih =>
    rw [code]
    cases hw with
    | forDo _ hwi hwc hws hwb =>
      cases ha with
      | forDo hi _ hc hst _ hb =>
        refine .bind (.fresh _) fun _ => .bind (.fresh _) fun _ => .bind (ihi hwi hi) fun _ => ?_
        refine .bind (Expr.code_total hs hwc (hp ▸ hc)) fun _ => ?_
        refine .bind (codes_total fun s hm => ih s hm (hwb s hm) (hb s hm)) fun _ => ?_
        exact .bind (ihs hws hst) fun _ => .pure _
  | read line x =>
    rw [code]
    cases ha with
    | read hx =>
      obtain ⟨s, hf, -⟩ := hx
      exact .bind_lift (Target.find_eq_ok_iff.2 (hp ▸ hf)) (.pure _)
  | print line e =>
    rw [code]
    cases hw with
    | print _ hwe =>
      cases ha with
      | print he => exact Expr.printCode_total hs hwe (hp ▸ he)
  | ret line value =>
    cases hw with
    | ret _ hwe =>
      cases ha with
      | leave _ =>
        rw [code]
        exact .pure _
      | result he _ =>
        rw [code]
        exact .bind (Expr.code_total hs (hwe _ rfl) (hp ▸ he)) fun _ => .pure _
  | foreign line kind | incomplete line kind => cases hw

end Stmt

end Statements

/-! ### Functions and programs -/

theorem Symbol.spillCode_eq_ok {s : Symbol} (h : s.type.isVariable = true) (position : Nat) :
    ∃ code, s.spillCode position = .ok code := by
  unfold Symbol.spillCode
  split
  · exact Symbol.storeFrom_eq_ok h _
  · obtain ⟨code, hc⟩ := Symbol.storeFrom_eq_ok h (.reg .rax)
    exact ⟨_, bind_eq_ok_iff.2 ⟨code, hc, rfl⟩⟩

theorem Param.spillCodes_eq_ok {target : Target} {params : List Param} (hs : target.scope.Stored)
    (h : ∀ p ∈ params, target.scope.Declares p.target.name p.type) (position : Nat) :
    ∃ code, Param.spillCodes target position params = .ok code := by
  induction params generalizing position with
  | nil => exact ⟨[], rfl⟩
  | cons p rest ih =>
    simp only [List.forall_mem_cons] at h
    obtain ⟨⟨s, hf, -⟩, hrest⟩ := h
    obtain ⟨first, h1⟩ := Symbol.spillCode_eq_ok (hs _ _ hf) position
    obtain ⟨others, h2⟩ := ih hrest (position + 1)
    refine ⟨first ++ others, ?_⟩
    simp only [Param.spillCodes, bind_eq_ok_iff]
    exact ⟨s, Target.find_eq_ok_iff.2 hf, first, h1, others, h2, rfl⟩

/-- The variables of an accepted function have types that take room. -/
theorem Function.stored_of_locals {globals table : SymbolTable} {f : Function} (h : f.locals globals = .ok table) :
    Scope.Stored ⟨table, globals⟩ := fun _ _ hs => (Function.declared_of_locals h).isVariable hs

/-- There is code for every well-formed function that analysis accepts. -/
theorem Function.code_total {L : Lexicon} {globals : SymbolTable} {f : Function} {c : CheckedFunction} (align : Bool)
    (hw : f.WellFormed L) (h : f.analyze globals = .ok c) : (f.code align ⟨c.locals, globals⟩).Total := by
  obtain ⟨-, hl, -⟩ := Function.analyze_eq_ok h
  have hs := Function.stored_of_locals hl
  have ha := Function.accepted_of_analyze h
  unfold Function.code
  refine .bind (.lift (Param.spillCodes_eq_ok hs (Function.tabulated_of_locals hl).params 0)) fun _ => ?_
  refine .bind (Stmt.codes_total fun s hm => ?_) fun _ => .pure _
  exact Stmt.code_total (f.place ⟨c.locals, globals⟩) rfl hs (hw.body s hm) (ha s hm)

theorem Compilation.codes_total {L : Lexicon} {globals : SymbolTable} {fs : List Function} {cs : List CheckedFunction}
    (align : Bool) (hw : ∀ f ∈ fs, f.WellFormed L) (h : List.Forall₂ (fun f c => f.analyze globals = .ok c) fs cs) :
    (codes align globals cs).Total := by
  induction h with
  | nil => exact .pure _
  | @cons f c fs cs hf _ ih =>
    simp only [List.forall_mem_cons] at hw
    obtain ⟨rfl, -, -⟩ := Function.analyze_eq_ok hf
    exact .bind (Function.code_total align hw.1 hf) fun _ => .bind (ih hw.2) fun _ => .pure _

/-- Code is generated for every well-formed program that analysis accepts. -/
theorem Compilation.generate_eq_ok {L : Lexicon} {p : Program} {c : Compilation} (hw : p.WellFormed L)
    (h : p.analyze.2 = .ok c) (align : Bool) : ∃ out, c.generate align = .ok out := by
  obtain ⟨-, -, hf⟩ := Program.analyze_eq_ok h
  obtain ⟨functions, pool, he, hp⟩ := Compilation.codes_total align hw.functions hf {} (by simp [Pool.Writable])
  obtain ⟨data, hd⟩ := hp.dataCode
  exact ⟨_, bind_eq_ok_iff.2 ⟨(functions, pool), he, bind_eq_ok_iff.2 ⟨data, hd, rfl⟩⟩⟩

/-- Every well-formed program that analysis accepts is compiled. -/
theorem Program.compile_eq_ok {L : Lexicon} {p : Program} {c : Compilation} (hw : p.WellFormed L)
    (h : p.analyze.2 = .ok c) (align : Bool) : ∃ assembly, (p.compile align).2 = .ok assembly := by
  obtain ⟨⟨listing, literals⟩, hg⟩ := Compilation.generate_eq_ok hw h align
  rcases hp : p.analyze with ⟨events, result⟩
  obtain rfl : result = .ok c := by simpa [hp] using h
  exact ⟨Assembly.Listing.render listing, by simp only [compile, hp, hg]⟩

end Arvore
