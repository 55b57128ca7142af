import Mathlib
import Arvore.Proofs.Code.Total
import Arvore.Proofs.Relabelling.Analysis

/-!
# Code of a relabelled program

Code refers to variables by their places and to functions by their names, so it does not depend on labels. Only the
faults of code generation name lines and variables, so two steps are compared by what they emit when they end well
(`Gen.Agree`). The code of every part agrees with its code under other labels, and draws the same labels from the
pool, up to the listing of an accepted program (`Compilation.generate_relabel`). So a well-formed program with
other labels is compiled to the same text, with the same events, or refused alike (`Program.compile_relabel`).
-/

namespace Arvore

open Assembly

namespace Gen

variable {α β : Type}

/-- Two steps that emit the same from every pool. -/
def Agree (x y : Gen α) : Prop := ∀ p a q, x.Emits p a q ↔ y.Emits p a q

namespace Agree

theorem refl (x : Gen α) : Agree x x := fun _ _ _ => Iff.rfl

theorem bind {x y : Gen α} {f g : α → Gen β} (h : Agree x y) (hk : ∀ a, Agree (f a) (g a)) :
    Agree (x >>= f) (y >>= g) := by
  intro p b q
  simp only [emits_bind]
  exact exists_congr fun a => exists_congr fun r => and_congr (h p a r) (hk a r b q)

theorem lift {x y : Except Fault α} (h : ∀ a, x = .ok a ↔ y = .ok a) : Agree (liftM x) (liftM y) := by
  intro p a q
  simp only [emits_lift, h]

/-- Steps that look up a result agree if they go on alike with `f` of the result. -/
theorem bind_lift {x' x : Except Fault α} {f : α → α} {k' k : α → Gen β}
    (h : ∀ b, x' = .ok b ↔ ∃ a, x = .ok a ∧ f a = b) (hk : ∀ a, Agree (k' (f a)) (k a)) :
    Agree (liftM x' >>= k') (liftM x >>= k) := by
  intro p b q
  -- a lookup leaves the pool alone, so both steps go on from `p`
  simp only [emits_bind, emits_lift, h]
  constructor
  · rintro ⟨_, _, ⟨⟨a, ha, rfl⟩, rfl⟩, he⟩
    exact ⟨a, _, ⟨ha, rfl⟩, (hk a _ _ _).1 he⟩
  · rintro ⟨a, _, ⟨ha, rfl⟩, he⟩
    exact ⟨f a, _, ⟨⟨a, ha, rfl⟩, rfl⟩, (hk a _ _ _).2 he⟩

end Agree

end Gen

open Gen (Agree)

/-! ### Variables and types -/

section Targets

variable {r : Relabelling} {target target' : Target} (h : target.scope.Relabelled r target'.scope)
include h

namespace Target

theorem find_relabel (name : String) (s' : Symbol) :
    target'.find (r.name name) = .ok s' ↔ ∃ s, target.find name = .ok s ∧ s.relabel r = s' := by
  simp only [find_eq_ok_iff, h.locals name, Option.map_eq_some_iff]

theorem typeOf_relabel (e : Expr) (type : Ty) :
    target'.typeOf (e.relabel r) = .ok type ↔ target.typeOf e = .ok type := by
  rw [typeOf_eq_ok_iff, typeOf_eq_ok_iff, (e.typeOf_relabel h).eq_ok_iff]
  simp only [id, exists_eq_right]

end Target

/-! ### Expressions -/

omit h in
theorem UnaryOp.code_congr {op : UnaryOp} {type type' : Except Fault Ty} (h : ∀ t, type = .ok t ↔ type' = .ok t)
    (code : List Instr) : op.code type = .ok code ↔ op.code type' = .ok code := by
  cases op with
  | neg => simp only [UnaryOp.code, bind_eq_ok_iff, h]
  | not | other => rfl

omit h in
theorem Expr.argsCode_relabel {args : List Expr} (h : ∀ e ∈ args, Agree ((e.relabel r).code target') (e.code target)) :
    Agree (argsCode target' (args.map (relabel r))) (argsCode target args) := by
  induction args with
  | nil => exact .refl _
  | cons e rest ih =>
    simp only [List.forall_mem_cons] at h
    rw [List.map_cons, argsCode, argsCode]
    exact .bind h.1 fun _ => .bind (ih h.2) fun _ => .refl _

theorem Expr.code_relabel (e : Expr) : Agree ((e.relabel r).code target') (e.code target) := by
  induction e with
  | number | string | boolean => exact .refl _
  | var line name => exact .bind_lift (Target.find_relabel h name) fun _ => .refl _
  | arithmetic line op a b iha ihb =>
    have htype := Target.typeOf_relabel h (arithmetic line op a b)
    rw [relabel] at htype ⊢
    rw [code, code]
    refine .bind (.lift htype) fun type => .bind iha fun left => .bind ihb fun right => ?_
    split
    · exact .bind (.lift (Target.typeOf_relabel h a)) fun _ =>
        .bind (.lift (Target.typeOf_relabel h b)) fun _ => .refl _
    · exact .refl _
  | logical line op a b iha ihb =>
    rw [relabel, code, code]
    exact .bind iha fun _ => .bind ihb fun _ => .refl _
  | relational line op a b iha ihb =>
    rw [relabel, code, code]
    refine .bind (.lift (Target.typeOf_relabel h a)) fun _ => .bind (.lift (Target.typeOf_relabel h b)) fun _ => ?_
    exact .bind iha fun _ => .bind ihb fun _ => .refl _
  | unary line op e ih =>
    have htype := Target.typeOf_relabel h (unary line op e)
    rw [relabel] at htype ⊢
    rw [code, code]
    exact .bind ih fun _ => .bind (.lift (UnaryOp.code_congr htype)) fun _ => .refl _
  | call line callee args ih =>
    rw [relabel, relabelAll_eq_map, code, code, List.length_map]
    exact .bind (argsCode_relabel ih) fun _ => .refl _
  | foreign | absent => exact .refl _

/-! ### Statements -/

theorem Symbol.assignCode_relabel (s : Symbol) (e : Expr) :
    Agree ((s.relabel r).assignCode target' (e.relabel r)) (s.assignCode target e) := by
  have himmediate : (e.relabel r).immediate? = e.immediate? := by cases e <;> rfl
  rw [assignCode, assignCode, himmediate]
  cases e.immediate? with
  | some n => exact .refl _
  | none => exact .bind (e.code_relabel h) fun _ => .refl _

theorem DeclItem.code_relabel (item : DeclItem) : Agree ((item.relabel r).code target') (item.code target) := by
  obtain ⟨x, init⟩ := item
  cases init with
  | none => exact .refl _
  | some e => exact .bind_lift (Target.find_relabel h x.name) fun s => s.assignCode_relabel h e

theorem DeclItem.codes_relabel (items : List DeclItem) :
    Agree (codes target' (items.map (relabel r))) (codes target items) := by
  induction items with
  | nil => exact .refl _
  | cons item rest ih => exact .bind (item.code_relabel h) fun _ => .bind ih fun _ => .refl _

theorem Expr.printCode_relabel (e : Expr) : Agree ((e.relabel r).printCode target') (e.printCode target) := by
  cases e with
  | string => exact .refl _
  | _ => exact .bind (code_relabel h _) fun _ => .refl _

omit h in
theorem Stmt.codes_relabel {body : List Stmt} (h : ∀ s ∈ body, Agree ((s.relabel r).code target') (s.code target)) :
    Agree (codes target' (body.map (relabel r))) (codes target body) := by
  induction body with
  | nil => exact .refl _
  | cons s rest ih =>
    simp only [List.forall_mem_cons] at h
    rw [List.map_cons, codes, codes]
    exact .bind h.1 fun _ => .bind (ih h.2) fun _ => .refl _

theorem Stmt.code_relabel (s : Stmt) : Agree ((s.relabel r).code target') (s.code target) := by
  induction s with
  | declare line type items =>
    rw [relabel, code, code]
    exact DeclItem.codes_relabel h items
  | assign line x e =>
    rw [relabel, code, code]
    exact .bind_lift (Target.find_relabel h x.name) fun s => s.assignCode_relabel h e
  | increment line op x | read line x =>
    rw [relabel, code, code]
    exact .bind_lift (Target.find_relabel h x.name) fun _ => .refl _
  | call line callee args =>
    have hcall := Expr.code_relabel h (.call line callee args)
    rw [Expr.relabel, Expr.relabelAll_eq_map] at hcall
    rw [relabel, code, code]
    exact hcall
  | ifThen line c body ih =>
    rw [relabel, relabelAll_eq_map, code, code]
    exact .bind (.refl _) fun _ => .bind (c.code_relabel h) fun _ => .bind (codes_relabel ih) fun _ => .refl _
  | ifElse line c body other ihb iho =>
    rw [relabel, relabelAll_eq_map, relabelAll_eq_map, code, code]
    refine .bind (.refl _) fun _ => .bind (.refl _) fun _ => .bind (c.code_relabel h) fun _ => ?_
    exact .bind (codes_relabel ihb) fun _ => .bind (codes_relabel iho) fun _ => .refl _
  | whileDo line c body ih =>
    rw [relabel, relabelAll_eq_map, code, code]
    refine .bind (.refl _) fun _ => .bind (.refl _) fun _ => .bind (c.code_relabel h) fun _ => ?_
    exact .bind (codes_relabel ih) fun _ => .refl _
  | forDo line i c s body ihi ihs ih =>
    rw [relabel, relabelAll_eq_map, code, code]
    refine .bind (.refl _) fun _ => .bind (.refl _) fun _ => .bind ihi fun _ => .bind (c.code_relabel h) fun _ => ?_
    exact .bind (codes_relabel ih) fun _ => .bind ihs fun _ => .refl _
  | print line e =>
    rw [relabel, code, code]
    exact e.printCode_relabel h
  | ret line value =>
    cases value with
    | none => exact .refl _
    | some e => exact .bind (e.code_relabel h) fun _ => .refl _
  | foreign | incomplete => exact .refl _

/-! ### Functions and programs -/

theorem Param.spillCodes_relabel (params : List Param) (position : Nat) (code : Listing) :
    spillCodes target' position (params.map (relabel r)) = .ok code ↔
      spillCodes target position params = .ok code := by
  induction params generalizing position code with
  | nil => rfl
  | cons p rest ih =>
    simp only [List.map_cons, spillCodes, bind_eq_ok_iff, ih, relabel, Ident.relabel, Target.find_relabel h]
    constructor
    · rintro ⟨_, ⟨s, hs, rfl⟩, h⟩
      exact ⟨s, hs, h⟩
    · rintro ⟨s, hs, h⟩
      exact ⟨_, ⟨s, hs, rfl⟩, h⟩

end Targets

theorem Function.code_relabel {r : Relabelling} (hr : Function.Injective r.name) {globals globals' : SymbolTable}
    (hg : globals.SameSignatures globals') (align : Bool) (locals : SymbolTable) (f : Function) :
    Agree ((f.relabel r).code align ⟨locals.relabel r, globals'⟩) (f.code align ⟨locals, globals⟩) := by
  have hending : ((f.relabel r).body.getLast?.map Stmt.isReturn).getD false =
      (f.body.getLast?.map Stmt.isReturn).getD false := by
    have hreturn : Stmt.isReturn ∘ Stmt.relabel r = Stmt.isReturn := funext fun s => by cases s <;> rfl
    rw [relabel, List.getLast?_map, Option.map_map, hreturn]
  have hscope := Scope.relabelled_of_locals hr hg locals
  rw [code, code, hending, SymbolTable.frameSize_relabel]
  refine .bind (.lift (Param.spillCodes_relabel hscope f.params 0)) fun _ => ?_
  exact .bind (Stmt.codes_relabel fun s _ => s.code_relabel hscope) fun _ => .refl _

section Programs

variable (line : Int → Int) {ρ : Nat → String → String} (hρ : ∀ i, Function.Injective (ρ i)) (align : Bool)
include hρ

theorem Compilation.codes_relabel (globals : SymbolTable) (cs : List CheckedFunction) :
    Agree (codes align (globals.relabel { line }) (cs.mapIdx fun i c => c.relabel ⟨line, ρ i⟩))
      (codes align globals cs) := by
  induction cs generalizing ρ with
  | nil => exact .refl _
  | cons c rest ih =>
    have hfirst :=
      c.function.code_relabel (r := ⟨line, ρ 0⟩) (hρ 0) (globals.sameSignatures_relabel line) align c.locals
    rw [List.mapIdx_cons, codes, codes]
    exact .bind hfirst fun _ => .bind (ih fun i => hρ (i + 1)) fun _ => .refl _

/-- The listing of an accepted program and the literals in it do not depend on labels. -/
theorem Compilation.generate_relabel {c : Compilation} {out : Listing × List Literal} :
    (c.relabel line ρ).generate align = .ok out ↔ c.generate align = .ok out := by
  have hcodes := codes_relabel line hρ align c.globals c.functions {}
  simp only [Gen.Emits] at hcodes
  simp only [generate, relabel, bind_eq_ok_iff, Prod.exists, hcodes]

/-- The compilation of a program reports the same events with other labels, and comes to the same text or fails
alike. -/
theorem Program.compile_relabel {L : Lexicon} {p : Program} (hw : p.WellFormed L) :
    ((p.relabel line ρ).compile align).1 = (p.compile align).1 ∧
    Alike (∀ i, ρ i = id) id (p.compile align).2 ((p.relabel line ρ).compile align).2 := by
  obtain ⟨hevents, hanalyze⟩ := p.analyze_relabel line hρ
  rcases hp : p.analyze with ⟨events, result⟩
  rcases hq : (p.relabel line ρ).analyze with ⟨events', result'⟩
  rw [hp, hq] at hevents hanalyze
  dsimp only at hevents hanalyze
  subst hevents
  rw [compile, compile, hp, hq]
  rcases hanalyze.cases with ⟨c, rfl, rfl⟩ | ⟨failure, failure', rfl, rfl, h⟩
  · obtain ⟨⟨listing, literals⟩, hg⟩ := Compilation.generate_eq_ok hw (congrArg Prod.snd hp) align
    simp only [hg, (Compilation.generate_relabel line hρ align).2 hg]
    exact ⟨trivial, .ok _⟩
  · exact ⟨rfl, .error h⟩

end Programs

end Arvore
