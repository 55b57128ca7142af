import Mathlib
import Arvore.Proofs.Analysis.Accepted
import Arvore.Proofs.Code.Total
import Arvore.Proofs.Program.Text
import Arvore.Proofs.Symbol.Steps

/-!
# Types in both phases

An initial value is typed twice: when its variable is declared, with the names that were declared before it, and when
code is generated, with all names of the function. A table keeps what it has while it is filled, so an expression keeps
its type (`SymbolTable.extends_after`), and so do all of its parts. The code of the expression is decided by these types
and by the places of its variables: it is the same in both tables (`Expr.code_extends`).
-/

namespace Arvore

/-- Filling a table further changes nothing that it has. -/
theorem SymbolTable.extends_after (t : SymbolTable) (steps : List Step) : (t.after steps).Extends t := by
  have hafter : t.after steps = ⟨t.entries ++ t.defined steps⟩ := by
    rw [← entries_after]
  rw [hafter]
  exact extends_append t _

/-! ### The parts of an expression -/

namespace Expr

mutual

/-- An expression and all expressions in it. -/
def parts : Expr → List Expr
  | arithmetic l op a b => arithmetic l op a b :: (parts a ++ parts b)
  | logical l op a b => logical l op a b :: (parts a ++ parts b)
  | relational l op a b => relational l op a b :: (parts a ++ parts b)
  | unary l op e => unary l op e :: parts e
  | call l callee args => call l callee args :: partsAll args
  | e => [e]

/-- Some expressions and all expressions in them. -/
def partsAll : List Expr → List Expr
  | [] => []
  | e :: rest => parts e ++ partsAll rest

end

theorem partsAll_eq_flatMap (es : List Expr) : partsAll es = es.flatMap parts := by
  induction es with
  | nil => rw [partsAll, List.flatMap_nil]
  | cons e rest ih => rw [partsAll, ih, List.flatMap_cons]

theorem exists_typeOf_of_forall₂ {scope : Scope} {es : List Expr} {ts : List Ty}
    (h : List.Forall₂ (fun e t => e.typeOf scope = .ok t) es ts) : ∀ e ∈ es, ∃ t, e.typeOf scope = .ok t :=
  forall_mem_of_forall₂ (P := fun _ => True) h.flip (fun _ _ => trivial) fun t _ _ _ he => ⟨t, he⟩

/-- If an expression has a type, so has every part of it. -/
theorem exists_typeOf_part {scope : Scope} {e : Expr} {t : Ty} (h : e.typeOf scope = .ok t) :
    ∀ part ∈ e.parts, ∃ s, part.typeOf scope = .ok s := by
  induction e generalizing t with
  | number | string | boolean | var | foreign | absent =>
    simp only [parts, List.mem_singleton, forall_eq]
    exact ⟨t, h⟩
  | arithmetic line op a b iha ihb | logical line op a b iha ihb | relational line op a b iha ihb =>
    simp only [parts, List.forall_mem_cons, List.forall_mem_append]
    refine ⟨⟨t, h⟩, ?_⟩
    simp only [typeOf, bind_eq_ok_iff] at h
    obtain ⟨ta, ha, tb, hb, -⟩ := h
    exact ⟨iha ha, ihb hb⟩
  | unary line op e ih =>
    simp only [parts, List.forall_mem_cons]
    refine ⟨⟨t, h⟩, ?_⟩
    simp only [typeOf, bind_eq_ok_iff] at h
    obtain ⟨te, he, -⟩ := h
    exact ih he
  | call line callee args ih =>
    simp only [parts, List.forall_mem_cons, partsAll_eq_flatMap]
    refine ⟨⟨t, h⟩, ?_⟩
    simp only [typeOf, bind_eq_ok_iff, typesOf_eq_ok_iff] at h
    obtain ⟨_, -, ts, hts, -⟩ := h
    intro part hpart
    obtain ⟨arg, harg, hpart⟩ := List.mem_flatMap.1 hpart
    obtain ⟨s, hs⟩ := exists_typeOf_of_forall₂ hts arg harg
    exact ih arg harg hs part hpart

/-! ### Code in a growing table -/

section

variable {scope scope' : Scope} {function : String}

theorem argsCode_extends {args : List Expr} (ht : ∀ e ∈ args, ∃ t, e.typeOf scope = .ok t)
    (ih : ∀ e ∈ args, ∀ {t}, e.typeOf scope = .ok t → e.code ⟨function, scope'⟩ = e.code ⟨function, scope⟩) :
    argsCode ⟨function, scope'⟩ args = argsCode ⟨function, scope⟩ args := by
  induction args with
  | nil => rw [argsCode, argsCode]
  | cons e rest ihrest =>
    rw [List.forall_mem_cons] at ht ih
    obtain ⟨t, he⟩ := ht.1
    rw [argsCode, argsCode, ih.1 he, ihrest ht.2 ih.2]

/-- An expression that has a type keeps its code when more variables are declared. -/
theorem code_extends (hs : scope'.Extends scope) {e : Expr} {t : Ty} (h : e.typeOf scope = .ok t) :
    e.code ⟨function, scope'⟩ = e.code ⟨function, scope⟩ := by
  have htype {e : Expr} {t : Ty} (he : e.typeOf scope = .ok t) :
      Target.typeOf ⟨function, scope'⟩ e = Target.typeOf ⟨function, scope⟩ e :=
    (Target.typeOf_eq_ok_iff.2 (typeOf_extends hs he)).trans (Target.typeOf_eq_ok_iff.2 he).symm
  induction e generalizing t with
  | number line text | string line text | boolean line word => rw [code, code]
  | var line name =>
    simp only [typeOf, bind_eq_ok_iff] at h
    obtain ⟨s, hv, -⟩ := h
    have hfound := Scope.findVariable_eq_ok_iff.1 hv
    have hplain : Target.find ⟨function, scope⟩ name = .ok s :=
      Target.find_eq_ok_iff.2 hfound
    have hextended : Target.find ⟨function, scope'⟩ name = .ok s :=
      Target.find_eq_ok_iff.2 (hs.locals _ _ hfound)
    rw [code, code, hplain, hextended]
  | arithmetic line op a b iha ihb =>
    have hwhole := htype h
    simp only [typeOf, bind_eq_ok_iff] at h
    obtain ⟨ta, ha, tb, hb, -⟩ := h
    rw [code, code, hwhole, iha ha, ihb hb, htype ha, htype hb]
  | logical line op a b iha ihb =>
    simp only [typeOf, bind_eq_ok_iff] at h
    obtain ⟨ta, ha, tb, hb, -⟩ := h
    rw [code, code, iha ha, ihb hb]
  | relational line op a b iha ihb =>
    simp only [typeOf, bind_eq_ok_iff] at h
    obtain ⟨ta, ha, tb, hb, -⟩ := h
    rw [code, code, iha ha, ihb hb, htype ha, htype hb]
  | unary line op e ih =>
    have hwhole := htype h
    simp only [typeOf, bind_eq_ok_iff] at h
    obtain ⟨te, he, -⟩ := h
    rw [code, code, hwhole, ih he]
  | call line callee args ih =>
    simp only [typeOf, bind_eq_ok_iff, typesOf_eq_ok_iff] at h
    obtain ⟨_, -, ts, hts, -⟩ := h
    rw [code, code, argsCode_extends (exists_typeOf_of_forall₂ hts) ih]
  | foreign line kind | absent =>
    rw [typeOf] at h
    cases h

end

end Expr

/-! ### Initial values -/

/-- Entering a declaration checks its initial value and takes one step. -/
theorem Declaration.next_of_enter {globals t t' : SymbolTable} {d : Declaration} (h : d.enter globals t = .ok t') :
    (∀ e, d.init = some e → e.typeOf ⟨t, globals⟩ = .ok d.type) ∧ t.declare d.toVariable = .ok t' ∧
      t.next (.declare d.toVariable) = t' := by
  obtain ⟨_, hcheck, hdeclare⟩ := bind_eq_ok_iff.1 h
  refine ⟨DeclItem.checkInit_eq_ok hcheck, hdeclare, ?_⟩
  obtain ⟨⟨s, t''⟩, hvariable, ht''⟩ := bind_eq_ok_iff.1 hdeclare
  cases ht''
  rw [SymbolTable.next, SymbolTable.perform, hvariable]

/-- Entering declarations takes one step for each. -/
theorem Declaration.after_of_foldlM_enter {globals t t' : SymbolTable} {ds : List Declaration}
    (h : ds.foldlM (Declaration.enter globals) t = .ok t') :
    t' = t.after (ds.map fun d => .declare d.toVariable) := by
  induction ds generalizing t with
  | nil =>
    cases h
    rfl
  | cons d rest ih =>
    rw [List.foldlM_cons, bind_eq_ok_iff] at h
    obtain ⟨u, hu, h⟩ := h
    rw [ih h, List.map_cons, SymbolTable.after, SymbolTable.after, List.foldl_cons, (next_of_enter hu).2.2]

/-- An initial value as it is declared, with the names `soFar`, and as its code is generated, with all names `whole`. -/
structure Expr.TypedAlike (function : String) (globals soFar whole : SymbolTable) (e : Expr) (type : Ty) : Prop where
  declared : e.typeOf ⟨soFar, globals⟩ = .ok type
  generated : Target.typeOf ⟨function, ⟨whole, globals⟩⟩ e = .ok type
  /-- The types of its parts, by which integer and real instructions are chosen, are those of the declaration. -/
  parts : ∀ part ∈ e.parts, ∃ t, part.typeOf ⟨soFar, globals⟩ = .ok t ∧
    Target.typeOf ⟨function, ⟨whole, globals⟩⟩ part = .ok t
  code : e.code ⟨function, ⟨whole, globals⟩⟩ = e.code ⟨function, ⟨soFar, globals⟩⟩

/-- Steps that fill the table further change nothing for an expression that has a type. -/
theorem Expr.typedAlike_after {globals t : SymbolTable} {e : Expr} {type : Ty}
    (h : e.typeOf ⟨t, globals⟩ = .ok type) (function : String) (steps : List SymbolTable.Step) :
    e.TypedAlike function globals t (t.after steps) type := by
  have hs : Scope.Extends ⟨t.after steps, globals⟩ ⟨t, globals⟩ := ⟨t.extends_after steps, rfl⟩
  refine ⟨h, Target.typeOf_eq_ok_iff.2 (typeOf_extends hs h), fun part hpart => ?_, code_extends hs h⟩
  obtain ⟨s, hpart⟩ := exists_typeOf_part h part hpart
  exact ⟨s, hpart, Target.typeOf_eq_ok_iff.2 (typeOf_extends hs hpart)⟩

/-- An expression keeps its type while the table of local names is filled. So the initial values of an accepted program
have the types in the code that they had when their variables were declared, with the names declared before them. -/
theorem Compilation.phases_agree_on_types :
    (∀ (e : Expr) (globals locals : SymbolTable) (steps : List SymbolTable.Step) (t : Ty),
      e.typeOf ⟨locals, globals⟩ = .ok t → e.typeOf ⟨locals.after steps, globals⟩ = .ok t) ∧
    ∀ (text : List Char) (p : Program) (c : Compilation), Program.load text = .ok p → p.analyze.2 = .ok c →
      ∀ cf ∈ c.functions, cf.function.declarations.foldlM (Declaration.enter c.globals) {} = .ok cf.locals ∧
        ∀ (before after : List Declaration) (d : Declaration) (e : Expr),
          cf.function.declarations = before ++ d :: after → d.init = some e →
            ∃ soFar, before.foldlM (Declaration.enter c.globals) {} = .ok soFar ∧
              SymbolTable.Declared (before.map Declaration.toVariable) soFar ∧
              e.TypedAlike cf.function.name c.globals soFar cf.locals d.type := by
  constructor
  · intro e globals locals steps t h
    exact Target.typeOf_eq_ok_iff.1 (e.typedAlike_after h "" steps).generated
  · intro text p c hload hanalyze cf hm
    obtain ⟨hmem, ha⟩ := Program.analyze_of_mem hanalyze hm
    have hlocals := (Function.analyze_eq_ok ha).2.1
    rw [Function.locals_eq_foldlM ((Program.wellFormed_of_load hload).functions _ hmem)] at hlocals
    refine ⟨hlocals, fun before after d e hsplit hinit => ?_⟩
    rw [hsplit, List.foldlM_append, bind_eq_ok_iff] at hlocals
    obtain ⟨soFar, hbefore, hrest⟩ := hlocals
    refine ⟨soFar, hbefore, ?_, ?_⟩
    · have hdeclare (d : Declaration) (t t' : SymbolTable) (h : d.enter c.globals t = .ok t') :
          t.declare d.toVariable = .ok t' := (Declaration.next_of_enter h).2.1
      exact SymbolTable.Declared.foldlM_map hdeclare .nil hbefore
    · rw [Declaration.after_of_foldlM_enter hrest]
      rw [List.foldlM_cons, bind_eq_ok_iff] at hrest
      obtain ⟨_, hd, -⟩ := hrest
      exact e.typedAlike_after ((Declaration.next_of_enter hd).1 e hinit) _ _

/-- A comparison of an integer with a real, before another variable is declared in a block. -/
def mixedInitial : List Char :=
  "(program (func f real [(param real x) (param inteiro n)]
    [(decl logico (init b (relational \"<\" n x))) (if b [(decl inteiro m)]) (return x)]))".toList

theorem mixedInitial_typed_alike : ∃ p c cf vs soFar e, Program.load mixedInitial = .ok p ∧ p.analyze.2 = .ok c ∧
    c.functions = [cf] ∧ cf.function.declarations.map (fun d => d.name) = ["x", "n", "b", "m"] ∧
    vs.map Variable.name = ["x", "n"] ∧ SymbolTable.Declared vs soFar ∧
    Expr.TypedAlike cf.function.name c.globals soFar cf.locals e .logical := by
  obtain ⟨p, hp, hrun⟩ : ∃ p, Program.load mixedInitial = .ok p ∧ p.analyze.2.toOption.map
      (fun c => c.functions.map fun cf => cf.function.declarations.map fun d => (d.name, d.type, d.init.isSome)) =
        some [[("x", .real, false), ("n", .integer, false), ("b", .logical, true), ("m", .integer, false)]] := by
    apply exists_of_literal
    decide +kernel
  obtain ⟨c, hc, hrun⟩ := map_toOption_eq_some_iff.1 hrun
  obtain ⟨cf, _, hfunctions, hcf, hnil⟩ := List.map_eq_cons_iff.1 hrun
  obtain rfl := List.map_eq_nil_iff.1 hnil
  simp only [Prod.mk.injEq, List.map_eq_cons_iff, List.map_eq_nil_iff, Option.isSome_iff_exists] at hcf
  obtain ⟨x, _, hds, ⟨hx, -⟩, n, _, rfl, ⟨hn, -⟩, b, _, rfl, ⟨hname, hb, e, he⟩, m, _, rfl, ⟨hlast, -⟩, rfl⟩ := hcf
  have hm : cf ∈ c.functions := hfunctions ▸ List.mem_singleton_self cf
  obtain ⟨-, hall⟩ := Compilation.phases_agree_on_types.2 _ p c hp hc cf hm
  obtain ⟨soFar, -, hdeclared, h⟩ := hall [x, n] [m] b e hds he
  refine ⟨p, c, cf, _, soFar, e, hp, hc, hfunctions, ?_, ?_, hdeclared, hb ▸ h⟩
  · rw [hds, ← hx, ← hn, ← hname, ← hlast]
    rfl
  · rw [← hx, ← hn]
    rfl

end Arvore
