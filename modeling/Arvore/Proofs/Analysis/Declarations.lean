import Mathlib
import Arvore.Proofs.Analysis.Faultless
import Arvore.Proofs.Analysis.Layout

/-!
# Declarations in the order of the text

The declarations of a function are its parameters and then the items of every declaration statement, whatever block it
stands in, in the order of the text. The table of a well-formed function is made by entering one declaration after the
other (`Function.locals_eq_foldlM`), each initial value being checked before its variable is added.
-/

namespace Arvore

/-- A variable as it is declared, with its initial value if it has one. -/
structure Declaration extends Variable where
  init : Option Expr

/-- A parameter is a declaration without an initial value. -/
def Param.declaration (p : Param) : Declaration := ⟨p.variable, none⟩

/-- The declaration of one item of a declaration statement. -/
def DeclItem.declaration (type : Ty) (item : DeclItem) : Declaration := ⟨item.variable type, item.init⟩

namespace Stmt

mutual

/-- The declarations of a statement and of its blocks at any depth, in the order of the text. -/
def declarations : Stmt → List Declaration
  | declare _ type items => items.map (DeclItem.declaration type)
  | ifThen _ _ body | whileDo _ _ body | forDo _ _ _ _ body => declarationsAll body
  | ifElse _ _ body other => declarationsAll body ++ declarationsAll other
  | assign .. | increment .. | call .. | read .. | print .. | ret .. | foreign .. | incomplete .. => []

/-- The declarations of a block. -/
def declarationsAll : List Stmt → List Declaration
  | [] => []
  | s :: rest => declarations s ++ declarationsAll rest

end

end Stmt

/-- The parameters of a function and then the declarations of its body. -/
def Function.declarations (f : Function) : List Declaration :=
  f.params.map Param.declaration ++ Stmt.declarationsAll f.body

/-! ### Variables -/

theorem Stmt.declarationsAll_eq_flatMap (body : List Stmt) : declarationsAll body = body.flatMap declarations := by
  induction body with
  | nil => rw [declarationsAll, List.flatMap_nil]
  | cons s rest ih => rw [declarationsAll, ih, List.flatMap_cons]

theorem Stmt.map_toVariable_declarations (s : Stmt) :
    s.declarations.map Declaration.toVariable = s.nested.flatMap Stmt.variables := by
  have block {body : List Stmt} (ih : ∀ s ∈ body, s.declarations.map Declaration.toVariable =
      s.nested.flatMap Stmt.variables) : (declarationsAll body).map Declaration.toVariable =
      (nestedAll body).flatMap Stmt.variables := by
    rw [declarationsAll_eq_flatMap, nestedAll_eq_flatMap, List.map_flatMap, List.flatMap_assoc]
    exact List.flatMap_congr ih
  induction s with
  | declare line type items =>
    simp only [declarations, nested, Stmt.variables, List.map_map, List.flatMap_cons, List.flatMap_nil,
      List.append_nil]
    rfl
  | ifThen line c body ih | whileDo line c body ih =>
    simpa only [declarations, nested, List.flatMap_cons, Stmt.variables, List.nil_append] using block ih
  | ifElse line c body other ihb iho =>
    simp only [declarations, nested, List.cons_append, List.flatMap_cons, List.flatMap_append, Stmt.variables,
      List.nil_append, List.map_append, block ihb, block iho]
  | forDo line i c s body _ _ ih =>
    simpa only [declarations, nested, List.flatMap_cons, Stmt.variables, List.nil_append] using block ih
  | _ => simp [declarations, nested, Stmt.variables]

/-- The variables of a function are those of its declarations. -/
theorem Function.map_toVariable_declarations (f : Function) :
    f.declarations.map Declaration.toVariable = f.variables := by
  rw [declarations, Function.variables, List.map_append, List.map_map, Stmt.declarationsAll_eq_flatMap,
    List.map_flatMap, Stmt.nestedAll_eq_flatMap, List.flatMap_assoc]
  exact congrArg (_ ++ ·) (List.flatMap_congr fun s _ => s.map_toVariable_declarations)

/-! ### Well-formed declarations -/

variable {L : Lexicon}

/-- A declaration as it comes out of a program. -/
structure Declaration.WellFormed (L : Lexicon) (d : Declaration) : Prop where
  name : L.name d.name
  type : d.type.isVariable = true
  init : ∀ e, d.init = some e → e.WellFormed L

theorem Stmt.wellFormed_declarations {s : Stmt} (h : s.WellFormed L) : ∀ d ∈ s.declarations, d.WellFormed L := by
  have block {body : List Stmt} (ih : ∀ s ∈ body, ∀ d ∈ s.declarations, d.WellFormed L) :
      ∀ d ∈ declarationsAll body, d.WellFormed L := by
    intro d hd
    rw [declarationsAll_eq_flatMap, List.mem_flatMap] at hd
    obtain ⟨s, hs, hd⟩ := hd
    exact ih s hs d hd
  induction h with
  | declare _ ht _ hi =>
    rw [declarations]
    refine List.forall_mem_map.2 fun item hitem => ?_
    exact ⟨(hi item hitem).target.name, ht, (hi item hitem).init⟩
  | ifThen _ _ _ ih | whileDo _ _ _ ih =>
    rw [declarations]
    exact block ih
  | ifElse _ _ _ _ ihb iho =>
    rw [declarations]
    exact List.forall_mem_append.2 ⟨block ihb, block iho⟩
  | forDo _ _ _ _ _ _ _ ih =>
    rw [declarations]
    exact block ih
  | _ => simp [declarations]

theorem Function.wellFormed_declarations {f : Function} (h : f.WellFormed L) :
    ∀ d ∈ f.declarations, d.WellFormed L := by
  rw [declarations, List.forall_mem_append, Stmt.declarationsAll_eq_flatMap]
  constructor
  · refine List.forall_mem_map.2 fun p hp => ?_
    exact ⟨(h.params p hp).target.name, (h.params p hp).type, nofun⟩
  · intro d hd
    obtain ⟨s, hs, hd⟩ := List.mem_flatMap.1 hd
    exact Stmt.wellFormed_declarations (h.body s hs) d hd

/-! ### The table of a function -/

/-- Checks the initial value of a declaration, then adds its variable. -/
def Declaration.enter (globals locals : SymbolTable) (d : Declaration) : Except Failure SymbolTable := do
  DeclItem.checkInit ⟨locals, globals⟩ d.type ⟨⟨d.line, d.name⟩, d.init⟩
  locals.declare d.toVariable

/-- Going through the statements of a block enters their declarations, if this is so for each of them. -/
theorem Stmt.foldlM_nestedAll {globals : SymbolTable} {body : List Stmt}
    (h : ∀ s ∈ body, ∀ locals, s.nested.foldlM (Stmt.define globals) locals =
      s.declarations.foldlM (Declaration.enter globals) locals) (locals : SymbolTable) :
    (nestedAll body).foldlM (Stmt.define globals) locals =
      (declarationsAll body).foldlM (Declaration.enter globals) locals := by
  induction body generalizing locals with
  | nil =>
    rw [nestedAll, declarationsAll]
    rfl
  | cons s rest ih =>
    rw [List.forall_mem_cons] at h
    rw [nestedAll, declarationsAll, List.foldlM_append, List.foldlM_append, h.1]
    exact congrArg _ (funext (ih h.2))

theorem Stmt.foldlM_nested {s : Stmt} (h : s.WellFormed L) (globals locals : SymbolTable) :
    s.nested.foldlM (Stmt.define globals) locals = s.declarations.foldlM (Declaration.enter globals) locals := by
  induction h generalizing locals with
  | declare =>
    rw [nested, declarations, List.foldlM_map]
    · exact bind_pure _
    all_goals simp
  | ifThen _ _ _ ih | whileDo _ _ _ ih =>
    rw [nested, declarations]
    exact foldlM_nestedAll ih locals
  | ifElse _ _ _ _ ihb iho =>
    rw [nested, declarations, List.foldlM_append, List.foldlM_append, ← foldlM_nestedAll ihb]
    exact congrArg _ (funext (foldlM_nestedAll iho))
  | forDo _ _ _ _ _ _ _ ih =>
    rw [nested, declarations]
    exact foldlM_nestedAll ih locals
  | _ =>
    rw [nested, declarations]
    · rfl
    all_goals simp

/-- The table of a function is made by entering its declarations. -/
theorem Function.locals_eq_foldlM {f : Function} (h : f.WellFormed L) (globals : SymbolTable) :
    f.locals globals = f.declarations.foldlM (Declaration.enter globals) {} := by
  have hparams : f.params.foldlM Param.define {} =
      (f.params.map Param.declaration).foldlM (Declaration.enter globals) {} := by
    rw [List.foldlM_map]
    rfl
  rw [Function.locals, Function.declarations, List.foldlM_append, hparams]
  refine congrArg _ (funext fun params => ?_)
  rw [Function.checkHead, h.flaw]
  exact Stmt.foldlM_nestedAll (fun s hs locals => Stmt.foldlM_nested (h.body s hs) globals locals) params

end Arvore
