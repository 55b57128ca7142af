import Mathlib
import Arvore.Proofs.Analysis.Names

/-!
# Other lines and other names

A relabelling gives other lines to the parts of a program and other names to its variables. The names of functions stay,
where they are defined and where they are called. What a function becomes depends on the new names of the variables in
it only (`Function.relabel_congr`), so names that stay distinct there may be taken from names that stay distinct
everywhere (`exists_injective_extension`).
-/

namespace Arvore

/-- Other lines, and other names for variables. -/
structure Relabelling where
  line : Int → Int := id
  name : String → String := id

/-- A variable where it is used. -/
def Ident.relabel (r : Relabelling) (x : Ident) : Ident := ⟨r.line x.line, r.name x.name⟩

namespace Expr

mutual

/-- An expression with other labels. -/
def relabel (r : Relabelling) : Expr → Expr
  | number l text => number (r.line l) text
  | string l text => string (r.line l) text
  | boolean l word => boolean (r.line l) word
  | var l name => var (r.line l) (r.name name)
  | arithmetic l op a b => arithmetic (r.line l) op (relabel r a) (relabel r b)
  | logical l op a b => logical (r.line l) op (relabel r a) (relabel r b)
  | relational l op a b => relational (r.line l) op (relabel r a) (relabel r b)
  | unary l op e => unary (r.line l) op (relabel r e)
  | call l callee args => call (r.line l) ⟨r.line callee.line, callee.name⟩ (relabelAll r args)
  | foreign l kind => foreign (r.line l) kind
  | absent => absent

/-- Several expressions with other labels. -/
def relabelAll (r : Relabelling) : List Expr → List Expr
  | [] => []
  | e :: rest => relabel r e :: relabelAll r rest

end

@[simp] theorem relabelAll_eq_map (r : Relabelling) (es : List Expr) : relabelAll r es = es.map (relabel r) := by
  induction es with
  | nil => rfl
  | cons e rest ih => rw [relabelAll, ih, List.map_cons]

end Expr

/-- An item of a declaration with other labels. -/
def DeclItem.relabel (r : Relabelling) (item : DeclItem) : DeclItem :=
  ⟨item.target.relabel r, item.init.map (Expr.relabel r)⟩

namespace Stmt

mutual

/-- A statement with other labels. -/
def relabel (r : Relabelling) : Stmt → Stmt
  | declare l type items => declare (r.line l) type (items.map (DeclItem.relabel r))
  | assign l x e => assign (r.line l) (x.relabel r) (e.relabel r)
  | increment l op x => increment (r.line l) op (x.relabel r)
  | call l callee args => call (r.line l) ⟨r.line callee.line, callee.name⟩ (args.map (Expr.relabel r))
  | ifThen l c body => ifThen (r.line l) (c.relabel r) (relabelAll r body)
  | ifElse l c body other => ifElse (r.line l) (c.relabel r) (relabelAll r body) (relabelAll r other)
  | whileDo l c body => whileDo (r.line l) (c.relabel r) (relabelAll r body)
  | forDo l i c s body => forDo (r.line l) (relabel r i) (c.relabel r) (relabel r s) (relabelAll r body)
  | read l x => read (r.line l) (x.relabel r)
  | print l e => print (r.line l) (e.relabel r)
  | ret l e => ret (r.line l) (e.map (Expr.relabel r))
  | foreign l kind => foreign (r.line l) kind
  | incomplete l kind => incomplete (r.line l) kind

/-- The statements of a block with other labels. -/
def relabelAll (r : Relabelling) : List Stmt → List Stmt
  | [] => []
  | s :: rest => relabel r s :: relabelAll r rest

end

@[simp] theorem relabelAll_eq_map (r : Relabelling) (body : List Stmt) :
    relabelAll r body = body.map (relabel r) := by
  induction body with
  | nil => rfl
  | cons s rest ih => rw [relabelAll, ih, List.map_cons]

end Stmt

/-- A parameter with other labels. -/
def Param.relabel (r : Relabelling) (p : Param) : Param := ⟨r.line p.line, p.type, p.target.relabel r⟩

/-- A function with other labels, under its own name. -/
def Function.relabel (r : Relabelling) (f : Function) : Function :=
  { f with line := r.line f.line, params := f.params.map (Param.relabel r), body := f.body.map (Stmt.relabel r) }

/-- A program with other lines, and with other names in every function, which may differ from function to function. -/
def Program.relabel (line : Int → Int) (ρ : Nat → String → String) (p : Program) : Program :=
  ⟨line p.line, p.functions.mapIdx fun i f => f.relabel ⟨line, ρ i⟩⟩

attribute [local simp] Ident.relabel Expr.relabel Stmt.relabel

/-! ### The names that count -/

section Congr

variable {r s : Relabelling} (hline : r.line = s.line)
include hline

theorem Ident.relabel_congr {x : Ident} (h : r.name x.name = s.name x.name) : x.relabel r = x.relabel s := by
  rw [relabel, relabel, hline, h]

theorem Expr.relabel_congr {e : Expr} (h : ∀ x ∈ e.names, r.name x = s.name x) : e.relabel r = e.relabel s := by
  induction e with
  | number | string | boolean | foreign | absent => simp only [relabel, hline]
  | var line name => simp only [relabel, hline, h name (by simp [names])]
  | arithmetic line op a b iha ihb | logical line op a b iha ihb | relational line op a b iha ihb =>
    rw [names, List.forall_mem_append] at h
    simp only [relabel, hline, iha h.1, ihb h.2]
  | unary line op e ih =>
    rw [names] at h
    simp only [relabel, hline, ih h]
  | call line callee args ih =>
    rw [names, namesAll_eq_flatMap, List.forall_mem_flatMap] at h
    simp only [relabel, hline, relabelAll_eq_map, List.map_congr_left fun e he => ih e he (h e he)]

theorem Expr.map_relabel_congr {value : Option Expr} (h : ∀ x ∈ (value.map names).getD [], r.name x = s.name x) :
    value.map (relabel r) = value.map (relabel s) := by
  cases value with
  | none => rfl
  | some e => exact congrArg some (relabel_congr hline h)

theorem DeclItem.relabel_congr {item : DeclItem} (h : ∀ x ∈ item.names, r.name x = s.name x) :
    item.relabel r = item.relabel s := by
  rw [names, List.forall_mem_cons] at h
  rw [relabel, relabel, Ident.relabel_congr hline h.1, Expr.map_relabel_congr hline h.2]

theorem Stmt.relabel_congr {t : Stmt} (h : ∀ x ∈ t.names, r.name x = s.name x) : t.relabel r = t.relabel s := by
  have block {body : List Stmt} (h : ∀ x ∈ namesAll body, r.name x = s.name x)
      (ih : ∀ t ∈ body, (∀ x ∈ t.names, r.name x = s.name x) → t.relabel r = t.relabel s) :
      relabelAll r body = relabelAll s body := by
    rw [namesAll_eq_flatMap, List.forall_mem_flatMap] at h
    rw [relabelAll_eq_map, relabelAll_eq_map]
    exact List.map_congr_left fun t ht => ih t ht (h t ht)
  induction t with
  | declare line type items =>
    rw [names, List.forall_mem_flatMap] at h
    simp only [relabel, hline, List.map_congr_left fun item hi => DeclItem.relabel_congr hline (h item hi)]
  | assign line x e =>
    rw [names, List.forall_mem_cons] at h
    simp only [relabel, hline, Ident.relabel_congr hline h.1, Expr.relabel_congr hline h.2]
  | increment line op x | read line x =>
    rw [names, List.forall_mem_singleton] at h
    simp only [relabel, hline, Ident.relabel_congr hline h]
  | call line callee args =>
    rw [names, List.forall_mem_flatMap] at h
    simp only [relabel, hline, List.map_congr_left fun e he => Expr.relabel_congr hline (h e he)]
  | ifThen line c body ih | whileDo line c body ih =>
    rw [names, List.forall_mem_append] at h
    simp only [relabel, hline, Expr.relabel_congr hline h.1, block h.2 ih]
  | ifElse line c body other ihb iho =>
    rw [names, List.forall_mem_append, List.forall_mem_append] at h
    simp only [relabel, hline, Expr.relabel_congr hline h.1, block h.2.1 ihb, block h.2.2 iho]
  | forDo line i c t body ihi iht ih =>
    rw [names, List.forall_mem_append, List.forall_mem_append, List.forall_mem_append] at h
    simp only [relabel, hline, ihi h.1, Expr.relabel_congr hline h.2.1, iht h.2.2.1, block h.2.2.2 ih]
  | print line e =>
    rw [names] at h
    simp only [relabel, hline, Expr.relabel_congr hline h]
  | ret line value =>
    rw [names] at h
    simp only [relabel, hline, Expr.map_relabel_congr hline h]
  | foreign | incomplete => simp only [relabel, hline]

/-- A function depends on the new names of its own variables only. -/
theorem Function.relabel_congr {f : Function} (h : ∀ x ∈ f.names, r.name x = s.name x) :
    f.relabel r = f.relabel s := by
  rw [names, List.forall_mem_append, List.forall_mem_map, List.forall_mem_flatMap] at h
  have hparams : f.params.map (Param.relabel r) = f.params.map (Param.relabel s) := by
    refine List.map_congr_left fun p hp => ?_
    rw [Param.relabel, Param.relabel, hline, Ident.relabel_congr hline (h.1 p hp)]
  have hbody : f.body.map (Stmt.relabel r) = f.body.map (Stmt.relabel s) :=
    List.map_congr_left fun t ht => Stmt.relabel_congr hline (h.2 t ht)
  rw [relabel, relabel, hline, hparams, hbody]

end Congr

/-! ### The same labels -/

/-- A list whose members stay as they are stays as it is. -/
private theorem map_eq_self {α : Type} {f : α → α} {xs : List α} (h : ∀ x ∈ xs, f x = x) : xs.map f = xs :=
  (List.map_congr_left h).trans (List.map_id xs)

theorem Expr.relabel_self (e : Expr) : e.relabel {} = e := by
  induction e with
  | call line callee args ih => simp [map_eq_self ih]
  | _ => simp_all

theorem DeclItem.relabel_self (item : DeclItem) : item.relabel {} = item := by
  obtain ⟨target, init⟩ := item
  cases init <;> simp [relabel, Expr.relabel_self]

theorem Stmt.relabel_self (s : Stmt) : s.relabel {} = s := by
  induction s with
  | declare line type items => simp [map_eq_self fun item _ => DeclItem.relabel_self item]
  | call line callee args => simp [map_eq_self fun e _ => Expr.relabel_self e]
  | ifThen line c body ih | whileDo line c body ih => simp [Expr.relabel_self, map_eq_self ih]
  | ifElse line c body other ihb iho => simp [Expr.relabel_self, map_eq_self ihb, map_eq_self iho]
  | forDo line i c s body ihi ihs ih => simp [Expr.relabel_self, ihi, ihs, map_eq_self ih]
  | ret line value => cases value <;> simp [Expr.relabel_self]
  | _ => simp [Expr.relabel_self]

/-- A function that keeps its labels. -/
theorem Function.relabel_self (f : Function) : f.relabel {} = f := by
  have hparams : f.params.map (Param.relabel {}) = f.params := map_eq_self fun p _ => rfl
  have hbody : f.body.map (Stmt.relabel {}) = f.body := map_eq_self fun s _ => Stmt.relabel_self s
  rw [relabel, hparams, hbody]
  rfl

/-! ### Names that stay distinct -/

/-- New names that are distinct for some names can be chosen such that they are distinct for all: the others are made
longer than all of these. -/
theorem exists_injective_extension {ρ : String → String} {names : List String}
    (h : Set.InjOn ρ {x | x ∈ names}) : ∃ σ : String → String, Function.Injective σ ∧ ∀ x ∈ names, σ x = ρ x := by
  let longest := (names.map fun x => (ρ x).toList.length).sum
  have hlongest : ∀ x ∈ names, (ρ x).toList.length ≤ longest := fun x hx =>
    List.le_sum_of_mem (List.mem_map_of_mem hx)
  let pad (x : String) : String := String.ofList (List.replicate (longest + 1) '_' ++ x.toList)
  have hpad : ∀ x ∈ names, ∀ y, ρ x ≠ pad y := by
    intro x hx y heq
    have hlength := hlongest x hx
    rw [heq] at hlength
    simp only [pad, String.toList_ofList, List.length_append, List.length_replicate] at hlength
    omega
  refine ⟨fun x => if x ∈ names then ρ x else pad x, ?_, fun x hx => if_pos hx⟩
  intro x y heq
  dsimp only at heq
  by_cases hx : x ∈ names <;> by_cases hy : y ∈ names
  · rw [if_pos hx, if_pos hy] at heq
    exact h hx hy heq
  · rw [if_pos hx, if_neg hy] at heq
    exact absurd heq (hpad x hx y)
  · rw [if_neg hx, if_pos hy] at heq
    exact absurd heq.symm (hpad y hy x)
  · rw [if_neg hx, if_neg hy] at heq
    have hlist := congrArg String.toList heq
    simp only [pad, String.toList_ofList, List.append_cancel_left_eq] at hlist
    exact String.toList_injective hlist

end Arvore
