import Mathlib
import Arvore.Analysis.Tables
import Arvore.Proofs.Induction
import Arvore.Proofs.Sequence

/-!
# Growing tables

The table of a function is made by declaring one variable after the other. A table only ever grows: what has been
found under a name is found there for good. So an expression that has a type in a table keeps it in every later one,
and what was checked while the table was made still holds in the complete table.
-/

namespace Arvore

namespace SymbolTable

theorem lookup_eq_ok_iff {t : SymbolTable} {name : String} {s : Symbol} :
    t.lookup name = .ok s ↔ t.find? name = some s := by
  rw [lookup]
  cases t.find? name <;> simp

theorem define_eq_ok_iff {t t' : SymbolTable} {name : String} {s : Symbol} :
    t.define name s = .ok t' ↔ t.find? name = none ∧ t' = ⟨t.entries ++ [(name, s)]⟩ := by
  rw [define]
  cases t.find? name <;> simp [eq_comm]

theorem find?_eq_none_iff {t : SymbolTable} {name : String} :
    t.find? name = none ↔ name ∉ t.entries.map Prod.fst := by
  rw [find?, List.lookup_eq_none_iff, List.mem_map, not_exists]
  refine forall_congr' fun entry => ?_
  rw [not_and, bne_iff_ne, ne_comm]

/-- Whatever `t` knows, `t'` knows too. -/
def Extends (t' t : SymbolTable) : Prop := ∀ name s, t.find? name = some s → t'.find? name = some s

theorem Extends.refl (t : SymbolTable) : t.Extends t := fun _ _ h => h

theorem Extends.trans {a b c : SymbolTable} (h : c.Extends b) (h' : b.Extends a) : c.Extends a :=
  fun name s hs => h name s (h' name s hs)

theorem extends_append (t : SymbolTable) (more : List (String × Symbol)) :
    Extends ⟨t.entries ++ more⟩ t := by
  intro name s h
  rw [find?] at h ⊢
  rw [List.lookup_append, h]
  rfl

theorem find?_append_self {t : SymbolTable} {name : String} {s : Symbol} (h : t.find? name = none) :
    SymbolTable.find? ⟨t.entries ++ [(name, s)]⟩ name = some s := by
  rw [find?] at h ⊢
  rw [List.lookup_append, h]
  simp

end SymbolTable

/-! ### Declaring variables -/

/-- A variable as it is declared. -/
structure Variable where
  name : String
  type : Ty
  line : Int

/-- The symbol of a variable at a place of the frame. -/
def Variable.symbol (v : Variable) (offset : Int) : Symbol :=
  { name := v.name, type := v.type, line := v.line, offset, placed := true }

/-- The variable that a parameter declares. -/
def Param.variable (p : Param) : Variable := ⟨p.target.name, p.type, p.line⟩

/-- The variable that an item of a declaration declares. -/
def DeclItem.variable (type : Ty) (item : DeclItem) : Variable := ⟨item.target.name, type, item.target.line⟩

namespace SymbolTable

/-- Adds a variable at the next free place. -/
def declare (t : SymbolTable) (v : Variable) : Except Failure SymbolTable := do
  return (← t.defineVariable v.name v.type v.line).2

theorem declare_eq_ok_iff {t t' : SymbolTable} {v : Variable} :
    t.declare v = .ok t' ↔ ∃ size, v.type.size? = some size ∧ t.find? v.name = none ∧
      t' = ⟨t.entries ++ [(v.name, v.symbol (wrap (lowest t.symbols - size)))]⟩ := by
  simp only [declare, defineVariable, bind_eq_ok_iff, mapError_eq_ok_iff, define_eq_ok_iff, nextOffset]
  constructor
  · rintro ⟨_, ⟨offset, ho, _, ⟨hn, rfl⟩, h⟩, h'⟩
    cases h
    cases h'
    split at ho
    · rename_i size hs
      cases ho
      exact ⟨size, hs, hn, rfl⟩
    · cases ho
  · rintro ⟨size, hs, hn, rfl⟩
    exact ⟨_, ⟨_, by rw [hs], _, ⟨hn, rfl⟩, rfl⟩, rfl⟩

theorem extends_of_declare {t t' : SymbolTable} {v : Variable} (h : t.declare v = .ok t') : t'.Extends t := by
  obtain ⟨_, _, _, rfl⟩ := declare_eq_ok_iff.1 h
  exact extends_append _ _

/-- A variable that has been declared is found. -/
theorem find?_of_declare {t t' : SymbolTable} {v : Variable} (h : t.declare v = .ok t') :
    ∃ s, t'.find? v.name = some s ∧ s.type = v.type := by
  obtain ⟨_, _, hn, rfl⟩ := declare_eq_ok_iff.1 h
  exact ⟨_, find?_append_self hn, rfl⟩

/-- What a table holds after a declaration was there before, or is what was declared. -/
theorem find?_declare_cases {t t' : SymbolTable} {v : Variable} {name : String} {s : Symbol}
    (h : t.declare v = .ok t') (hs : t'.find? name = some s) :
    t.find? name = some s ∨ name = v.name ∧ ∃ offset, s = v.symbol offset := by
  obtain ⟨size, -, -, rfl⟩ := declare_eq_ok_iff.1 h
  simp only [find?, List.lookup_append, Option.or_eq_some_iff, List.lookup_cons, List.lookup_nil] at hs
  rcases hs with hs | ⟨-, hs⟩
  · exact .inl hs
  · split at hs
    · rename_i hn
      cases hs
      exact .inr ⟨by simpa using hn, _, rfl⟩
    · cases hs

theorem declare_faultless {t : SymbolTable} {v : Variable} (h : v.type.isVariable = true) :
    Faultless (t.declare v) := by
  obtain ⟨size, hs⟩ := Option.isSome_iff_exists.1 ((Ty.isVariable_iff_size?_isSome _).1 h)
  refine Faultless.bind (Faultless.bind ?_ fun offset _ => Faultless.bind ?_ fun _ _ => .ok _) fun _ _ => .ok _
  · rw [nextOffset, hs]
    exact .ok _
  · exact .mapError fun d => ⟨d, rfl⟩

end SymbolTable

/-! ### Types in a growing table -/

/-- What can be referred to in `scope'` is at least what can be referred to in `scope`. -/
structure Scope.Extends (scope' scope : Scope) : Prop where
  locals : scope'.locals.Extends scope.locals
  globals : scope'.globals = scope.globals

theorem Scope.findVariable_eq_ok_iff {scope : Scope} {x : Ident} {s : Symbol} :
    scope.findVariable x = .ok s ↔ scope.locals.find? x.name = some s := by
  rw [findVariable, mapError_eq_ok_iff, SymbolTable.lookup_eq_ok_iff]

theorem Scope.findFunction_eq_ok_iff {scope : Scope} {x : Ident} {s : Symbol} :
    scope.findFunction x = .ok s ↔ scope.globals.find? x.name = some s := by
  rw [findFunction, mapError_eq_ok_iff, SymbolTable.lookup_eq_ok_iff]

theorem Scope.findVariable_faultless (scope : Scope) (x : Ident) : Faultless (scope.findVariable x) :=
  .mapError fun d => ⟨d.atLine x.line, rfl⟩

theorem Scope.findFunction_faultless (scope : Scope) (x : Ident) : Faultless (scope.findFunction x) :=
  .mapError fun d => ⟨d.atLine x.line, rfl⟩

namespace Expr

theorem typesOf_eq_ok_iff {scope : Scope} {es : List Expr} {ts : List Ty} :
    typesOf scope es = .ok ts ↔ List.Forall₂ (fun e t => e.typeOf scope = .ok t) es ts := by
  induction es generalizing ts with
  | nil => simp [typesOf, eq_comm]
  | cons e rest ih =>
    rw [typesOf, bind_eq_ok_iff, List.forall₂_cons_left_iff]
    constructor
    · rintro ⟨t, ht, h⟩
      obtain ⟨others, ho, h⟩ := bind_eq_ok_iff.1 h
      cases h
      exact ⟨t, others, ht, ih.1 ho, rfl⟩
    · rintro ⟨t, others, ht, ho, rfl⟩
      exact ⟨t, ht, bind_eq_ok_iff.2 ⟨others, ih.2 ho, rfl⟩⟩

/-- An expression keeps its type when more variables are declared. -/
theorem typeOf_extends {scope scope' : Scope} {e : Expr} {t : Ty} (hs : scope'.Extends scope)
    (h : e.typeOf scope = .ok t) : e.typeOf scope' = .ok t := by
  induction e generalizing t with
  | number line text | string line text | boolean line word => rwa [typeOf] at h ⊢
  | var line name =>
    rw [typeOf, bind_eq_ok_iff] at h ⊢
    obtain ⟨s, hv, ht⟩ := h
    refine ⟨s, Scope.findVariable_eq_ok_iff.2 ?_, ht⟩
    exact hs.locals _ _ (Scope.findVariable_eq_ok_iff.1 hv)
  | arithmetic line op a b iha ihb | logical line op a b iha ihb | relational line op a b iha ihb =>
    simp only [typeOf, bind_eq_ok_iff] at h ⊢
    obtain ⟨ta, ha, tb, hb, h⟩ := h
    exact ⟨ta, iha ha, tb, ihb hb, h⟩
  | unary line op e ih =>
    simp only [typeOf, bind_eq_ok_iff] at h ⊢
    obtain ⟨te, he, h⟩ := h
    exact ⟨te, ih he, h⟩
  | call line callee args ih =>
    simp only [typeOf, bind_eq_ok_iff, Scope.findFunction_eq_ok_iff, typesOf_eq_ok_iff, hs.globals] at h ⊢
    obtain ⟨f, hf, ts, ha, h⟩ := h
    exact ⟨f, hf, ts, forall₂_imp_of_mem ih ha, h⟩
  | foreign line kind | absent =>
    rw [typeOf] at h
    cases h

end Expr

end Arvore
