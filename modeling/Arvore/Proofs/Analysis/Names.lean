import Mathlib
import Arvore.Proofs.Analysis.Faultless
import Arvore.Proofs.Analysis.Layout

/-!
# The names of variables

The variables that an expression, a statement or a function names, where they are declared and where they are used. The
names in the table of a function are among those of the function (`Function.mem_names_of_entries`).
-/

namespace Arvore

namespace Expr

mutual

/-- The names of the variables in an expression. -/
def names : Expr → List String
  | var _ name => [name]
  | arithmetic _ _ a b | logical _ _ a b | relational _ _ a b => names a ++ names b
  | unary _ _ e => names e
  | call _ _ args => namesAll args
  | number .. | string .. | boolean .. | foreign .. | absent => []

/-- The names of the variables in several expressions. -/
def namesAll : List Expr → List String
  | [] => []
  | e :: rest => names e ++ namesAll rest

end

@[simp] theorem namesAll_eq_flatMap (es : List Expr) : namesAll es = es.flatMap names := by
  induction es with
  | nil => rfl
  | cons e rest ih => rw [namesAll, ih, List.flatMap_cons]

end Expr

/-- The names of the variables in an item of a declaration. -/
def DeclItem.names (item : DeclItem) : List String :=
  item.target.name :: (item.init.map Expr.names).getD []

namespace Stmt

mutual

/-- The names of the variables in a statement, where they are declared and where they are used. -/
def names : Stmt → List String
  | declare _ _ items => items.flatMap DeclItem.names
  | assign _ x e => x.name :: e.names
  | increment _ _ x | read _ x => [x.name]
  | call _ _ args => args.flatMap Expr.names
  | ifThen _ c body | whileDo _ c body => c.names ++ namesAll body
  | ifElse _ c body other => c.names ++ (namesAll body ++ namesAll other)
  | forDo _ i c s body => names i ++ (c.names ++ (names s ++ namesAll body))
  | print _ e => e.names
  | ret _ e => (e.map Expr.names).getD []
  | foreign .. | incomplete .. => []

/-- The names of the variables in a block. -/
def namesAll : List Stmt → List String
  | [] => []
  | s :: rest => names s ++ namesAll rest

end

@[simp] theorem namesAll_eq_flatMap (body : List Stmt) : namesAll body = body.flatMap names := by
  induction body with
  | nil => rfl
  | cons s rest ih => rw [namesAll, ih, List.flatMap_cons]

end Stmt

/-- The names of the variables in a function: its parameters, and what is declared or used in its body. -/
def Function.names (f : Function) : List String := f.params.map (·.target.name) ++ f.body.flatMap Stmt.names

/-! ### Declared names -/

/-- The names in an inner statement are names of the whole. -/
theorem Stmt.mem_names_of_nested {s t : Stmt} (ht : t ∈ s.nested) {x : String} (hx : x ∈ t.names) : x ∈ s.names := by
  have block {body : List Stmt} (ih : ∀ s ∈ body, t ∈ s.nested → x ∈ s.names) (ht : t ∈ nestedAll body) :
      x ∈ namesAll body := by
    rw [nestedAll_eq_flatMap] at ht
    obtain ⟨s, hs, ht⟩ := List.mem_flatMap.1 ht
    rw [namesAll_eq_flatMap]
    exact List.mem_flatMap.2 ⟨s, hs, ih s hs ht⟩
  induction s with
  | ifThen line c body ih | whileDo line c body ih =>
    rcases List.mem_cons.1 ht with rfl | ht
    · exact hx
    · exact List.mem_append_right _ (block ih ht)
  | ifElse line c body other ihb iho =>
    rw [nested, List.cons_append, List.mem_cons, List.mem_append] at ht
    rcases ht with rfl | ht | ht
    · exact hx
    · exact List.mem_append_right _ (List.mem_append_left _ (block ihb ht))
    · exact List.mem_append_right _ (List.mem_append_right _ (block iho ht))
  | forDo line i c s body _ _ ih =>
    rcases List.mem_cons.1 ht with rfl | ht
    · exact hx
    · exact List.mem_append_right _ (List.mem_append_right _ (List.mem_append_right _ (block ih ht)))
  | _ =>
    simp only [nested, List.mem_singleton] at ht
    exact ht ▸ hx

theorem Function.mem_names_of_variables {f : Function} {v : Variable} (hv : v ∈ f.variables) : v.name ∈ f.names := by
  rcases List.mem_append.1 hv with hv | hv
  · obtain ⟨p, hp, rfl⟩ := List.mem_map.1 hv
    exact List.mem_append_left _ (List.mem_map.2 ⟨p, hp, rfl⟩)
  · obtain ⟨t, ht, hv⟩ := List.mem_flatMap.1 hv
    rw [Stmt.nestedAll_eq_flatMap] at ht
    obtain ⟨s, hs, ht⟩ := List.mem_flatMap.1 ht
    have hname : v.name ∈ t.names := by
      cases t with
      | declare line type items =>
        obtain ⟨item, hitem, rfl⟩ := List.mem_map.1 hv
        exact List.mem_flatMap.2 ⟨item, hitem, List.mem_cons_self ..⟩
      | _ => cases hv
    exact List.mem_append_right _ (List.mem_flatMap.2 ⟨s, hs, Stmt.mem_names_of_nested ht hname⟩)

/-- A table has no names but those of its variables. -/
theorem SymbolTable.Declared.name_of_mem {vs : List Variable} {t : SymbolTable} (h : Declared vs t) :
    ∀ e ∈ t.entries, e.2.name = e.1 ∧ ∃ v ∈ vs, v.name = e.1 := by
  induction h with
  | nil => exact fun _ he => absurd he (List.not_mem_nil)
  | @snoc vs v t t' _ hd ih =>
    obtain ⟨size, -, -, rfl⟩ := declare_eq_ok_iff.1 hd
    intro e he
    rcases List.mem_append.1 he with he | he
    · obtain ⟨hname, w, hw, hsame⟩ := ih e he
      exact ⟨hname, w, List.mem_append_left _ hw, hsame⟩
    · rw [List.mem_singleton] at he
      exact he ▸ ⟨rfl, v, by simp, rfl⟩

/-- A function names all variables of its table, and they are found under the names that they have. -/
theorem Function.mem_names_of_entries {globals table : SymbolTable} {f : Function} (h : f.locals globals = .ok table)
    {e : String × Symbol} (he : e ∈ table.entries) : e.2.name = e.1 ∧ e.1 ∈ f.names := by
  obtain ⟨hname, v, hv, hsame⟩ := (declared_of_locals h).name_of_mem e he
  exact ⟨hname, hsame ▸ mem_names_of_variables hv⟩

end Arvore
