import Mathlib
import Arvore.Proofs.Analysis.Table

/-!
# The table of a function

The table of a function holds its parameters and then every declared variable in the order of the text, whatever block
the declaration stands in (`Function.declared_of_locals`). All of them have types that take room. As long as the frame
is smaller than half of the address space, each variable stands directly below the one before it
(`Declared.entries_eq`), so that no two of them share a byte.
-/

namespace Arvore

/-- The table `t` was made by declaring the variables `vs` one after the other. -/
inductive SymbolTable.Declared : List Variable → SymbolTable → Prop
  | nil : Declared [] {}
  | snoc {vs : List Variable} {v : Variable} {t t' : SymbolTable} (hs : Declared vs t) (h : t.declare v = .ok t') :
      Declared (vs ++ [v]) t'

/-- The variables that a statement declares itself, not those of its blocks. -/
def Stmt.variables : Stmt → List Variable
  | declare _ type items => items.map (·.variable type)
  | _ => []

/-- The parameters and variables of a function in the order of the text. -/
def Function.variables (f : Function) : List Variable :=
  f.params.map Param.variable ++ (Stmt.nestedAll f.body).flatMap Stmt.variables

namespace SymbolTable.Declared

open SymbolTable

/-- A fold whose steps declare variables declares all of them in order. -/
theorem foldlM {α : Type} {f : SymbolTable → α → Except Failure SymbolTable} {vars : α → List Variable}
    (hf : ∀ x vs t t', Declared vs t → f t x = .ok t' → Declared (vs ++ vars x) t') {xs : List α} {vs : List Variable}
    {t t' : SymbolTable} (ht : Declared vs t) (h : xs.foldlM f t = .ok t') : Declared (vs ++ xs.flatMap vars) t' := by
  induction xs generalizing vs t with
  | nil =>
    cases h
    simpa using ht
  | cons x rest ih =>
    rw [List.foldlM_cons, bind_eq_ok_iff] at h
    obtain ⟨u, hx, h⟩ := h
    simpa using ih (hf x vs t u ht hx) h

/-- A fold that declares one variable for each member of a list. -/
theorem foldlM_map {α : Type} {f : SymbolTable → α → Except Failure SymbolTable} {var : α → Variable}
    (hf : ∀ x t t', f t x = .ok t' → t.declare (var x) = .ok t') {xs : List α} {vs : List Variable}
    {t t' : SymbolTable} (ht : Declared vs t) (h : xs.foldlM f t = .ok t') : Declared (vs ++ xs.map var) t' := by
  rw [← List.flatMap_singleton' (xs.map var), List.flatMap_map]
  exact ht.foldlM (fun x vs t t' ht hx => ht.snoc (hf x t t' hx)) h

/-- What a table holds is one of its variables, and has a type that takes room. -/
theorem exists_variable {vs : List Variable} {t : SymbolTable} (h : Declared vs t) {name : String} {s : Symbol}
    (hs : t.find? name = some s) : ∃ v ∈ vs, name = v.name ∧ s.type = v.type ∧ v.type.isVariable = true := by
  induction h with
  | nil => cases hs
  | @snoc vs v t t' _ hd ih =>
    rcases find?_declare_cases hd hs with hs | ⟨hn, offset, rfl⟩
    · obtain ⟨w, hw, h⟩ := ih hs
      exact ⟨w, List.mem_append_left _ hw, h⟩
    · obtain ⟨size, hsize, -⟩ := declare_eq_ok_iff.1 hd
      refine ⟨v, by simp, hn, rfl, ?_⟩
      rw [Ty.isVariable_iff_size?_isSome]
      exact Option.isSome_iff_exists.2 ⟨size, hsize⟩

/-- Every variable of a table has a type that takes room. -/
theorem isVariable {vs : List Variable} {t : SymbolTable} (h : Declared vs t) {name : String} {s : Symbol}
    (hs : t.find? name = some s) : s.type.isVariable = true := by
  obtain ⟨v, -, -, ht, hv⟩ := h.exists_variable hs
  rw [ht, hv]

/-- Every variable that was declared is found. -/
theorem find?_of_mem {vs : List Variable} {t : SymbolTable} (h : Declared vs t) {v : Variable} (hv : v ∈ vs) :
    ∃ s, t.find? v.name = some s ∧ s.type = v.type := by
  induction h with
  | nil => cases hv
  | @snoc vs w t t' _ hd ih =>
    rcases List.mem_append.1 hv with hv | hv
    · obtain ⟨s, hs, ht⟩ := ih hv
      exact ⟨s, extends_of_declare hd _ _ hs, ht⟩
    · rw [List.mem_singleton] at hv
      subst hv
      exact find?_of_declare hd

/-- No name is declared twice. -/
theorem nodup_names {vs : List Variable} {t : SymbolTable} (h : Declared vs t) : (vs.map Variable.name).Nodup := by
  induction h with
  | nil => exact .nil
  | @snoc vs v t t' hs hd ih =>
    rw [List.map_append]
    refine ih.append (List.nodup_singleton _) fun name hm hv => ?_
    obtain ⟨w, hw, rfl⟩ := List.mem_map.1 hm
    obtain ⟨s, hfound, -⟩ := hs.find?_of_mem hw
    obtain ⟨-, -, hnone, -⟩ := declare_eq_ok_iff.1 hd
    rw [List.map_singleton, List.mem_singleton] at hv
    rw [hv, hnone] at hfound
    cases hfound

end SymbolTable.Declared

/-! ### Places in the frame -/

theorem Ty.size?_pos {type : Ty} {n : Nat} (h : type.size? = some n) : 0 < n := by
  cases type <;> cases h <;> decide

theorem Ty.size?_le {type : Ty} {n : Nat} (h : type.size? = some n) : n ≤ 8 := by
  cases type <;> cases h <;> decide

/-- The number of bytes that a variable takes. -/
def Variable.bytes (v : Variable) : Nat := v.type.size?.getD 0

/-- The number of bytes that some variables take together. -/
def Variable.total (vs : List Variable) : Nat := (vs.map bytes).sum

/-- Variables laid out downwards, below so many bytes that are taken. -/
def Variable.layout (taken : Nat) : List Variable → List (String × Symbol)
  | [] => []
  | v :: rest => (v.name, v.symbol (-(taken + v.bytes : Nat))) :: layout (taken + v.bytes) rest

namespace Variable

@[simp] theorem total_nil : total [] = 0 := rfl

@[simp] theorem total_cons (v : Variable) (vs : List Variable) : total (v :: vs) = v.bytes + total vs := rfl

@[simp] theorem total_append (vs ws : List Variable) : total (vs ++ ws) = total vs + total ws := by
  simp [total]

theorem layout_append (taken : Nat) (vs ws : List Variable) :
    layout taken (vs ++ ws) = layout taken vs ++ layout (taken + total vs) ws := by
  induction vs generalizing taken with
  | nil => rfl
  | cons v rest ih => simp [layout, ih, Nat.add_assoc]

theorem getLast?_layout_snoc (taken : Nat) (vs : List Variable) (v : Variable) :
    (layout taken (vs ++ [v])).getLast? = some (v.name, v.symbol (-(taken + total (vs ++ [v]) : Nat))) := by
  rw [layout_append]
  simp [layout, Nat.add_assoc]

end Variable

namespace SymbolTable

@[simp] theorem lowest_nil : lowest [] = 0 := rfl

@[simp] theorem lowest_snoc (ss : List Symbol) (s : Symbol) :
    lowest (ss ++ [s]) = if s.placed && s.offset < lowest ss then s.offset else lowest ss := by
  simp [lowest]

theorem lowest_layout (vs : List Variable) :
    lowest ((Variable.layout 0 vs).map (·.2)) = -(Variable.total vs : Int) := by
  induction vs using List.reverseRecOn with
  | nil => rfl
  | append_singleton vs v ih =>
    simp only [Variable.layout_append, Variable.layout, List.map_append, List.map_cons, List.map_nil, lowest_snoc, ih,
      Variable.symbol, Variable.total_append, Variable.total_cons, Variable.total_nil]
    split
    · omega
    · rename_i h
      simp only [Bool.true_and, decide_eq_true_eq, not_lt] at h
      omega

namespace Declared

variable {vs : List Variable} {t : SymbolTable}

/-- Each variable stands directly below the one before it. -/
theorem entries_eq (h : Declared vs t) (hfits : Variable.total vs < 9223372036854775808) :
    t.entries = Variable.layout 0 vs := by
  induction h with
  | nil => rfl
  | @snoc vs v t t' _ hd ih =>
    obtain ⟨size, hsize, -, rfl⟩ := declare_eq_ok_iff.1 hd
    have hbytes : v.bytes = size := by simp [Variable.bytes, hsize]
    simp only [Variable.total_append, Variable.total_cons, Variable.total_nil, hbytes] at hfits
    have ht := ih (by omega)
    rw [Variable.layout_append, ← ht]
    simp only [Variable.layout, symbols, ht, lowest_layout, hbytes]
    rw [wrap_of_fits (by omega) (by omega)]
    congr 4
    omega

/-- The frame is as large as the variables together. -/
theorem frameSize_eq (h : Declared vs t) (hfits : Variable.total vs < 9223372036854775808) :
    t.frameSize = Variable.total vs := by
  rw [frameSize, last?, symbols, h.entries_eq hfits, List.getLast?_map]
  rcases List.eq_nil_or_concat vs with rfl | ⟨us, v, rfl⟩
  · rfl
  · rw [List.concat_eq_append] at hfits ⊢
    rw [Variable.getLast?_layout_snoc]
    simp only [Option.map_some, Variable.symbol, Nat.zero_add, neg_neg, if_true]
    rw [wrap_of_fits (by omega) (by omega)]

end Declared

end SymbolTable

theorem Stmt.declared_of_define {globals t t' : SymbolTable} {s : Stmt} {vs : List Variable}
    (ht : SymbolTable.Declared vs t) (h : Stmt.define globals t s = .ok t') :
    SymbolTable.Declared (vs ++ s.variables) t' := by
  unfold Stmt.define at h
  split at h
  · exact ht.foldlM_map (fun item t t' h => (bind_eq_ok_iff.1 h).choose_spec.2) h
  case h_6 =>
    cases h
    rename_i hs _ _ _ _
    cases s with
    | declare line type items => exact absurd rfl (hs line type items)
    | _ => simpa [Stmt.variables] using ht
  all_goals cases h

/-- The table of a function declares its variables in the order of the text. -/
theorem Function.declared_of_locals {globals table : SymbolTable} {f : Function} (h : f.locals globals = .ok table) :
    SymbolTable.Declared f.variables table := by
  obtain ⟨params, hp, h⟩ := bind_eq_ok_iff.1 h
  obtain ⟨_, _, h⟩ := bind_eq_ok_iff.1 h
  have hd : SymbolTable.Declared ([] ++ f.params.map Param.variable) params :=
    SymbolTable.Declared.nil.foldlM_map (fun p t t' h => h) hp
  exact hd.foldlM (fun s vs t t' ht hs => Stmt.declared_of_define ht hs) h

end Arvore
