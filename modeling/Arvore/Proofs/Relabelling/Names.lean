import Mathlib
import Arvore.Proofs.Relabelling.Code

/-!
# Names of variables never reach the code

The variables of a function may be renamed as long as distinct ones stay distinct, each function on its own. The
renamed program is accepted exactly if the program is, its variables have the same places, and it is compiled to
the same text (`renamed_variables_leave_no_trace`). Variables and functions are looked up in tables of their own,
so a variable may even take the name of a function.
-/

namespace Arvore

/-- An accepted function depends on the new names of its own variables only. -/
theorem CheckedFunction.relabel_congr {globals : SymbolTable} {c : CheckedFunction}
    (h : c.function.analyze globals = .ok c) {r s : Relabelling} (hline : r.line = s.line)
    (hnames : ∀ x ∈ c.function.names, r.name x = s.name x) : c.relabel r = c.relabel s := by
  obtain ⟨-, hlocals, -⟩ := Function.analyze_eq_ok h
  have htable : c.locals.relabel r = c.locals.relabel s := by
    refine congrArg SymbolTable.mk (List.map_congr_left fun e he => ?_)
    obtain ⟨hname, hx⟩ := Function.mem_names_of_entries hlocals he
    rw [Symbol.relabel, Symbol.relabel, hline, hname, hnames e.1 hx]
  rw [relabel, relabel, htable, Function.relabel_congr hline hnames]

section Programs

variable {p : Program} {ρ σ : Nat → String → String}
  (hnames : ∀ i f, p.functions[i]? = some f → ∀ x ∈ f.names, ρ i x = σ i x)
include hnames

theorem Program.relabel_congr (line : Int → Int) : p.relabel line ρ = p.relabel line σ := by
  refine congrArg (Program.mk _) (List.ext_getElem? fun i => ?_)
  rw [List.getElem?_mapIdx, List.getElem?_mapIdx]
  refine Option.map_congr fun f hf => Function.relabel_congr ?_ ?_
  · rfl
  · exact hnames i f hf

theorem Compilation.relabel_congr (line : Int → Int) {c : Compilation} (h : p.analyze.2 = .ok c) :
    c.relabel line ρ = c.relabel line σ := by
  obtain ⟨rfl, -, -⟩ := Program.analyze_eq_ok h
  have hfunctions : (c.functions.mapIdx fun i c => c.relabel ⟨line, ρ i⟩) =
      c.functions.mapIdx fun i c => c.relabel ⟨line, σ i⟩ := by
    refine List.ext_getElem? fun i => ?_
    rw [List.getElem?_mapIdx, List.getElem?_mapIdx]
    refine Option.map_congr fun cf hcf => ?_
    have hf : c.program.functions[i]? = some cf.function := by
      rw [← Program.functions_of_analyze h, List.getElem?_map, hcf]
      rfl
    obtain ⟨-, hc⟩ := Program.analyze_of_mem h (List.mem_of_getElem? hcf)
    refine CheckedFunction.relabel_congr hc ?_ ?_
    · rfl
    · exact hnames i _ hf
  rw [relabel, relabel, Program.relabel_congr hnames, hfunctions]

end Programs

/-- Names of variables have no influence on what a program is compiled to. Give other names to the variables of
each function of a program, different ones to different variables. The new program is accepted exactly if the
program is, each function with the same table but for the names. And then both are compiled to the same assembly.
-/
theorem renamed_variables_leave_no_trace {text : List Char} {p : Program} (h : Program.load text = .ok p)
    {ρ : Nat → String → String}
    (hρ : ∀ i f, p.functions[i]? = some f → Set.InjOn (ρ i) {x | x ∈ f.names}) :
    (∀ d, (p.relabel id ρ).analyze.2 = .ok d ↔ ∃ c, p.analyze.2 = .ok c ∧ c.relabel id ρ = d) ∧
    ∀ c, p.analyze.2 = .ok c → ∀ align, ∃ assembly, (p.compile align).2 = .ok assembly ∧
      (p.relabel id ρ).compile align = p.compile align := by
  have hp := Program.wellFormed_of_load h
  -- names that no variable of a function has do not matter, so that all names may be taken to stay distinct
  have hextend : ∀ i, ∃ σ : String → String, Function.Injective σ ∧
      ∀ f, p.functions[i]? = some f → ∀ x ∈ f.names, ρ i x = σ x := by
    intro i
    cases hf : p.functions[i]? with
    | none => exact ⟨id, Function.injective_id, fun _ h => by cases h⟩
    | some f =>
      obtain ⟨σ, hσ, hsame⟩ := exists_injective_extension (hρ i f hf)
      refine ⟨σ, hσ, ?_⟩
      rintro _ ⟨⟩ x hx
      exact (hsame x hx).symm
  choose σ hσ hsame using hextend
  rw [Program.relabel_congr hsame]
  obtain ⟨-, hanalyze⟩ := p.analyze_relabel id hσ
  constructor
  · intro d
    rw [hanalyze.eq_ok_iff]
    refine exists_congr fun c => and_congr_right fun hc => ?_
    rw [Compilation.relabel_congr hsame id hc]
  · intro c hc align
    obtain ⟨hevents, hcompile⟩ := Program.compile_relabel id hσ align hp
    obtain ⟨assembly, hassembly⟩ := Program.compile_eq_ok hp hc align
    exact ⟨assembly, hassembly, Prod.ext hevents ((hcompile.eq_ok_iff.2 ⟨_, hassembly, rfl⟩).trans hassembly.symm)⟩

/-- A function that is called with a variable, in an inner block. -/
def squaring : List Char :=
  "(program
    (func square inteiro [(param inteiro n)] [(decl inteiro (init r (binary \"*\" n n))) (return r)])
    (func main []
      [(decl inteiro k) (read k)
       (while (relational \"<\" k 9) [(decl inteiro (init m (call square [k]))) (assign k (binary \"+\" k m))])
       (print m)]))".toList

/-- The variable `k` of the second function takes the name of the first function. -/
def takingName (i : Nat) : String → String := if i = 1 then Equiv.swap "k" "square" else id

theorem squaring_keeps_assembly : ∃ p c d assembly, Program.load squaring = .ok p ∧ p.analyze.2 = .ok c ∧
    (p.relabel id takingName).analyze.2 = .ok d ∧ c.relabel id takingName = d ∧
    d.functions.map (fun f => f.locals.symbols.map Symbol.name) = [["n", "r"], ["square", "m"]] ∧
    (p.compile true).2 = .ok assembly ∧ ((p.relabel id takingName).compile true).2 = .ok assembly := by
  obtain ⟨p, hp, hnames⟩ : ∃ p, Program.load squaring = .ok p ∧ p.analyze.2.toOption.map
      (fun c => (c.relabel id takingName).functions.map fun f => f.locals.symbols.map Symbol.name) =
        some [["n", "r"], ["square", "m"]] := by
    apply exists_of_literal
    decide +kernel
  obtain ⟨c, hc, hnames⟩ := map_toOption_eq_some_iff.1 hnames
  have hinjective : ∀ i, Function.Injective (takingName i) := by
    intro i
    rw [takingName]
    split
    · exact Equiv.injective _
    · exact Function.injective_id
  obtain ⟨hanalyze, hcompile⟩ := renamed_variables_leave_no_trace hp fun i _ _ => (hinjective i).injOn
  obtain ⟨assembly, hassembly, hsame⟩ := hcompile c hc true
  exact ⟨p, c, _, assembly, hp, hc, (hanalyze _).2 ⟨c, hc, rfl⟩, rfl, hnames, hassembly, hsame ▸ hassembly⟩

end Arvore
