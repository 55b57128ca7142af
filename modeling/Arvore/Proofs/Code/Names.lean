import Mathlib
import Arvore.Proofs.Code.Consistency

/-!
# Names that a listing defines

The entry of a function and a generated label are told apart by their names alone. The names of the functions of an
accepted program differ, and so do the names of its labels. Nothing keeps a function from having the name of a
label: the names of a listing differ exactly if no function has a name that the labels of its program take
(`Compilation.nodup_definedNames_iff`).
-/

namespace Arvore

open Assembly

namespace Assembly

/-- The name that a line defines. -/
def Line.name? : Line → Option String
  | .entry function => some function
  | .label l => some l.name
  | _ => none

/-- The names that a listing defines. -/
def definedNames (code : Listing) : List String := code.filterMap Line.name?

theorem definedNames_append (a b : Listing) : definedNames (a ++ b) = definedNames a ++ definedNames b :=
  List.filterMap_append

/-- Instructions define no names. -/
theorem definedNames_marks (code : Listing) : definedNames (marks code) = definedNames code := by
  induction code with
  | nil => rfl
  | cons line rest ih =>
    cases line with
    | instr i => exact ih
    | entry f => exact congrArg (f :: ·) ih
    | label l => exact congrArg (l.name :: ·) ih
    | _ => exact ih

theorem definedNames_labels (ls : List Label) : definedNames (ls.map .label) = ls.map Label.name := by
  simp [definedNames, List.filterMap_map, Function.comp_def, Line.name?]

theorem DataLines.definedNames_eq {ls : List Literal} {lines : Listing} (h : DataLines ls lines) :
    definedNames lines = (ls.map Literal.label).map Label.name := by
  induction h with
  | nil => rfl
  | string h ih | float h ih | int h ih => exact congrArg _ ih

theorem definedNames_assembled (codes : List Listing) (data : Listing) :
    definedNames (assembled codes data) = codes.flatMap definedNames ++ definedNames data := by
  have hcodes := collect_intercalate (F := definedNames) rfl definedNames_append rfl codes
  rw [← hcodes]
  exact definedNames_append _ _

end Assembly

/-- The code of a function defines its name and the names of its labels. -/
theorem Function.Linked.definedNames_eq {f : Function} {p q : Pool} {code : Listing} (h : f.Linked p code q) :
    definedNames code = f.name :: (labels code).map Label.name := by
  rw [← definedNames_marks, h.lines, ← definedNames_labels]
  rfl

/-- The codes of some functions define the names of the functions and those of their labels. -/
theorem Compilation.definedNames_of_codes {align : Bool} {globals : SymbolTable} {cs : List CheckedFunction}
    {listings : List Listing}
    (h : List.Forall₂ (fun c code => ∃ q r, (c.function.code align ⟨c.locals, globals⟩).Emits q code r) cs listings) :
    (listings.flatMap definedNames).Perm
      ((cs.map CheckedFunction.function).map Function.name ++ (listings.flatMap labels).map Label.name) := by
  induction h with
  | nil => exact .nil
  | @cons c code cs listings hcode _ ih =>
    obtain ⟨q, r, hcode⟩ := hcode
    rw [List.flatMap_cons, List.flatMap_cons, List.map_cons, List.map_cons, List.map_append,
      (Function.linked_of_emits hcode).definedNames_eq]
    refine List.Perm.cons _ ((ih.append_left _).trans ?_)
    exact List.perm_append_comm_assoc _ _ _

/-- The labels of a program take a name. -/
def Program.Takes (p : Program) (name : String) : Prop :=
  ∃ l : Label, l.category ∈ Category.all ∧ 0 < l.number ∧ l.number ≤ p.labelCount l.category ∧ l.name = name

/-- The names that the listing of an accepted program defines differ exactly if the labels of the program take the name
of no function. -/
theorem Compilation.nodup_definedNames_iff {text : List Char} {p : Program} {c : Compilation}
    (hload : Program.load text = .ok p) (hanalyze : p.analyze.2 = .ok c) (align : Bool) :
    ∃ listing literals, c.generate align = .ok (listing, literals) ∧
      ((definedNames listing).Nodup ↔ ∀ f ∈ p.functions, ¬ p.Takes f.name) := by
  obtain ⟨⟨listing, literals⟩, hgen⟩ :=
    Compilation.generate_eq_ok (Program.wellFormed_of_load hload) hanalyze align
  refine ⟨listing, literals, hgen, ?_⟩
  obtain ⟨codes, data, pool, hcodes, hdata, rfl, rfl⟩ := Compilation.generate_cases hgen
  have hsupplies := Program.supplies_of_codes hanalyze hcodes
  have hperm : (definedNames (assembled codes data)).Perm
      (p.functions.map Function.name ++ (codes.flatMap labels ++ pool.labels).map Label.name) := by
    rw [definedNames_assembled, (Literal.dataLines_of_listing hdata).definedNames_eq, List.map_append,
      ← List.append_assoc, ← Program.functions_of_analyze hanalyze]
    exact (Compilation.definedNames_of_codes (Compilation.emits_of_codes hcodes)).append_right _
  have hfunctions : (p.functions.map Function.name).Nodup := by
    rw [← Program.functions_of_analyze hanalyze, List.map_map]
    exact Program.nodup_names_of_analyze hanalyze
  -- functions differ in their names, and so do labels: only a name of both sorts is defined twice
  rw [hperm.nodup_iff, List.nodup_append]
  constructor
  · rintro ⟨-, -, hne⟩ f hf ⟨l, hc, hpos, hle, hname⟩
    have hl := (Program.mem_labels_iff hsupplies l).2 ⟨hc, hpos, hle⟩
    exact hne f.name (List.mem_map_of_mem hf) l.name (List.mem_map_of_mem hl) hname.symm
  · intro htakes
    refine ⟨hfunctions, hsupplies.nodup_names, fun name hname name' hname' heq => ?_⟩
    obtain ⟨f, hf, rfl⟩ := List.mem_map.1 hname
    obtain ⟨l, hl, rfl⟩ := List.mem_map.1 hname'
    obtain ⟨hc, hpos, hle⟩ := (Program.mem_labels_iff hsupplies l).1 hl
    exact htakes f hf ⟨l, hc, hpos, hle, heq.symm⟩

/-- Functions named like labels, where the branch of one and the text of the other get `endif_1` and `string_1`. -/
def spareNames : List Char :=
  "(program (func endif_2 [] [(if verdadeiro [(return)])]) (func while_1 [] [(print \"a\")]))".toList

/-- The names `endif_2` and `while_1` are free for functions. -/
theorem spareNames_not_taken : ∃ p c listing literals, Program.load spareNames = .ok p ∧
    p.analyze.2 = .ok c ∧ c.generate true = .ok (listing, literals) ∧
    definedNames listing = ["endif_2", "endif_1", "while_1", "string_1"] ∧ ∀ f ∈ p.functions, ¬ p.Takes f.name := by
  have hnames : (Program.load spareNames).toOption.map (fun p => p.analyze.2.toOption.map fun c =>
      (c.generate true).toOption.map fun out => definedNames out.1) =
        some (some (some ["endif_2", "endif_1", "while_1", "string_1"])) := by
    decide +kernel
  obtain ⟨p, hp, hnames⟩ := map_toOption_eq_some_iff.1 hnames
  obtain ⟨c, hc, hnames⟩ := map_toOption_eq_some_iff.1 hnames
  obtain ⟨out, hout, hnames⟩ := map_toOption_eq_some_iff.1 hnames
  obtain ⟨listing, literals, hgen, hiff⟩ := Compilation.nodup_definedNames_iff hp hc true
  cases hout.symm.trans hgen
  exact ⟨p, c, listing, literals, hp, hc, hgen, hnames, hiff.1 (by simp [hnames])⟩

/-- A function with the name that the end of its branch gets. -/
def endingBranch : List Char := "(program (func endif_1 [] [(if verdadeiro [(return)])]))".toList

/-- The name `endif_1` is defined on two lines: as a function and as the end of a branch. -/
theorem endingBranch_defines_twice : ∃ p c listing literals, Program.load endingBranch = .ok p ∧
    p.analyze.2 = .ok c ∧ c.generate false = .ok (listing, literals) ∧
    definedNames listing = ["endif_1", "endif_1"] ∧ ¬ (definedNames listing).Nodup := by
  have hnames : (Program.load endingBranch).toOption.map (fun p => p.analyze.2.toOption.map fun c =>
      (c.generate false).toOption.map fun out => definedNames out.1) = some (some (some ["endif_1", "endif_1"])) := by
    decide +kernel
  obtain ⟨p, hp, hnames⟩ := map_toOption_eq_some_iff.1 hnames
  obtain ⟨c, hc, hnames⟩ := map_toOption_eq_some_iff.1 hnames
  obtain ⟨⟨listing, literals⟩, hgen, hnames⟩ := map_toOption_eq_some_iff.1 hnames
  exact ⟨p, c, listing, literals, hp, hc, hgen, hnames, by simp [hnames]⟩

end Arvore
