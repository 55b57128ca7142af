import Mathlib
import Arvore.Proofs.Code.Listing
import Arvore.Proofs.Code.Total
import Arvore.Proofs.Compilation

/-!
# Labels of a whole listing

A listing is the code of its functions, one after the other, and one section of read-only data. The labels that the
statements draw and the labels of the literals are numbered from one in each category, without gaps and across all
functions. They have different names, so each is defined on one line. Jumps stay inside a function, and the data are the
literals that the code refers to, in the order in which it does so first (`Compilation.consistentLabels`).
-/

namespace Arvore

open Assembly

namespace Assembly

/-! ### Data -/

/-- The lines of some literals: the label of each, then the directive of its category with its text. -/
inductive DataLines : List Literal → Listing → Prop
  | nil : DataLines [] []
  | string {n payload rest lines} (h : DataLines rest lines) :
      DataLines (⟨payload, ⟨Category.string, n⟩⟩ :: rest) (.label ⟨Category.string, n⟩ :: .string payload :: lines)
  | float {n payload rest lines} (h : DataLines rest lines) :
      DataLines (⟨payload, ⟨Category.float, n⟩⟩ :: rest) (.label ⟨Category.float, n⟩ :: .double payload :: lines)
  | int {n payload rest lines} (h : DataLines rest lines) :
      DataLines (⟨payload, ⟨Category.int, n⟩⟩ :: rest) (.label ⟨Category.int, n⟩ :: .quad payload :: lines)

theorem Literal.dataLines_of_listing {ls : List Literal} {lines : Listing} (h : Literal.listing ls = .ok lines) :
    DataLines ls lines := by
  induction ls generalizing lines with
  | nil =>
    cases h
    exact .nil
  | cons l rest ih =>
    simp only [Literal.listing, bind_eq_ok_iff] at h
    obtain ⟨line, hline, others, hothers, h⟩ := h
    cases h
    obtain ⟨payload, c, n⟩ := l
    unfold Literal.directive at hline
    split at hline
    · rename_i hc
      cases hline
      cases hc
      exact .string (ih hothers)
    · split at hline
      · rename_i hc
        cases hline
        cases hc
        exact .float (ih hothers)
      · split at hline
        · rename_i hc
          cases hline
          cases hc
          exact .int (ih hothers)
        · cases hline

theorem DataLines.labels_eq {ls : List Literal} {lines : Listing} (h : DataLines ls lines) :
    labels lines = ls.map Literal.label := by
  induction h with
  | nil => rfl
  | string h ih | float h ih | int h ih => exact congrArg _ ih

theorem DataLines.uses_eq {ls : List Literal} {lines : Listing} (h : DataLines ls lines) : uses lines = [] := by
  induction h with
  | nil => rfl
  | string h ih | float h ih | int h ih => exact ih

theorem DataLines.dataSection_not_mem {ls : List Literal} {lines : Listing} (h : DataLines ls lines) :
    Line.dataSection ∉ lines := by
  induction h with
  | nil => simp
  | string h ih | float h ih | int h ih => simpa using ih

/-! ### Code and data in one listing -/

/-- The listing of some functions and some data. -/
def assembled (codes : List Listing) (data : Listing) : Listing :=
  .textSection :: [Line.blank].intercalate codes ++ .blank :: .dataSection :: data

/-- What is collected from a listing line by line is collected from the codes of its functions. -/
theorem collect_intercalate {β : Type} {F : Listing → List β} (hnil : F [] = [])
    (happend : ∀ a b, F (a ++ b) = F a ++ F b) (hblank : F [.blank] = []) (codes : List Listing) :
    F ([Line.blank].intercalate codes) = codes.flatMap F := by
  induction codes with
  | nil => exact hnil
  | cons code rest ih =>
    cases rest with
    | nil => simp [List.intercalate]
    | cons next rest =>
      rw [List.intercalate_cons_cons, happend, happend, hblank, List.append_nil, ih]
      rfl

theorem labels_assembled (codes : List Listing) (data : Listing) :
    labels (assembled codes data) = codes.flatMap labels ++ labels data := by
  have hcodes := collect_intercalate labels_nil labels_append rfl codes
  rw [← hcodes]
  exact labels_append _ _

theorem uses_assembled (codes : List Listing) (data : Listing) :
    uses (assembled codes data) = codes.flatMap uses ++ uses data := by
  have hcodes := collect_intercalate uses_nil uses_append rfl codes
  rw [← hcodes]
  exact uses_append _ _

theorem count_dataSection_assembled {codes : List Listing} {data : Listing} (hc : ∀ code ∈ codes, .dataSection ∉ code)
    (hd : .dataSection ∉ data) : (assembled codes data).count .dataSection = 1 := by
  have hcodes := collect_intercalate (F := List.filter (· == .dataSection)) rfl List.filter_append rfl codes
  have hnone : codes.flatMap (List.filter (· == .dataSection)) = [] := by
    simp only [List.flatMap_eq_nil_iff, List.filter_eq_nil_iff, beq_iff_eq]
    rintro code hm line hl rfl
    exact hc code hm hl
  rw [assembled, List.cons_append, List.count_cons, List.count_append, List.count_eq_length_filter, hcodes, hnone]
  simp [List.count_eq_zero.2 hd]

end Assembly

/-! ### Functions -/

/-- The code of a function: its entry, then code that is linked within itself. -/
structure Function.Linked (f : Function) (p : Pool) (code : Listing) (q : Pool) : Prop
    extends Supplies p f.drawn (labels code) f.pooled (uses code) q where
  jumps : targets code ⊆ labels code
  lines : marks code = .global f.name :: .entry f.name :: (labels code).map .label

theorem Function.linked_of_emits {align : Bool} {scope : Scope} {f : Function} {p q : Pool} {code : Listing}
    (h : (f.code align scope).Emits p code q) : f.Linked p code q := by
  obtain ⟨head, body, hh, hb, rfl⟩ := Function.emits_code.1 h
  obtain ⟨straight, rfl, hstraight⟩ := Function.headCode_cases hh
  obtain ⟨hl, ht, hu, hm⟩ := labels_of_local hstraight
  have hbody := Function.linked_of_bodyCode hb
  -- the head defines nothing but the entry and refers to nothing
  have hlabels : labels ([Line.global f.name, .entry f.name] ++ straight ++ body) = labels body := by
    rw [labels_append, labels_append, hl]
    rfl
  have htargets : targets ([Line.global f.name, .entry f.name] ++ straight ++ body) = targets body := by
    rw [targets_append, targets_append, ht]
    rfl
  have huses : uses ([Line.global f.name, .entry f.name] ++ straight ++ body) = uses body := by
    rw [uses_append, uses_append, hu]
    rfl
  refine ⟨?_, ?_, ?_⟩
  · rw [hlabels, huses]
    exact hbody.toSupplies
  · rw [htargets, hlabels]
    exact hbody.jumps
  · rw [hlabels, marks_append, marks_append, hm, hbody.lines]
    rfl

theorem Function.Linked.dataSection_not_mem {f : Function} {p q : Pool} {code : Listing} (h : f.Linked p code q) :
    Line.dataSection ∉ code := by
  intro hm
  have hmark : Line.dataSection ∈ marks code := List.mem_filter.2 ⟨hm, rfl⟩
  simp [h.lines] at hmark

theorem Function.Linked.control {f : Function} {p q : Pool} {code : Listing} (h : f.Linked p code q) {l : Label}
    (hl : l ∈ labels code) : l.category ∈ Category.control := ((h.draws.mem_iff l).1 hl).1

/-- The codes of several functions, with the labels and literals of all of them. -/
theorem Compilation.supplies_of_codes {align : Bool} {globals : SymbolTable} {cs : List CheckedFunction} {p q : Pool}
    {listings : List Listing} (h : (codes align globals cs).Emits p listings q) :
    Supplies p (cs.flatMap (·.function.drawn)) (listings.flatMap labels) (cs.flatMap (·.function.pooled))
      (listings.flatMap uses) q := by
  induction cs generalizing p listings with
  | nil =>
    simp only [codes, Gen.emits_pure] at h
    obtain ⟨rfl, rfl⟩ := h
    exact .nil _
  | cons c rest ih =>
    simp only [codes, Gen.emits_bind, Gen.emits_pure] at h
    obtain ⟨code, r, hc, others, _, ho, rfl, rfl⟩ := h
    exact (Function.linked_of_emits hc).toSupplies.append (ih ho)

/-- The codes of several functions are the codes of each, in order. -/
theorem Compilation.emits_of_codes {align : Bool} {globals : SymbolTable} {cs : List CheckedFunction} {p q : Pool}
    {listings : List Listing} (h : (codes align globals cs).Emits p listings q) :
    List.Forall₂ (fun c code => ∃ q r, (c.function.code align ⟨c.locals, globals⟩).Emits q code r) cs listings := by
  induction cs generalizing p listings with
  | nil =>
    simp only [codes, Gen.emits_pure] at h
    obtain ⟨rfl, rfl⟩ := h
    exact .nil
  | cons c rest ih =>
    simp only [codes, Gen.emits_bind, Gen.emits_pure] at h
    obtain ⟨code, r, hc, others, _, ho, rfl, rfl⟩ := h
    exact .cons ⟨p, r, hc⟩ (ih ho)

/-! ### Programs -/

/-- The categories of the labels that a program draws. -/
def Program.drawn (p : Program) : List String := p.functions.flatMap Function.drawn

/-- The literals that a program needs, each as often as it stands there. -/
def Program.pooled (p : Program) : List (String × String) := p.functions.flatMap Function.pooled

/-- How many labels of a category the listing of a program has: one for each time that it is drawn, and one for each
literal that is needed. -/
def Program.labelCount (p : Program) (category : String) : Nat :=
  p.drawn.count category + (p.pooled.eraseDups.map Prod.fst).count category

/-- How the labels of a listing fit together, given the codes of its functions, its data and its literals. -/
structure ConsistentLabels (p : Program) (codes : List Listing) (data : Listing) (literals : List Literal) : Prop where
  defined : ∀ l, l ∈ labels (assembled codes data) ↔
    l.category ∈ Category.all ∧ 0 < l.number ∧ l.number ≤ p.labelCount l.category
  once : ((labels (assembled codes data)).map Label.name).Nodup
  control : ∀ code ∈ codes, ∀ l ∈ labels code, l.category ∈ Category.control
  jumps : ∀ code ∈ codes, ∀ l ∈ targets code, l ∈ labels code
  oneSection : (assembled codes data).count .dataSection = 1
  dataLines : DataLines literals data
  order : literals.map Literal.label = (uses (assembled codes data)).eraseDups
  payloads : literals.map Literal.key = p.pooled.eraseDups
  named : List.Forall₂ (fun l k => ∃ literal ∈ literals, literal.label = l ∧ literal.key = k)
    (uses (assembled codes data)) p.pooled

/-- What the listing of a program is put together from. -/
theorem Compilation.generate_cases {align : Bool} {c : Compilation} {listing : Listing} {literals : List Literal}
    (h : c.generate align = .ok (listing, literals)) :
    ∃ listings data pool, (codes align c.globals c.functions).Emits {} listings pool ∧
      Literal.listing pool.literals = .ok data ∧ listing = assembled listings data ∧ literals = pool.literals := by
  obtain ⟨⟨listings, pool⟩, hcodes, h⟩ := bind_eq_ok_iff.1 h
  obtain ⟨_, hsection, h⟩ := bind_eq_ok_iff.1 h
  cases h
  obtain ⟨data, hdata, h⟩ := bind_eq_ok_iff.1 hsection
  cases h
  exact ⟨listings, data, pool, hcodes, hdata, rfl, rfl⟩

/-- The pool of an accepted program gives out what can be read off the program. -/
theorem Program.supplies_of_codes {p : Program} {c : Compilation} (hanalyze : p.analyze.2 = .ok c) {align : Bool}
    {codes : List Listing} {pool : Pool}
    (hcodes : (Compilation.codes align c.globals c.functions).Emits {} codes pool) :
    Supplies {} p.drawn (codes.flatMap labels) p.pooled (codes.flatMap uses) pool := by
  rw [Program.drawn, Program.pooled, ← Program.functions_of_analyze hanalyze, List.flatMap_map, List.flatMap_map]
  exact Compilation.supplies_of_codes hcodes

theorem Supplies.nodup_names {cs : List String} {ls us : List Label} {ks : List (String × String)} {pool : Pool}
    (h : Supplies {} cs ls ks us pool) : ((ls ++ pool.labels).map Label.name).Nodup :=
  h.nodup_labels.map Label.name_injective

/-- The labels of a listing are numbered from one to the count that can be read off the program. -/
theorem Program.mem_labels_iff {p : Program} {ls us : List Label} {pool : Pool}
    (h : Supplies {} p.drawn ls p.pooled us pool) (l : Label) : l ∈ ls ++ pool.labels ↔
      l.category ∈ Category.all ∧ 0 < l.number ∧ l.number ≤ p.labelCount l.category := by
  rw [h.mem_labels_iff]
  refine and_congr_right fun hc => ?_
  rw [h.count_eq hc]
  rfl

/-- The labels of the listing of an accepted program fit together. -/
theorem Compilation.consistentLabels {text : List Char} {p : Program} {c : Compilation}
    (hload : Program.load text = .ok p) (hanalyze : p.analyze.2 = .ok c) (align : Bool) :
    ∃ codes data literals, c.generate align = .ok (assembled codes data, literals) ∧
      (p.compile align).2 = .ok (Listing.render (assembled codes data)) ∧
      List.Forall₂ (fun cf code => ∃ q r, (cf.function.code align ⟨cf.locals, c.globals⟩).Emits q code r)
        c.functions codes ∧
      ConsistentLabels p codes data literals := by
  obtain ⟨⟨listing, literals⟩, hgen⟩ :=
    Compilation.generate_eq_ok (Program.wellFormed_of_load hload) hanalyze align
  obtain ⟨codes, data, pool, hcodes, hdata, rfl, rfl⟩ := Compilation.generate_cases hgen
  have hsupplies := Program.supplies_of_codes hanalyze hcodes
  have hlines := Literal.dataLines_of_listing hdata
  have hlabels : labels (assembled codes data) = codes.flatMap labels ++ pool.labels := by
    rw [labels_assembled, hlines.labels_eq]
    rfl
  have huses : uses (assembled codes data) = codes.flatMap uses := by
    rw [uses_assembled, hlines.uses_eq, List.append_nil]
  have hemits := Compilation.emits_of_codes hcodes
  have hcode : ∀ code ∈ codes, ∃ f q r, Function.Linked f q code r := by
    refine forall_mem_of_forall₂ hemits (P := fun _ => True) (by simp) ?_
    rintro cf - code - ⟨q, r, h⟩
    exact ⟨cf.function, q, r, Function.linked_of_emits h⟩
  refine ⟨codes, data, pool.literals, hgen, ?_, hemits, ?_⟩
  · rcases hp : p.analyze with ⟨events, result⟩
    obtain rfl : result = .ok c := by simpa [hp] using hanalyze
    simp only [Program.compile, hp, hgen]
  · constructor
    · rw [hlabels]
      exact Program.mem_labels_iff hsupplies
    · rw [hlabels]
      exact hsupplies.nodup_names
    · intro code hm l hl
      obtain ⟨f, q, r, hf⟩ := hcode code hm
      exact hf.control hl
    · intro code hm l hl
      obtain ⟨f, q, r, hf⟩ := hcode code hm
      exact hf.jumps hl
    · refine count_dataSection_assembled (fun code hm => ?_) hlines.dataSection_not_mem
      obtain ⟨f, q, r, hf⟩ := hcode code hm
      exact hf.dataSection_not_mem
    · exact hlines
    · rw [huses]
      exact hsupplies.labels_eq
    · exact hsupplies.keys_eq
    · rw [huses]
      exact (hsupplies.interns .empty).named

/-- Two functions with loops and branches inside each other, that share literals. -/
def interlaced : List Char :=
  "(program
    (func f logico [(param inteiro n)]
      [(while (relational \"<\" n 3)
        [(if (relational \"==\" n 1) [(print \"one\") (print 2.5)] [(print \"two\") (print \"one\")])
         (increment \"++\" n)])
       (return verdadeiro)])
    (func main []
      [(decl real (init x 2.5)) (decl inteiro i)
       (for (assign i 0) (relational \"<\" i 10) (increment \"++\" i) [(if (call f [i]) [(print 4294967296)])])
       (print \"two\")]))".toList

theorem interlaced_consistentLabels : ∃ p c codes data literals, Program.load interlaced = .ok p ∧
    p.analyze.2 = .ok c ∧ c.generate false = .ok (assembled codes data, literals) ∧
    literals.map Literal.key = [("string", "one"), ("float", "2.5"), ("string", "two"), ("int", "4294967296")] ∧
    (p.compile false).2 = .ok (Listing.render (assembled codes data)) ∧
    List.Forall₂ (fun cf code => ∃ q r, (cf.function.code false ⟨cf.locals, c.globals⟩).Emits q code r)
      c.functions codes ∧
    ConsistentLabels p codes data literals := by
  obtain ⟨p, hp, hprogram⟩ : ∃ p, Program.load interlaced = .ok p ∧
      (p.analyze.2.toOption.isSome, p.pooled.eraseDups) =
        (true, [("string", "one"), ("float", "2.5"), ("string", "two"), ("int", "4294967296")]) := by
    apply exists_of_literal
    decide +kernel
  rw [Prod.mk.injEq] at hprogram
  cases hc : p.analyze.2 with
  | error failure => simp [hc, Except.toOption] at hprogram
  | ok c =>
    obtain ⟨codes, data, literals, hgen, hcompile, hcodes, h⟩ := Compilation.consistentLabels hp hc false
    exact ⟨p, c, codes, data, literals, hp, hc, hgen, h.payloads.trans hprogram.2, hcompile, hcodes, h⟩

end Arvore
