import Mathlib
import Arvore.Proofs.Sequence
import Arvore.Proofs.Suite.Document

/-!
# The cases of a document

The reader goes through the blocks of a document and keeps the case that is open. A fenced block changes the open
case in one of three ways (`Case.add_eq_ok_iff`), so the blocks of a section add up to its last program and all its
assertions (`Case.addAll_eq_ok_iff`). A case is complete when the next one is opened, and the last one at the end
of the document. So every section becomes one case, or the document is refused (`suite_split_without_loss`).
Whether a section has a program is seen from the content alone: a blank program may be followed by another
(`several_inputs_refused`).
-/

namespace Arvore.Suite

open Markdown

/-! ### One fenced block -/

theorem Purpose.ofLanguage_eq_prose_iff {language : String} : ofLanguage language = prose ↔ language = "" := by
  unfold ofLanguage
  split_ifs <;> simp_all

theorem Purpose.ofLanguage_eq_input_iff {language : String} : ofLanguage language = input ↔ language = "por-tree" := by
  unfold ofLanguage
  split_ifs <;> simp_all [inputLanguage, AssertionKind.language]

theorem Purpose.ofLanguage_eq_assertion_iff {language : String} {kind : AssertionKind} :
    ofLanguage language = assertion kind ↔ language = kind.language := by
  unfold ofLanguage
  cases kind <;> split_ifs <;> simp_all [inputLanguage, AssertionKind.language]

theorem AssertionKind.expectation_eq_ok_iff {kind : AssertionKind} {content : String} {e : Expectation} :
    kind.expectation content = .ok e ↔
      e.kind = kind ∧ ∀ listing, e = .symbols listing → Datum.parse content.toList = .ok listing := by
  cases kind with
  | assembly | diagnostic => cases e <;> simp [expectation, Expectation.kind]
  | symbols =>
    cases h : Datum.parse content.toList <;> cases e <;>
      simp [expectation, Expectation.kind, h, Except.map, eq_comm]

/-- An assertion is read from a fenced block of its kind, and a listing from the content. -/
theorem asserts_iff {f : Fenced} {a : Assertion} : Asserts f a ↔
    ∃ kind : AssertionKind, f.language = kind.language ∧
      kind.expectation (withoutLineEnds f.content) = .ok a.expectation ∧
      a.content = withoutLineEnds f.content ∧ a.line = f.line := by
  constructor
  · rintro ⟨hlanguage, hcontent, hline, hlisting⟩
    rw [strips_iff] at hcontent
    refine ⟨a.expectation.kind, hlanguage.symm, ?_, hcontent, hline⟩
    rw [← hcontent]
    exact AssertionKind.expectation_eq_ok_iff.2 ⟨rfl, hlisting⟩
  · rintro ⟨kind, hlanguage, hexpectation, hcontent, hline⟩
    rw [← hcontent] at hexpectation
    obtain ⟨rfl, hlisting⟩ := AssertionKind.expectation_eq_ok_iff.1 hexpectation
    exact ⟨hlanguage.symm, strips_iff.2 hcontent, hline, hlisting⟩

namespace Case

/-- What becomes of a case when a fenced block is added. -/
theorem add_eq_ok_iff {c c' : Case} {f : Fenced} : c.add f.language f.content f.line = .ok c' ↔
    (f.language = "" ∧ c' = c) ∨
    (f.language = "por-tree" ∧ c.input = "" ∧ c' = { c with input := withoutLineEnds f.content }) ∨
    ∃ a, Asserts f a ∧ c' = { c with assertions := c.assertions ++ [a] } := by
  have hprose : f.language = "" ↔ _ := Purpose.ofLanguage_eq_prose_iff.symm
  have hinput : f.language = "por-tree" ↔ _ := Purpose.ofLanguage_eq_input_iff.symm
  simp only [hprose, hinput, asserts_iff, ← Purpose.ofLanguage_eq_assertion_iff]
  rw [add]
  cases Purpose.ofLanguage f.language with
  | prose => simpa using eq_comm
  | input =>
    by_cases h : c.input = ""
    · simpa [h] using eq_comm
    · simp [h]
  | assertion kind =>
    cases h : kind.expectation (withoutLineEnds f.content) with
    | error e => simp [h]
    | ok e =>
      simp only [h, reduceCtorEq, false_and, false_or, Purpose.assertion.injEq]
      constructor
      · intro hc
        cases hc
        exact ⟨_, ⟨kind, rfl, h, rfl, rfl⟩, rfl⟩
      · rintro ⟨⟨expectation, content, line⟩, ⟨kind', rfl, hexpectation, rfl, rfl⟩, rfl⟩
        cases h.symm.trans hexpectation
        rfl
  | unknown => simp

end Case

theorem Asserts.mem_languages {f : Fenced} {a : Assertion} (h : Asserts f a) :
    f.language ∈ assertionLanguages := by
  rw [← h.language]
  cases a.expectation.kind <;> decide

/-! ### The fenced blocks of a section -/

/-- What becomes of the input of a case by programs that are added. Only a blank one can be followed by another. -/
def Leads (input : String) (fs : List Fenced) (input' : String) : Prop :=
  fs = [] ∧ input' = input ∨
    input = "" ∧ ∃ (blanks : List Fenced) (f : Fenced),
      fs = blanks ++ [f] ∧ (∀ g ∈ blanks, g.Blank) ∧ Strips f.content input'

theorem leads_cons_iff {input input' : String} {f : Fenced} {rest : List Fenced} :
    Leads input (f :: rest) input' ↔ input = "" ∧ Leads (withoutLineEnds f.content) rest input' := by
  constructor
  · rintro (⟨h, -⟩ | ⟨hinput, blanks, g, heq, hblank, hg⟩)
    · cases h
    · refine ⟨hinput, ?_⟩
      cases blanks with
      | nil =>
        cases heq
        exact .inl ⟨rfl, strips_iff.1 hg⟩
      | cons b blanks =>
        cases heq
        exact .inr ⟨Fenced.blank_iff.1 (hblank _ (by simp)), blanks, g, rfl, fun x hx => hblank x (by simp [hx]), hg⟩
  · rintro ⟨hinput, ⟨rfl, rfl⟩ | ⟨hf, blanks, g, rfl, hblank, hg⟩⟩
    · exact .inr ⟨hinput, [], f, rfl, by simp, strips_iff.2 rfl⟩
    · refine .inr ⟨hinput, f :: blanks, g, rfl, ?_, hg⟩
      rintro x (_ | ⟨_, hx⟩)
      · exact Fenced.blank_iff.2 hf
      · exact hblank x hx

/-- What becomes of a case by the fenced blocks of its section. -/
structure Case.Takes (c : Case) (fs : List Fenced) (c' : Case) : Prop where
  languages : ∀ f ∈ fs, f.language ∈ "" :: "por-tree" :: assertionLanguages
  name : c'.name = c.name
  input : Leads c.input (inputsOf fs) c'.input
  assertions : ∃ added, List.Forall₂ Asserts (assertionsOf fs) added ∧ c'.assertions = c.assertions ++ added

namespace Case

variable {c c' : Case} {f : Fenced} {rest : List Fenced}

theorem takes_nil_iff : c.Takes [] c' ↔ c' = c := by
  constructor
  · rintro ⟨-, hname, hinput, added, hadded, hassertions⟩
    rcases hinput with ⟨-, hinput⟩ | ⟨-, blanks, f, hf, -⟩
    · cases hadded
      rw [List.append_nil] at hassertions
      obtain ⟨name, input, as⟩ := c'
      cases hname
      cases hinput
      cases hassertions
      rfl
    · simp [inputsOf] at hf
  · rintro rfl
    exact ⟨by simp, rfl, .inl ⟨rfl, rfl⟩, [], .nil, (List.append_nil _).symm⟩

theorem takes_cons_of_prose (hf : f.language = "") : c.Takes (f :: rest) c' ↔ c.Takes rest c' := by
  have hinputs : inputsOf (f :: rest) = inputsOf rest := by simp [inputsOf, hf]
  have hassertions : assertionsOf (f :: rest) = assertionsOf rest := by simp [assertionsOf, assertionLanguages, hf]
  constructor
  · rintro ⟨hlanguages, hname, hinput, has⟩
    rw [hinputs] at hinput
    rw [hassertions] at has
    exact ⟨(List.forall_mem_cons.1 hlanguages).2, hname, hinput, has⟩
  · rintro ⟨hlanguages, hname, hinput, has⟩
    rw [← hinputs] at hinput
    rw [← hassertions] at has
    exact ⟨List.forall_mem_cons.2 ⟨by simp [hf], hlanguages⟩, hname, hinput, has⟩

theorem takes_cons_of_input (hf : f.language = "por-tree") : c.Takes (f :: rest) c' ↔
    c.input = "" ∧ Takes { c with input := withoutLineEnds f.content } rest c' := by
  have hinputs : inputsOf (f :: rest) = f :: inputsOf rest := by simp [inputsOf, hf]
  have hassertions : assertionsOf (f :: rest) = assertionsOf rest := by simp [assertionsOf, assertionLanguages, hf]
  constructor
  · rintro ⟨hlanguages, hname, hinput, has⟩
    rw [hinputs, leads_cons_iff] at hinput
    rw [hassertions] at has
    exact ⟨hinput.1, (List.forall_mem_cons.1 hlanguages).2, hname, hinput.2, has⟩
  · rintro ⟨hempty, hlanguages, hname, hinput, has⟩
    refine ⟨List.forall_mem_cons.2 ⟨by simp [hf], hlanguages⟩, hname, ?_, ?_⟩
    · rw [hinputs]
      exact leads_cons_iff.2 ⟨hempty, hinput⟩
    · rw [hassertions]
      exact has

theorem takes_cons_of_assertion (hf : f.language ∈ assertionLanguages) : c.Takes (f :: rest) c' ↔
    ∃ a, Asserts f a ∧ Takes { c with assertions := c.assertions ++ [a] } rest c' := by
  have hne : f.language ≠ "por-tree" := by
    intro heq
    rw [heq] at hf
    revert hf
    decide
  have hinputs : inputsOf (f :: rest) = inputsOf rest := by simp [inputsOf, hne]
  have hassertions : assertionsOf (f :: rest) = f :: assertionsOf rest := by simp [assertionsOf, hf]
  constructor
  · rintro ⟨hlanguages, hname, hinput, added, hadded, has⟩
    rw [hinputs] at hinput
    rw [hassertions] at hadded
    obtain ⟨a, others, ha, hothers, rfl⟩ := List.forall₂_cons_left_iff.1 hadded
    refine ⟨a, ha, (List.forall_mem_cons.1 hlanguages).2, hname, hinput, others, hothers, ?_⟩
    rw [has, List.append_assoc]
    rfl
  · rintro ⟨a, ha, hlanguages, hname, hinput, others, hothers, has⟩
    rw [← hinputs] at hinput
    refine ⟨List.forall_mem_cons.2 ⟨by simp [hf], hlanguages⟩, hname, hinput, a :: others, ?_, ?_⟩
    · rw [hassertions]
      exact .cons ha hothers
    · rw [has, List.append_assoc]
      rfl

/-- Adds fenced blocks to a case. -/
def addAll (c : Case) (fs : List Fenced) : Except Error Case :=
  fs.foldlM (fun c f => c.add f.language f.content f.line) c

/-- The fenced blocks of a section add up to its last program and all its assertions. -/
theorem addAll_eq_ok_iff {fs : List Fenced} : c.addAll fs = .ok c' ↔ c.Takes fs c' := by
  induction fs generalizing c with
  | nil =>
    have hnil : c.addAll [] = .ok c := rfl
    rw [takes_nil_iff, hnil, Except.ok.injEq]
    exact eq_comm
  | cons f rest ih =>
    have hcons : c.addAll (f :: rest) = .ok c' ↔
        ∃ c₁, c.add f.language f.content f.line = .ok c₁ ∧ c₁.addAll rest = .ok c' := by
      rw [addAll, List.foldlM_cons, bind_eq_ok_iff]
      rfl
    simp only [hcons, add_eq_ok_iff, ih]
    constructor
    · rintro ⟨c₁, ⟨hf, rfl⟩ | ⟨hf, hempty, rfl⟩ | ⟨a, ha, rfl⟩, h⟩
      · exact (takes_cons_of_prose hf).2 h
      · exact (takes_cons_of_input hf).2 ⟨hempty, h⟩
      · exact (takes_cons_of_assertion ha.mem_languages).2 ⟨a, ha, h⟩
    · intro h
      have hlanguage := h.languages f List.mem_cons_self
      rw [List.mem_cons, List.mem_cons] at hlanguage
      rcases hlanguage with hf | hf | hf
      · exact ⟨c, .inl ⟨hf, rfl⟩, (takes_cons_of_prose hf).1 h⟩
      · obtain ⟨hempty, h⟩ := (takes_cons_of_input hf).1 h
        exact ⟨_, .inr (.inl ⟨hf, hempty, rfl⟩), h⟩
      · obtain ⟨a, ha, h⟩ := (takes_cons_of_assertion hf).1 h
        exact ⟨_, .inr (.inr ⟨a, ha, rfl⟩), h⟩

end Case

/-! ### Sections one after the other -/

/-- The case that is read from a section, with nothing missing in it. -/
def Section.Yields (s : Section) (c : Case) : Prop :=
  Case.addAll { name := s.name } (fences s.body) = .ok c ∧ c.lack? = none

theorem Case.finish_eq_ok_iff {c c' : Case} {last : Bool} : c.finish last = .ok c' ↔ c.lack? = none ∧ c' = c := by
  rw [finish]
  cases c.lack? <;> simp [eq_comm]

/-- Headings that open no case are passed over. -/
theorem casesFrom_append {body : List Block} (h : Closed body) (c : Case) (rest : List Block) :
    casesFrom c (body ++ rest) = c.addAll (fences body) >>= fun c' => casesFrom c' rest := by
  induction body generalizing c with
  | nil => rfl
  | cons b body ih =>
    have hbody := (closed_cons_iff.1 h).2
    cases b with
    | heading text =>
      rw [List.cons_append, casesFrom, h.name?_eq_none, fences_heading]
      exact ih hbody c
    | fence language content line =>
      rw [List.cons_append, casesFrom, fences_fence, Case.addAll, List.foldlM_cons, bind_assoc]
      exact bind_congr fun c' => ih hbody c'

theorem casesFrom_nil_eq_ok_iff {c : Case} {cs : List Case} : casesFrom c [] = .ok cs ↔ c.lack? = none ∧ cs = [c] := by
  simp only [casesFrom, bind_eq_ok_iff, Case.finish_eq_ok_iff]
  constructor
  · rintro ⟨c', ⟨hlack, rfl⟩, h⟩
    cases h
    exact ⟨hlack, rfl⟩
  · rintro ⟨hlack, rfl⟩
    exact ⟨c, ⟨hlack, rfl⟩, rfl⟩

theorem casesFrom_blocks_eq_ok_iff {c : Case} {s : Section} {rest : List Block} {cs : List Case} :
    casesFrom c (s.blocks ++ rest) = .ok cs ↔
      c.lack? = none ∧ ∃ others, casesFrom { name := s.name } (s.body ++ rest) = .ok others ∧ cs = c :: others := by
  rw [Section.blocks, List.cons_append, casesFrom, name?_title]
  simp only [bind_eq_ok_iff, Case.finish_eq_ok_iff]
  constructor
  · rintro ⟨c', ⟨hlack, rfl⟩, others, hothers, h⟩
    cases h
    exact ⟨hlack, others, hothers, rfl⟩
  · rintro ⟨hlack, others, hothers, rfl⟩
    exact ⟨c, ⟨hlack, rfl⟩, others, hothers, rfl⟩

/-- A case is complete when the next one is opened, and at the end of the document. -/
theorem casesFrom_sections_eq_ok_iff {c : Case} {ss : List Section} {cs : List Case} :
    casesFrom c (ss.flatMap Section.blocks) = .ok cs ↔
      c.lack? = none ∧ ∃ others, List.Forall₂ Section.Yields ss others ∧ cs = c :: others := by
  induction ss generalizing c cs with
  | nil =>
    rw [List.flatMap_nil, casesFrom_nil_eq_ok_iff]
    simp
  | cons s ss ih =>
    rw [List.flatMap_cons, casesFrom_blocks_eq_ok_iff, casesFrom_append s.closed]
    simp only [bind_eq_ok_iff, ih, List.forall₂_cons_left_iff, Section.Yields, and_assoc, exists_and_left]

theorem checkOutside_eq_ok_iff {language : String} {line : Nat} :
    checkOutside language line = .ok () ↔ language = "" := by
  rw [← Purpose.ofLanguage_eq_prose_iff, checkOutside]
  cases Purpose.ofLanguage language <;> simp

/-- The cases of a document are those of its sections, and there is nothing for the reader outside of them. -/
theorem Document.cases_eq_ok_iff {d : Document} {cs : List Case} : cases d.blocks = .ok cs ↔
    (∀ f ∈ fences d.preamble, f.language = "") ∧ List.Forall₂ Section.Yields d.sections cs := by
  obtain ⟨preamble, sections, hclosed⟩ := d
  rw [Document.blocks]
  dsimp only
  induction preamble with
  | nil =>
    cases sections with
    | nil => simp [cases]
    | cons s sections =>
      rw [List.nil_append, List.flatMap_cons, Section.blocks, List.cons_append, cases, name?_title]
      simp only [casesFrom_append s.closed, bind_eq_ok_iff, casesFrom_sections_eq_ok_iff, List.forall₂_cons_left_iff,
        Section.Yields, and_assoc, exists_and_left]
      simp
  | cons b preamble ih =>
    have hpreamble := (closed_cons_iff.1 hclosed).2
    cases b with
    | heading text =>
      rw [List.cons_append, cases, hclosed.name?_eq_none, fences_heading]
      exact ih hpreamble
    | fence language content line =>
      rw [List.cons_append, cases, fences_fence, List.forall_mem_cons, and_assoc, ← ih hpreamble, bind_eq_ok_iff]
      constructor
      · rintro ⟨_, hline, hrest⟩
        exact ⟨checkOutside_eq_ok_iff.1 hline, hrest⟩
      · rintro ⟨hlanguage, hrest⟩
        exact ⟨(), checkOutside_eq_ok_iff.2 hlanguage, hrest⟩

/-! ### Suites -/

theorem Case.lack?_eq_none_iff {c : Case} : c.lack? = none ↔ c.input ≠ "" ∧ c.assertions ≠ [] := by
  rw [lack?]
  split_ifs <;> simp_all

/-- A section yields the case that it gives, if it is complete and knows all its languages. -/
theorem Section.yields_iff {s : Section} {c : Case} : s.Yields c ↔
    (∀ f ∈ fences s.body, f.language ∈ "" :: "por-tree" :: assertionLanguages) ∧ s.HasInput ∧ s.assertions ≠ [] ∧
      s.Gives c := by
  rw [Section.Yields, Case.addAll_eq_ok_iff, Case.lack?_eq_none_iff]
  constructor
  · rintro ⟨⟨hlanguages, hname, hleads, added, hadded, hassertions⟩, hinput, hnonempty⟩
    rw [List.nil_append] at hassertions
    subst hassertions
    refine ⟨hlanguages, ?_⟩
    -- without a program the input would be empty
    rcases hleads with ⟨-, hempty⟩ | ⟨-, blanks, f, hf, hblank, hstrips⟩
    · exact absurd hempty hinput
    · refine ⟨⟨blanks, f, hf, hblank, ?_⟩, ?_, hname, ⟨blanks, f, hf, hstrips⟩, hadded⟩
      · rwa [Fenced.blank_iff, ← strips_iff.1 hstrips]
      · intro hnone
        rw [Section.assertions] at hnone
        rw [hnone, List.forall₂_nil_left_iff] at hadded
        exact hnonempty hadded
  · rintro ⟨hlanguages, ⟨blanks, f, hf, hblank, hnot⟩, hnonempty, hname, ⟨blanks', f', hf', hstrips⟩, hadded⟩
    obtain ⟨rfl, hlast⟩ := List.append_inj' (hf.symm.trans hf') rfl
    cases hlast
    refine ⟨⟨hlanguages, hname, .inr ⟨rfl, blanks, f, hf, hblank, hstrips⟩, _, hadded, rfl⟩, ?_, ?_⟩
    · rwa [Fenced.blank_iff, ← strips_iff.1 hstrips] at hnot
    · intro hnone
      rw [hnone, List.forall₂_nil_right_iff] at hadded
      exact hnonempty hadded

/-- Every fenced block of an assertion can be read, apart from listings that are no data. -/
theorem exists_asserts_iff {f : Fenced} (hf : f.language ∈ assertionLanguages) : (∃ a, Asserts f a) ↔
    (f.language = "symbols" → ∃ text listing, Strips f.content text ∧ Datum.parse text.toList = .ok listing) := by
  constructor
  · rintro ⟨a, ha⟩ hsymbols
    have hkind : a.expectation.kind.language = "symbols" := ha.language.trans hsymbols
    cases he : a.expectation with
    | assembly | diagnostic => simp [he, Expectation.kind, AssertionKind.language] at hkind
    | symbols listing => exact ⟨a.content, listing, ha.content, ha.listing listing he⟩
  · intro h
    simp only [assertionLanguages, List.mem_cons, List.not_mem_nil, or_false] at hf
    rcases hf with hf | hf | hf
    · refine ⟨⟨.assembly, withoutLineEnds f.content, f.line⟩, hf.symm, strips_iff.2 rfl, rfl, fun listing he => ?_⟩
      cases he
    · refine ⟨⟨.diagnostic, withoutLineEnds f.content, f.line⟩, hf.symm, strips_iff.2 rfl, rfl, fun listing he => ?_⟩
      cases he
    · obtain ⟨text, listing, hstrips, hparse⟩ := h hf
      refine ⟨⟨.symbols listing, text, f.line⟩, hf.symm, hstrips, rfl, fun listing' he => ?_⟩
      cases he
      exact hparse

private theorem exists_forall₂_iff {α β : Type} {R : α → β → Prop} {xs : List α} :
    (∃ ys, List.Forall₂ R xs ys) ↔ ∀ x ∈ xs, ∃ y, R x y := by
  induction xs with
  | nil => simp
  | cons x xs ih =>
    rw [List.forall_mem_cons, ← ih]
    constructor
    · rintro ⟨_, h⟩
      cases h with
      | cons hx hxs => exact ⟨⟨_, hx⟩, ⟨_, hxs⟩⟩
    · rintro ⟨⟨y, hx⟩, ⟨ys, hxs⟩⟩
      exact ⟨y :: ys, .cons hx hxs⟩

/-- A section gives a case exactly if it has a program and its listings can be read. -/
theorem Section.exists_gives_iff {s : Section} (hs : s.HasInput) : (∃ c, s.Gives c) ↔
    ∀ f ∈ fences s.body, f.language = "symbols" →
      ∃ text listing, Strips f.content text ∧ Datum.parse text.toList = .ok listing := by
  have hgives : (∃ c, s.Gives c) ↔ ∃ as, List.Forall₂ Asserts s.assertions as := by
    constructor
    · rintro ⟨c, hc⟩
      exact ⟨c.assertions, hc.assertions⟩
    · rintro ⟨as, has⟩
      obtain ⟨blanks, f, hf, -, -⟩ := hs
      exact ⟨⟨s.name, withoutLineEnds f.content, as⟩, rfl, ⟨blanks, f, hf, strips_iff.2 rfl⟩, has⟩
  rw [hgives, exists_forall₂_iff]
  constructor
  · intro h f hf hsymbols
    have hlanguage : f.language ∈ assertionLanguages := by simp [assertionLanguages, hsymbols]
    exact (exists_asserts_iff hlanguage).1 (h f (List.mem_filter.2 ⟨hf, by simpa using hlanguage⟩)) hsymbols
  · intro h f hf
    obtain ⟨hf, hlanguage⟩ := List.mem_filter.1 hf
    exact (exists_asserts_iff (by simpa using hlanguage)).2 (h f hf)

/-- Exactly the acceptable documents are read. -/
theorem Document.exists_cases_iff {d : Document} : (∃ cs, cases d.blocks = .ok cs) ↔ d.Acceptable := by
  have hyields : (∃ cs, cases d.blocks = .ok cs) ↔
      (∀ f ∈ fences d.preamble, f.language = "") ∧ ∀ s ∈ d.sections, ∃ c, s.Yields c := by
    simp only [Document.cases_eq_ok_iff, exists_and_left, exists_forall₂_iff]
  rw [hyields]
  simp only [Section.yields_iff, exists_and_left]
  constructor
  · rintro ⟨hpreamble, hsections⟩
    refine ⟨⟨hpreamble, fun f hf => ?_, fun f hf hsymbols => ?_, fun s hs => (hsections s hs).2.2.1⟩,
      fun s hs => (hsections s hs).2.1⟩
    · rcases mem_fences_iff.1 hf with hf | ⟨s, hs, hf⟩
      · simp [hpreamble f hf]
      · exact (hsections s hs).1 f hf
    · rcases mem_fences_iff.1 hf with hf | ⟨s, hs, hf⟩
      · simp [hpreamble f hf] at hsymbols
      · obtain ⟨-, hinput, -, hgives⟩ := hsections s hs
        exact (Section.exists_gives_iff hinput).1 hgives f hf hsymbols
  · intro h
    refine ⟨h.preamble, fun s hs => ⟨fun f hf => ?_, h.inputs s hs, h.assertions s hs, ?_⟩⟩
    · exact h.languages f (mem_fences_iff.2 (.inr ⟨s, hs, hf⟩))
    · refine (Section.exists_gives_iff (h.inputs s hs)).2 fun f hf => ?_
      exact h.listings f (mem_fences_iff.2 (.inr ⟨s, hs, hf⟩))

/-- A document is split into its sections without loss. It is read exactly if it is acceptable, and then every section
gives one case, in order. -/
theorem suite_split_without_loss (blocks : List Block) : ∃ d : Document, d.blocks = blocks ∧
    ((∃ cs, cases blocks = .ok cs) ↔ d.Acceptable) ∧
    ∀ cs, cases blocks = .ok cs → List.Forall₂ Section.Gives d.sections cs := by
  obtain ⟨d, rfl⟩ := Document.exists_blocks_eq blocks
  refine ⟨d, rfl, Document.exists_cases_iff, fun cs h => ?_⟩
  exact (Document.cases_eq_ok_iff.1 h).2.imp fun s c hc => (Section.yields_iff.1 hc).2.2.2

/-- The last program of a section with an input is the only one that is not blank. -/
theorem Section.hasInput_iff {s : Section} :
    s.HasInput ↔ (∀ f ∈ s.inputs.dropLast, f.Blank) ∧ ∃ f ∈ s.inputs, ¬ f.Blank := by
  constructor
  · rintro ⟨blanks, g, hg, hblank, hnot⟩
    rw [hg, List.dropLast_concat]
    exact ⟨hblank, g, by simp, hnot⟩
  · rintro ⟨hblank, f, hf, hnot⟩
    rcases List.eq_nil_or_concat s.inputs with hnil | ⟨blanks, g, hg⟩
    · simp [hnil] at hf
    · rw [List.concat_eq_append] at hg
      rw [hg, List.dropLast_concat] at hblank
      refine ⟨blanks, g, hg, hblank, fun hgblank => hnot ?_⟩
      rw [hg, List.mem_append, List.mem_singleton] at hf
      rcases hf with hf | rfl
      · exact hblank f hf
      · exact hgblank

/-- A section with several programs is refused if one of them that is followed by another is not blank, and also if all
of them are blank. Blank ones are passed over: if they are all that stands before the last program, and this one is not
blank, nothing is found wrong. -/
theorem several_inputs_refused (d : Document) :
    ((∃ s ∈ d.sections, (∃ f ∈ s.inputs.dropLast, ¬ f.Blank) ∨ ∀ f ∈ s.inputs, f.Blank) →
      ∃ e, cases d.blocks = .error e) ∧
    (d.Orderly → (∀ s ∈ d.sections, (∀ f ∈ s.inputs.dropLast, f.Blank) ∧ ∃ f ∈ s.inputs, ¬ f.Blank) →
      ∃ cs, cases d.blocks = .ok cs) := by
  constructor
  · rintro ⟨s, hs, hrefused⟩
    cases h : cases d.blocks with
    | error e => exact ⟨e, rfl⟩
    | ok cs =>
      have hinput : s.HasInput := (Document.exists_cases_iff.1 ⟨cs, h⟩).inputs s hs
      obtain ⟨hblank, g, hg, hnot⟩ := Section.hasInput_iff.1 hinput
      rcases hrefused with ⟨f, hf, hf'⟩ | hall
      · exact absurd (hblank f hf) hf'
      · exact absurd (hall g hg) hnot
  · intro horderly hinputs
    exact Document.exists_cases_iff.2 ⟨horderly, fun s hs => Section.hasInput_iff.2 (hinputs s hs)⟩

/-- A case with two programs. -/
def twoPrograms : List Char :=
  "## Test: x\n\n```por-tree\n(program)\n```\n\n```asm\nret\n```\n\n```por-tree\n(program)\n```\n".toList

theorem twoPrograms_refused : ∃ e, read twoPrograms = .error e := by
  let body : List Block :=
    [.fence "por-tree" "(program)\n" 4, .fence "asm" "ret\n" 8, .fence "por-tree" "(program)\n" 12]
  let d : Document := ⟨[], [⟨"x", body, by simp [body, Closed]⟩], .nil⟩
  have hblocks : blocks twoPrograms = d.blocks := by
    apply of_literal (P := (blocks · = d.blocks))
    decide +kernel
  rw [read, hblocks]
  refine (several_inputs_refused d).1 ⟨_, List.mem_singleton_self _, .inl ⟨⟨"por-tree", "(program)\n", 4⟩, ?_, ?_⟩⟩
  · decide +kernel
  · intro hblank
    exact absurd (hblank '(' (by decide +kernel)) (by decide)

/-- A case with two programs, of which the first is blank. -/
def blankProgram : List Char :=
  "## Test: x\n\n```por-tree\n```\n\n```por-tree\n(program)\n```\n\n```asm\nret\n```\n".toList

/-- The second of two programs is taken without a word about the first. -/
theorem blankProgram_read : ∃ (d : Document) (s : Section) (c : Case), blocks blankProgram = d.blocks ∧ s ∈ d.sections ∧
    s.inputs.length = 2 ∧ read blankProgram = .ok [c] ∧ c.name = "x" ∧ c.input = "(program)" := by
  let body : List Block := [.fence "por-tree" "" 1, .fence "por-tree" "(program)\n" 7, .fence "asm" "ret\n" 11]
  let s : Section := ⟨"x", body, by simp [body, Closed]⟩
  have hblocks : blocks blankProgram = Document.blocks ⟨[], [s], .nil⟩ := by
    apply of_literal (P := (blocks · = _))
    decide +kernel
  have hread : (read blankProgram).toOption.map (fun cs => cs.map fun c => (c.name, c.input)) =
      some [("x", "(program)")] := by
    rw [read, hblocks]
    decide +kernel
  obtain ⟨cs, hcs, hnames⟩ := map_toOption_eq_some_iff.1 hread
  obtain ⟨c, rfl, hc⟩ := List.map_eq_singleton_iff.1 hnames
  obtain ⟨hname, hinput⟩ := Prod.mk.inj hc
  exact ⟨⟨[], [s], .nil⟩, s, c, hblocks, List.mem_singleton_self _, by decide +kernel, hcs, hname, hinput⟩

end Arvore.Suite
