import Mathlib
import Arvore.Suite.Case

/-!
# Documents of a suite

A document is what stands before the first case, and then one section for each case: the heading that opens it, and
the blocks up to the next such heading. Every sequence of blocks is a document in this sense, and none of its blocks is
lost (`Document.exists_blocks_eq`). What a document has to be like in order to be a suite is said section by section
(`Document.Acceptable`), and so is what becomes of it (`Section.Gives`).
-/

namespace Arvore.Suite

open Markdown

/-- A fenced block of a document. -/
structure Fenced where
  language : String
  content : String
  line : Nat
  deriving DecidableEq, Repr

/-- The fenced block that a block is. -/
def Fenced.ofBlock? : Block → Option Fenced
  | .heading _ => none
  | .fence language content line => some ⟨language, content, line⟩

/-- The fenced blocks among some blocks. -/
def fences (blocks : List Block) : List Fenced := blocks.filterMap Fenced.ofBlock?

/-- No heading among some blocks opens a case. -/
def Closed (blocks : List Block) : Prop := ∀ name, .heading ("Test: " ++ name) ∉ blocks

/-- A case as it is written: its name, and the blocks up to the next case. -/
structure Section where
  name : String
  body : List Block
  closed : Closed body

/-- The blocks of a section with its heading. -/
def Section.blocks (s : Section) : List Block := .heading ("Test: " ++ s.name) :: s.body

/-- What stands before the first case, and the cases. -/
structure Document where
  preamble : List Block
  sections : List Section
  closed : Closed preamble

/-- The blocks of a document. -/
def Document.blocks (d : Document) : List Block := d.preamble ++ d.sections.flatMap Section.blocks

theorem name?_eq_some_iff {text name : String} : name? text = some name ↔ text = "Test: " ++ name := by
  rw [name?, Option.map_eq_some_iff]
  constructor
  · rintro ⟨rest, hrest, rfl⟩
    rw [List.isPrefixOf?_eq_some_iff_append_eq] at hrest
    apply String.toList_inj.1
    rw [← hrest, String.toList_append]
    simp
  · rintro rfl
    refine ⟨name.toList, ?_, String.ofList_toList⟩
    rw [List.isPrefixOf?_eq_some_iff_append_eq, String.toList_append]

theorem name?_eq_none_iff {text : String} : name? text = none ↔ ∀ name, text ≠ "Test: " ++ name := by
  simp only [Option.eq_none_iff_forall_ne_some, ne_eq, name?_eq_some_iff]

theorem name?_title (name : String) : name? ("Test: " ++ name) = some name := name?_eq_some_iff.2 rfl

theorem Closed.nil : Closed [] := fun _ => List.not_mem_nil

theorem closed_cons_iff {b : Block} {rest : List Block} :
    Closed (b :: rest) ↔ (∀ name, b ≠ .heading ("Test: " ++ name)) ∧ Closed rest := by
  simp only [Closed, List.mem_cons, not_or, forall_and, eq_comm, ne_eq]

theorem Closed.name?_eq_none {text : String} {rest : List Block} (h : Closed (.heading text :: rest)) :
    name? text = none :=
  name?_eq_none_iff.2 fun name heq => (closed_cons_iff.1 h).1 name (congrArg _ heq)

/-- Every sequence of blocks is a document. -/
theorem Document.exists_blocks_eq (blocks : List Block) : ∃ d : Document, d.blocks = blocks := by
  induction blocks with
  | nil => exact ⟨⟨[], [], .nil⟩, rfl⟩
  | cons b rest ih =>
    obtain ⟨d, rfl⟩ := ih
    by_cases hb : ∃ name, b = .heading ("Test: " ++ name)
    · obtain ⟨name, rfl⟩ := hb
      -- what stood before the first case becomes the section of a case
      exact ⟨⟨[], ⟨name, d.preamble, d.closed⟩ :: d.sections, .nil⟩, rfl⟩
    · have hclosed : Closed (b :: d.preamble) := closed_cons_iff.2 ⟨not_exists.1 hb, d.closed⟩
      exact ⟨⟨b :: d.preamble, d.sections, hclosed⟩, rfl⟩

@[simp] theorem fences_nil : fences [] = [] := rfl

@[simp] theorem fences_append (a b : List Block) : fences (a ++ b) = fences a ++ fences b := List.filterMap_append

@[simp] theorem fences_heading (text : String) (rest : List Block) : fences (.heading text :: rest) = fences rest := rfl

@[simp] theorem fences_fence (language content : String) (line : Nat) (rest : List Block) :
    fences (.fence language content line :: rest) = ⟨language, content, line⟩ :: fences rest := rfl

theorem Document.mem_fences_iff {d : Document} {f : Fenced} :
    f ∈ fences d.blocks ↔ f ∈ fences d.preamble ∨ ∃ s ∈ d.sections, f ∈ fences s.body := by
  rw [Document.blocks, fences_append, List.mem_append]
  refine or_congr_right ?_
  rw [fences, List.filterMap_flatMap, List.mem_flatMap]
  rfl

/-! ### Line ends -/

/-- The text is the content without the line ends behind it. -/
structure Strips (content text : String) : Prop where
  rest : ∃ n, content.toList = text.toList ++ List.replicate n '\n'
  last : text.toList.getLast? ≠ some '\n'

/-- There is nothing but line ends in a fenced block. -/
def Fenced.Blank (f : Fenced) : Prop := ∀ c ∈ f.content.toList, c = '\n'

theorem strips_iff {content text : String} : Strips content text ↔ text = withoutLineEnds content := by
  constructor
  · rintro ⟨⟨n, hn⟩, hlast⟩
    have hdrop : text.toList.reverse.dropWhile (· = '\n') = text.toList.reverse := by
      rw [← List.head?_reverse] at hlast
      cases h : text.toList.reverse with
      | nil => rfl
      | cons c rest => exact List.dropWhile_cons_of_neg (by simpa [h] using hlast)
    apply String.toList_inj.1
    rw [withoutLineEnds, hn, List.reverse_append, List.reverse_replicate, List.dropWhile_append_of_pos (by simp), hdrop,
      List.reverse_reverse, String.ofList_toList]
  · rintro rfl
    have hall := List.takeWhile_append_dropWhile (p := (· = '\n')) (l := content.toList.reverse)
    have hends := List.eq_replicate_of_mem (l := content.toList.reverse.takeWhile (· = '\n')) (a := '\n')
      fun c hc => by simpa using List.mem_takeWhile_imp hc
    constructor
    · refine ⟨(content.toList.reverse.takeWhile (· = '\n')).length, ?_⟩
      rw [withoutLineEnds, String.toList_ofList, ← List.reverse_replicate, ← hends, ← List.reverse_append, hall,
        List.reverse_reverse]
    · rw [withoutLineEnds, String.toList_ofList, List.getLast?_reverse]
      intro hhead
      have hnot := List.head?_dropWhile_not (· = '\n') content.toList.reverse
      simp [hhead] at hnot

theorem Fenced.blank_iff {f : Fenced} : f.Blank ↔ withoutLineEnds f.content = "" := by
  rw [withoutLineEnds, Fenced.Blank, ← String.toList_inj, String.toList_ofList]
  simp [List.dropWhile_eq_nil_iff]

/-! ### Suites -/

/-- The languages of assertions. -/
def assertionLanguages : List String := ["asm", "compile-error", "symbols"]

/-- The programs among fenced blocks. -/
def inputsOf (fs : List Fenced) : List Fenced := fs.filter (·.language = "por-tree")

/-- The assertions among fenced blocks. -/
def assertionsOf (fs : List Fenced) : List Fenced := fs.filter (·.language ∈ assertionLanguages)

/-- The programs of a section. -/
def Section.inputs (s : Section) : List Fenced := inputsOf (fences s.body)

/-- The assertions of a section. -/
def Section.assertions (s : Section) : List Fenced := assertionsOf (fences s.body)

/-- What every suite is like, whatever programs its sections have. -/
structure Document.Orderly (d : Document) : Prop where
  preamble : ∀ f ∈ fences d.preamble, f.language = ""
  languages : ∀ f ∈ fences d.blocks, f.language ∈ "" :: "por-tree" :: assertionLanguages
  listings : ∀ f ∈ fences d.blocks, f.language = "symbols" →
    ∃ text listing, Strips f.content text ∧ Datum.parse text.toList = .ok listing
  assertions : ∀ s ∈ d.sections, s.assertions ≠ []

/-- A section has one program. Blank ones before it do not count. -/
def Section.HasInput (s : Section) : Prop :=
  ∃ (blanks : List Fenced) (f : Fenced), s.inputs = blanks ++ [f] ∧ (∀ g ∈ blanks, g.Blank) ∧ ¬ f.Blank

/-- A document is a suite. -/
structure Document.Acceptable (d : Document) : Prop extends d.Orderly where
  inputs : ∀ s ∈ d.sections, s.HasInput

/-- An assertion says what is written in a fenced block. -/
structure Asserts (f : Fenced) (a : Assertion) : Prop where
  language : a.expectation.kind.language = f.language
  content : Strips f.content a.content
  line : a.line = f.line
  listing : ∀ listing, a.expectation = .symbols listing → Datum.parse a.content.toList = .ok listing

/-- The case that a section makes: its last program, and all its assertions in order. -/
structure Section.Gives (s : Section) (c : Case) : Prop where
  name : c.name = s.name
  input : ∃ (blanks : List Fenced) (f : Fenced), s.inputs = blanks ++ [f] ∧ Strips f.content c.input
  assertions : List.Forall₂ Asserts s.assertions c.assertions

end Arvore.Suite
