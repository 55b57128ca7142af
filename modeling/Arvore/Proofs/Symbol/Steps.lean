import Mathlib
import Arvore.Proofs.Analysis.Tiling

/-!
# Filling a table step by step

A table is filled by steps, each of which defines a given symbol or declares a variable, and each of which may fail.
After any steps the table holds what the successful ones have defined, in their order (`SymbolTable.entries_after`). The
first definition of a name stays: a later one fails and points at it, and nothing changes. A variable is placed below
everything that has a place, also below symbols whose places were chosen elsewhere
(`SymbolTable.first_definition_stays`).
-/

namespace Arvore

namespace SymbolTable

/-- What a table is asked to take in: a given symbol under a name, or a variable at the next free place. -/
inductive Step where
  | define (name : String) (symbol : Symbol)
  | declare (v : Variable)

namespace Step

/-- The name that a step defines. -/
def name : Step → String
  | define name _ => name
  | declare v => v.name

/-- The line of a step. -/
def line : Step → Int
  | define _ s => s.line
  | declare v => v.line

/-- A step that declares a variable needs a type that takes room. -/
def HasRoom : Step → Prop
  | define .. => True
  | declare v => v.type.size?.isSome

/-- The symbol `s` is what the step defines. The place of a variable is left open. -/
def Describes : Step → Symbol → Prop
  | define _ symbol, s => s = symbol
  | declare v, s => ∃ offset, s = v.symbol offset

/-- What a step defines in the table `t`, if it succeeds. -/
def Places (t : SymbolTable) : Step → Symbol → Prop
  | define _ symbol, s => s = symbol
  | declare v, s => ∃ size, v.type.size? = some size ∧ s = v.symbol (wrap (lowest t.symbols - size))

theorem Places.describes {t : SymbolTable} {step : Step} {s : Symbol} (h : step.Places t s) : step.Describes s := by
  cases step with
  | define name symbol => exact h
  | declare v =>
    obtain ⟨size, -, hs⟩ := h
    exact ⟨_, hs⟩

end Step

/-- The symbol that a step defines, and the table with it. -/
def perform (t : SymbolTable) : Step → Except Failure (Symbol × SymbolTable)
  | .define name s => ((t.define name s).mapError .diagnostic).map fun t' => (s, t')
  | .declare v => t.defineVariable v.name v.type v.line

/-- The symbol that a step defines, or why it fails. -/
def answer (t : SymbolTable) (step : Step) : Except Failure Symbol := (t.perform step).map Prod.fst

/-- The table after a step. It goes on as it was if the step fails. -/
def next (t : SymbolTable) (step : Step) : SymbolTable :=
  match t.perform step with
  | .ok (_, t') => t'
  | .error _ => t

/-- The table after some steps. -/
def after (t : SymbolTable) (steps : List Step) : SymbolTable := steps.foldl next t

/-- Steps with their answers. -/
def answers (t : SymbolTable) : List Step → List (Step × Except Failure Symbol)
  | [] => []
  | step :: rest => (step, t.answer step) :: (t.next step).answers rest

/-- What a step has defined, under which name. -/
def defined? : Step × Except Failure Symbol → Option (String × Symbol)
  | (step, .ok s) => some (step.name, s)
  | (_, .error _) => none

/-- What the successful ones of some steps define, in their order. -/
def defined (t : SymbolTable) (steps : List Step) : List (String × Symbol) := (t.answers steps).filterMap defined?

/-! ### One step -/

/-- A step succeeds, or its name is taken, or there is no room for its variable. -/
theorem perform_cases (t : SymbolTable) (step : Step) :
    (step.HasRoom ∧ t.find? step.name = none ∧ ∃ s, step.Places t s ∧
      t.perform step = .ok (s, ⟨t.entries ++ [(step.name, s)]⟩)) ∨
    (step.HasRoom ∧ ∃ previous, t.find? step.name = some previous ∧
      t.perform step = .error (.diagnostic ⟨step.line, .redeclared step.name previous.line⟩)) ∨
    (¬ step.HasRoom ∧ ∃ type, t.perform step = .error (.fault (.noStorage type))) := by
  cases step with
  | define name symbol =>
    cases h : t.find? name with
    | none => exact .inl ⟨trivial, h, symbol, rfl, by rw [perform, define, h]; rfl⟩
    | some previous => exact .inr (.inl ⟨trivial, previous, h, by rw [perform, define, h]; rfl⟩)
  | declare v =>
    cases hsize : v.type.size? with
    | none =>
      refine .inr (.inr ⟨by simp [Step.HasRoom, hsize], v.type, ?_⟩)
      rw [perform, defineVariable, nextOffset, hsize]
      rfl
    | some size =>
      have hroom : Step.HasRoom (.declare v) := by simp [Step.HasRoom, hsize]
      cases h : t.find? v.name with
      | none =>
        refine .inl ⟨hroom, h, v.symbol (wrap (lowest t.symbols - size)), ⟨size, hsize, rfl⟩, ?_⟩
        simp only [perform, defineVariable, nextOffset, hsize, define, h]
        rfl
      | some previous =>
        refine .inr (.inl ⟨hroom, previous, h, ?_⟩)
        simp only [perform, defineVariable, nextOffset, hsize, define, h]
        rfl

section Answer

variable {t : SymbolTable} {step : Step}

/-- A step with room for what it defines is turned away exactly if its name is taken. -/
theorem answer_eq_diagnostic_iff (hroom : step.HasRoom) {d : Diagnostic} :
    t.answer step = .error (.diagnostic d) ↔
      ∃ previous, t.find? step.name = some previous ∧ d = ⟨step.line, .redeclared step.name previous.line⟩ := by
  rcases t.perform_cases step with ⟨-, hnew, s, -, h⟩ | ⟨-, previous, hprevious, h⟩ | ⟨hno, -⟩
  · simp [answer, h, hnew, Except.map]
  · simp [answer, h, hprevious, Except.map, eq_comm]
  · exact absurd hroom hno

theorem exists_answer_eq_ok_iff :
    (∃ s, t.answer step = .ok s) ↔ step.HasRoom ∧ t.find? step.name = none := by
  rcases t.perform_cases step with ⟨hroom, hnew, s, -, h⟩ | ⟨-, previous, hprevious, h⟩ | ⟨hno, type, h⟩
  · simp [answer, h, hroom, hnew, Except.map]
  · simp [answer, h, hprevious, Except.map]
  · simp [answer, h, hno, Except.map]

theorem fault_of_not_hasRoom (hno : ¬ step.HasRoom) : ∃ type, t.answer step = .error (.fault (.noStorage type)) := by
  rcases t.perform_cases step with ⟨hroom, -⟩ | ⟨hroom, -⟩ | ⟨-, type, h⟩
  · exact absurd hroom hno
  · exact absurd hroom hno
  · exact ⟨type, by rw [answer, h]; rfl⟩

theorem places_of_answer {s : Symbol} (hs : t.answer step = .ok s) : step.Places t s := by
  rcases t.perform_cases step with ⟨-, -, s', hs', h⟩ | ⟨-, previous, -, h⟩ | ⟨-, type, h⟩ <;> rw [answer, h] at hs
  · cases hs
    exact hs'
  all_goals cases hs

end Answer

/-- A step adds what it defines, and nothing if it fails. -/
theorem entries_next (t : SymbolTable) (step : Step) :
    (t.next step).entries = t.entries ++ (defined? (step, t.answer step)).toList := by
  rcases t.perform_cases step with ⟨-, -, s, -, h⟩ | ⟨-, previous, -, h⟩ | ⟨-, type, h⟩
  · rw [next, answer, h]
    rfl
  all_goals
    rw [next, answer, h]
    exact (List.append_nil _).symm

/-- A step that fails changes nothing. -/
theorem next_of_answer_eq_error {t : SymbolTable} {step : Step} {failure : Failure}
    (h : t.answer step = .error failure) : t.next step = t := by
  rw [answer, map_eq_error_iff] at h
  rw [next, h]

/-- A name is never defined a second time. -/
theorem nodup_next {t : SymbolTable} (ht : (t.entries.map Prod.fst).Nodup) (step : Step) :
    ((t.next step).entries.map Prod.fst).Nodup := by
  rcases t.perform_cases step with ⟨-, hnew, s, -, h⟩ | ⟨-, previous, -, h⟩ | ⟨-, type, h⟩
  · rw [next, h, List.map_append]
    exact ht.append (List.nodup_singleton _) (by simpa using find?_eq_none_iff.1 hnew)
  all_goals
    rw [next, h]
    exact ht

/-! ### Places -/

/-- Everything that has a place stands at the lowest one or above it. -/
theorem lowest_le (symbols : List Symbol) :
    lowest symbols ≤ 0 ∧ ∀ r ∈ symbols, r.placed → lowest symbols ≤ r.offset := by
  induction symbols using List.reverseRecOn with
  | nil => simp
  | append_singleton symbols s ih =>
    obtain ⟨hzero, hle⟩ := ih
    rw [lowest_snoc]
    refine ⟨?_, fun r hr hplaced => ?_⟩
    · split <;> grind
    · rcases List.mem_append.1 hr with hr | hr
      · have hr := hle r hr hplaced
        split <;> grind
      · rw [List.mem_singleton] at hr
        subst hr
        split <;> grind

/-- The lowest place is the frame pointer or the place of a symbol. -/
theorem lowest_cases (symbols : List Symbol) :
    lowest symbols = 0 ∨ ∃ r ∈ symbols, r.placed ∧ lowest symbols = r.offset := by
  induction symbols using List.reverseRecOn with
  | nil => exact .inl rfl
  | append_singleton symbols s ih =>
    rw [lowest_snoc]
    split
    · rename_i h
      exact .inr ⟨s, by simp, by simp_all, rfl⟩
    · rcases ih with h | ⟨r, hr, hplaced, h⟩
      · exact .inl h
      · exact .inr ⟨r, List.mem_append_left _ hr, hplaced, h⟩

/-- A variable is placed below everything that has a place, and shares no bytes with it. -/
theorem Step.Places.below {t : SymbolTable} {v : Variable} {s : Symbol} (h : (Step.declare v).Places t s)
    (hfits : ∀ r ∈ t.symbols, r.placed → -9223372036854775808 + v.bytes ≤ r.offset) {r : Symbol} (hr : r ∈ t.symbols)
    (hplaced : r.placed) : s.offset < r.offset ∧ Disjoint s.range r.range := by
  obtain ⟨size, hsize, rfl⟩ := h
  have hbytes : v.bytes = size := by rw [Variable.bytes, hsize, Option.getD_some]
  have hpos := Ty.size?_pos hsize
  have hsmall := Ty.size?_le hsize
  obtain ⟨hzero, hle⟩ := lowest_le t.symbols
  have hlow : -9223372036854775808 ≤ lowest t.symbols - size := by
    rcases lowest_cases t.symbols with h | ⟨r', hr', hplaced', h⟩
    · omega
    · have hr' := hfits r' hr' hplaced'
      omega
  have hoffset := hle r hr hplaced
  rw [wrap_of_fits hlow (by omega)]
  refine ⟨by simp only [Variable.symbol]; omega, Set.disjoint_left.2 fun z hz hz' => ?_⟩
  -- the variable ends where the lowest symbol starts
  have hend := hz.2
  have hstart := hz'.1
  simp only [Variable.symbol, Symbol.bytes, hsize, Option.getD_some] at hend
  omega

/-! ### Steps one after the other -/

/-- After some steps the table holds what they have defined, in their order. -/
theorem entries_after (t : SymbolTable) (steps : List Step) :
    (t.after steps).entries = t.entries ++ t.defined steps := by
  induction steps generalizing t with
  | nil => exact (List.append_nil _).symm
  | cons step rest ih =>
    have hdefined : t.defined (step :: rest) =
        (defined? (step, t.answer step)).toList ++ (t.next step).defined rest := by
      rw [defined, answers, List.filterMap_cons]
      cases defined? (step, t.answer step) <;> rfl
    -- what the first step adds stands before what the others add
    rw [hdefined, ← List.append_assoc, ← entries_next]
    exact ih (t.next step)

theorem nodup_after {t : SymbolTable} (ht : (t.entries.map Prod.fst).Nodup) (steps : List Step) :
    ((t.after steps).entries.map Prod.fst).Nodup := by
  induction steps generalizing t with
  | nil => exact ht
  | cons step rest ih => exact ih (nodup_next ht step)

theorem find?_eq_some_iff {t : SymbolTable} (ht : (t.entries.map Prod.fst).Nodup) {name : String} {s : Symbol} :
    t.find? name = some s ↔ (name, s) ∈ t.entries := by
  constructor
  · intro h
    obtain ⟨l, l', hl, -⟩ := List.lookup_eq_some_iff.1 h
    simp [hl]
  · intro h
    cases hfound : t.find? name with
    | none => exact absurd (List.mem_map_of_mem h) (find?_eq_none_iff.1 hfound)
    | some s' =>
      obtain ⟨l, l', hl, -⟩ := List.lookup_eq_some_iff.1 hfound
      have hmem : (name, s') ∈ t.entries := by simp [hl]
      have heq := List.inj_on_of_nodup_map ht hmem h rfl
      rw [(Prod.mk.inj heq).2]

/-- The table has the symbols that were made, in their order and under names that differ. -/
structure Records (t : SymbolTable) (made : List (String × Symbol)) : Prop where
  names : (made.map Prod.fst).Nodup
  symbols : t.symbols = made.map Prod.snd
  found : ∀ name s, t.lookup name = .ok s ↔ (name, s) ∈ made
  absent : ∀ name, t.lookup name = .error ⟨0, .notFound name⟩ ↔ ∀ s, (name, s) ∉ made

/-- What becomes of one more step in a table that has the symbols that were made. -/
structure Serves (t : SymbolTable) (made : List (String × Symbol)) (step : Step) : Prop where
  /-- a step is turned away exactly if its name is defined, with the line of that definition -/
  redeclared : step.HasRoom → ∀ d, t.answer step = .error (.diagnostic d) ↔
    ∃ s, (step.name, s) ∈ made ∧ d = ⟨step.line, .redeclared step.name s.line⟩
  /-- a variable that takes no room is a mistake of the caller, whatever its name -/
  noRoom : ¬ step.HasRoom → ∃ type, t.answer step = .error (.fault (.noStorage type))
  succeeds : (∃ s, t.answer step = .ok s) ↔ step.HasRoom ∧ ∀ s, (step.name, s) ∉ made
  describes : ∀ s, t.answer step = .ok s → step.Describes s
  unchanged : ∀ failure, t.answer step = .error failure →
    (t.next step).symbols = t.symbols ∧ (t.next step).size = t.size ∧ (t.next step).last? = t.last? ∧
      (t.next step).frameSize = t.frameSize ∧ ∀ name, (t.next step).lookup name = t.lookup name
  /-- a variable is placed below all that is there, as long as its place is within the range of words -/
  below : ∀ v s, step = .declare v → t.answer step = .ok s →
    (∀ r ∈ t.symbols, r.placed → -9223372036854775808 + v.bytes ≤ r.offset) →
      ∀ r ∈ t.symbols, r.placed → s.offset < r.offset ∧ Disjoint s.range r.range

theorem records_entries {t : SymbolTable} (ht : (t.entries.map Prod.fst).Nodup) : t.Records t.entries := by
  refine ⟨ht, rfl, fun name s => ?_, fun name => ?_⟩
  · rw [lookup_eq_ok_iff, find?_eq_some_iff ht]
  · simp only [← find?_eq_some_iff ht, ← Option.eq_none_iff_forall_ne_some, ← ne_eq]
    rw [lookup]
    cases t.find? name <;> simp

theorem serves_entries {t : SymbolTable} (ht : (t.entries.map Prod.fst).Nodup) (step : Step) :
    t.Serves t.entries step := by
  constructor
  · intro hroom d
    simp only [answer_eq_diagnostic_iff hroom, find?_eq_some_iff ht]
  · exact fault_of_not_hasRoom
  · simp only [exists_answer_eq_ok_iff, Option.eq_none_iff_forall_ne_some, ne_eq, find?_eq_some_iff ht]
  · exact fun s hs => (places_of_answer hs).describes
  · intro failure h
    rw [next_of_answer_eq_error h]
    exact ⟨rfl, rfl, rfl, rfl, fun _ => rfl⟩
  · rintro v s rfl hs hfits r hr hplaced
    exact (places_of_answer hs).below hfits hr hplaced

/-- A table is an ordered map in which the first definition of a name stays, whatever steps it is filled by. -/
theorem first_definition_stays (before : List Step) (step : Step) :
    (after {} before).Records (defined {} before) ∧ (after {} before).Serves (defined {} before) step := by
  have hentries : (after {} before).entries = defined {} before := entries_after {} before
  have hnames : ((after {} before).entries.map Prod.fst).Nodup := nodup_after (t := {}) List.nodup_nil before
  rw [← hentries]
  exact ⟨records_entries hnames, serves_entries hnames step⟩

/-- A function under another name, a symbol with a place of its own, a variable, and two steps that fail. -/
def mixedSteps : List Step :=
  [.define "f" { name := "g", type := .function, line := 1 },
    .define "x" { name := "x", type := .real, line := 2, offset := -100, placed := true },
    .declare ⟨"y", .integer, 3⟩, .declare ⟨"f", .real, 4⟩, .declare ⟨"z", .void, 5⟩]

/-- The next variable is placed below the chosen place, and `x` is not defined again. -/
theorem mixedSteps_served : ∃ s, (after {} mixedSteps).answer (.declare ⟨"z", .logical, 6⟩) = .ok s ∧ s.offset = -105 ∧
    (∀ r ∈ (after {} mixedSteps).symbols, r.placed → s.offset < r.offset ∧ Disjoint s.range r.range) ∧
    (after {} mixedSteps).answer (.declare ⟨"x", .real, 7⟩) = .error (.diagnostic ⟨7, .redeclared "x" 2⟩) := by
  have hanswer : (after {} mixedSteps).answer (.declare ⟨"z", .logical, 6⟩) =
      .ok { name := "z", type := .logical, line := 6, offset := -105, placed := true } := by decide +kernel
  have hmade : ("x", ({ name := "x", type := .real, line := 2, offset := -100, placed := true } : Symbol)) ∈
      defined {} mixedSteps := by decide +kernel
  refine ⟨_, hanswer, rfl, ?_, ?_⟩
  · exact (first_definition_stays mixedSteps _).2.below _ _ rfl hanswer (by decide +kernel)
  · exact ((first_definition_stays mixedSteps (.declare ⟨"x", .real, 7⟩)).2.redeclared rfl _).2 ⟨_, hmade, rfl⟩

end SymbolTable

end Arvore
