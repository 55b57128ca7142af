import Mathlib
import Arvore.Proofs.Assembly.Allotment
import Arvore.Proofs.Symbol.Steps

/-!
# Tables and pools with an index

A table can be kept as a row of symbols with an index beside it, which maps each name to a place in the row, and a pool
as a row of literals with such an index and a map from categories to counts. An index could send a reader behind the end
of its row. Such a read has no answer (`none`), and what is said here is that it never happens: an index is kept in step
with its row (`InStep`), so every step and every request is answered, and as it is without an index
(`IndexedTable.run_agrees`, `IndexedPool.run_agrees`).
-/

namespace Arvore

/-! ### Indices -/

/-- The index has the first place of each key in a row, and no other keys. -/
def InStep {α κ : Type} [BEq κ] [Hashable κ] (index : Std.HashMap κ Nat) (key : α → κ) (row : List α) : Prop :=
  ∀ k, index[k]? = row.findIdx? (key · == k)

namespace InStep

variable {α κ : Type} [BEq κ] [Hashable κ] {index : Std.HashMap κ Nat} {key : α → κ} {row : List α}

theorem empty : InStep (∅ : Std.HashMap κ Nat) key [] := fun _ => Std.HashMap.getElem?_empty

/-- A key that is found leads to a place in the row, and to what is found there by going through the row. -/
theorem cases (h : InStep index key row) (k : κ) :
    (index[k]? = none ∧ row.find? (key · == k) = none) ∨
      ∃ i a, index[k]? = some i ∧ row[i]? = some a ∧ row.find? (key · == k) = some a := by
  rw [h k]
  cases hi : row.findIdx? (key · == k) with
  | none => exact .inl ⟨rfl, List.find?_eq_none.2 (by simpa using List.findIdx?_eq_none_iff.1 hi)⟩
  | some i =>
    obtain ⟨hlt, hkey, hfirst⟩ := List.findIdx?_eq_some_iff_getElem.1 hi
    refine .inr ⟨i, row[i], rfl, List.getElem?_eq_getElem hlt, ?_⟩
    exact List.find?_eq_some_iff_getElem.2 ⟨hkey, i, hlt, rfl, by simpa using hfirst⟩

/-- What has a new key is added to the row, and its place to the index. -/
theorem push [LawfulBEq κ] (h : InStep index key row) {a : α} (hnew : row.find? (key · == key a) = none) :
    InStep (index.insert (key a) row.length) key (row ++ [a]) := by
  intro k
  rw [Std.HashMap.getElem?_insert, List.findIdx?_append, h k, List.findIdx?_singleton]
  by_cases hk : key a == k
  · rw [eq_of_beq hk] at hnew
    have hnone : row.findIdx? (key · == k) = none := by
      rw [List.findIdx?_eq_none_iff]
      simpa using hnew
    simp [hk, hnone]
  · simp [hk]

end InStep

/-! ### Steps one after the other -/

/-- Takes steps one after the other and collects their answers, as long as every step has one. -/
def runAll {σ α β : Type} (step : σ → α → Option (β × σ)) : σ → List α → Option (List (α × β) × σ)
  | s, [] => some ([], s)
  | s, a :: rest => do
    let (answer, s') ← step s a
    let (answers, last) ← runAll step s' rest
    return ((a, answer) :: answers, last)

/-- If every step agrees with a plain one and keeps the two states related, then so do all steps together. -/
theorem runAll_agrees {σ τ α β : Type} {step : σ → α → Option (β × σ)} {R : σ → τ → Prop} {answer : τ → α → β}
    {next : τ → α → τ} {answers : τ → List α → List (α × β)}
    (hstep : ∀ s t a, R s t → ∃ s', step s a = some (answer t a, s') ∧ R s' (next t a)) (hnil : ∀ t, answers t [] = [])
    (hcons : ∀ t a rest, answers t (a :: rest) = (a, answer t a) :: answers (next t a) rest) {s : σ} {t : τ}
    (h : R s t) (as : List α) : ∃ s', runAll step s as = some (answers t as, s') ∧ R s' (as.foldl next t) := by
  induction as generalizing s t with
  | nil => exact ⟨s, by rw [runAll, hnil], h⟩
  | cons a rest ih =>
    obtain ⟨s₁, hfirst, h₁⟩ := hstep s t a h
    obtain ⟨s₂, hrest, h₂⟩ := ih h₁
    refine ⟨s₂, ?_, h₂⟩
    rw [runAll, hfirst, hcons]
    dsimp only [Option.bind_eq_bind, Option.bind_some]
    rw [hrest]
    rfl

/-! ### Symbol tables -/

namespace SymbolTable

theorem find?_eq_map (t : SymbolTable) (name : String) :
    t.find? name = (t.entries.find? (·.1 == name)).map Prod.snd := by
  rw [find?]
  induction t.entries with
  | nil => rfl
  | cons e rest ih =>
    rw [List.lookup_cons, List.find?_cons, Bool.beq_comm]
    cases e.1 == name
    · exact ih
    · rfl

/-- What becomes of a variable that is declared. -/
theorem perform_declare (t : SymbolTable) (v : Variable) :
    t.perform (.declare v) = match nextOffset t.symbols v.type with
      | .error fault => .error (.fault fault)
      | .ok offset =>
        ((t.define v.name (v.symbol offset)).mapError .diagnostic).map fun t' => (v.symbol offset, t') := by
  rw [perform, defineVariable]
  cases nextOffset t.symbols v.type with
  | error fault => rfl
  | ok offset =>
    change Except.bind ((t.define v.name (v.symbol offset)).mapError Failure.diagnostic) _ = _
    dsimp only
    cases t.define v.name (v.symbol offset) <;> rfl

end SymbolTable

/-- A table as a row of symbols, with the places of the names. -/
structure IndexedTable where
  symbols : Array Symbol := #[]
  index : Std.HashMap String Nat := ∅

namespace IndexedTable

open SymbolTable (Step)

/-- The symbol under a name, read at the place that the index gives. -/
def find? (t : IndexedTable) (name : String) : Option (Option Symbol) :=
  match t.index[name]? with
  | none => some none
  | some i => t.symbols[i]?.map some

/-- The symbol under a name, or the diagnostic that there is none. -/
def lookup (t : IndexedTable) (name : String) : Option (Except Diagnostic Symbol) :=
  (t.find? name).map fun
    | some s => .ok s
    | none => .error ⟨0, .notFound name⟩

/-- Adds a symbol under a new name. -/
def define (t : IndexedTable) (name : String) (s : Symbol) : Option (Except Diagnostic IndexedTable) :=
  (t.find? name).map fun
    | some previous => .error ⟨s.line, .redeclared name previous.line⟩
    | none => .ok ⟨t.symbols.push s, t.index.insert name t.symbols.size⟩

/-- The symbol that was defined last, read at the last place. -/
def last? (t : IndexedTable) : Option (Option Symbol) :=
  if t.symbols.size = 0 then some none else t.symbols[t.symbols.size - 1]?.map some

/-- The number of bytes of the frame. -/
def frameSize (t : IndexedTable) : Option Int :=
  t.last?.map fun
    | some s => if s.placed then SymbolTable.wrap (-s.offset) else 0
    | none => 0

/-- Adds a variable at the next free place. -/
def defineVariable (t : IndexedTable) (name : String) (type : Ty) (line : Int) :
    Option (Except Failure (Symbol × IndexedTable)) :=
  match SymbolTable.nextOffset t.symbols.toList type with
  | .error fault => some (.error (.fault fault))
  | .ok offset =>
    let s : Symbol := { name, type, line, offset, placed := true }
    (t.define name s).map fun answer => (answer.mapError .diagnostic).map fun t' => (s, t')

/-- The answer to a step and the table after it, which is the same if the step fails. -/
def perform (t : IndexedTable) : Step → Option (Except Failure Symbol × IndexedTable)
  | .define name s => (t.define name s).map fun
    | .ok t' => (.ok s, t')
    | .error d => (.error (.diagnostic d), t)
  | .declare v => (t.defineVariable v.name v.type v.line).map fun
    | .ok (s, t') => (.ok s, t')
    | .error failure => (.error failure, t)

/-- The table has the symbols of a plain one, and an index that is in step with them. -/
structure Holds (t : IndexedTable) (plain : SymbolTable) : Prop where
  symbols : t.symbols.toList = plain.symbols
  index : InStep t.index Prod.fst plain.entries

namespace Holds

variable {t : IndexedTable} {plain : SymbolTable}

theorem empty : Holds {} {} := ⟨rfl, .empty⟩

theorem size_eq (h : t.Holds plain) : t.symbols.size = plain.entries.length := by
  rw [← Array.length_toList, h.symbols, SymbolTable.symbols, List.length_map]

theorem find?_eq (h : t.Holds plain) (name : String) : t.find? name = some (plain.find? name) := by
  rcases h.index.cases name with ⟨hi, hfind⟩ | ⟨i, e, hi, hrow, hfind⟩
  · rw [find?, hi, SymbolTable.find?_eq_map, hfind]
    rfl
  · have hread : t.symbols[i]? = some e.2 := by
      rw [← Array.getElem?_toList, h.symbols, SymbolTable.symbols, List.getElem?_map, hrow]
      rfl
    rw [find?, hi, SymbolTable.find?_eq_map, hfind]
    simp [hread]

theorem last?_eq (h : t.Holds plain) : t.last? = some plain.last? := by
  have hsize : t.symbols.size = plain.symbols.length := by rw [← h.symbols, Array.length_toList]
  unfold last?
  split
  · rename_i hzero
    have hnil : plain.symbols = [] := List.eq_nil_of_length_eq_zero (hsize.symm.trans hzero)
    rw [SymbolTable.last?, hnil]
    rfl
  · rename_i hpos
    rw [SymbolTable.last?, List.getLast?_eq_getElem?, ← h.symbols, Array.length_toList, Array.getElem?_toList,
      Array.getElem?_eq_getElem (Nat.sub_one_lt hpos)]
    rfl

/-- A symbol under a new name. -/
theorem push (h : t.Holds plain) {name : String} (hnew : plain.find? name = none) (s : Symbol) :
    Holds ⟨t.symbols.push s, t.index.insert name t.symbols.size⟩ ⟨plain.entries ++ [(name, s)]⟩ := by
  refine ⟨?_, ?_⟩
  · rw [Array.toList_push, h.symbols, SymbolTable.symbols, SymbolTable.symbols, List.map_append, List.map_singleton]
  · rw [h.size_eq]
    rw [SymbolTable.find?_eq_map, Option.map_eq_none_iff] at hnew
    exact h.index.push (a := (name, s)) hnew

/-- A definition has the same outcome with an index. -/
theorem define_cases (h : t.Holds plain) (name : String) (s : Symbol) :
    (∃ d, plain.define name s = .error d ∧ t.define name s = some (.error d)) ∨
      ∃ plain' t', plain.define name s = .ok plain' ∧ t.define name s = some (.ok t') ∧ t'.Holds plain' := by
  rw [define, h.find?_eq, SymbolTable.define]
  cases hfind : plain.find? name with
  | some previous => exact .inl ⟨_, rfl, rfl⟩
  | none => exact .inr ⟨_, _, rfl, rfl, h.push hfind s⟩

/-- One step. -/
theorem perform (h : t.Holds plain) (step : Step) :
    ∃ t', t.perform step = some (plain.answer step, t') ∧ t'.Holds (plain.next step) := by
  unfold SymbolTable.answer SymbolTable.next
  cases step with
  | define name s =>
    rcases h.define_cases name s with ⟨d, hp, ht⟩ | ⟨plain', t', hp, ht, h'⟩ <;>
      rw [IndexedTable.perform, ht, SymbolTable.perform, hp]
    · exact ⟨t, rfl, h⟩
    · exact ⟨t', rfl, h'⟩
  | declare v =>
    rw [IndexedTable.perform, defineVariable, SymbolTable.perform_declare, h.symbols]
    cases SymbolTable.nextOffset plain.symbols v.type with
    | error fault => exact ⟨t, rfl, h⟩
    | ok offset =>
      rcases h.define_cases v.name (v.symbol offset) with ⟨d, hp, ht⟩ | ⟨plain', t', hp, ht, h'⟩ <;>
        unfold Variable.symbol at ht hp <;> dsimp only [Variable.symbol] <;> rw [ht, hp]
      · exact ⟨t, rfl, h⟩
      · exact ⟨t', rfl, h'⟩

end Holds

/-- All that can be seen of a table is the same with an index, and every read of the row has an answer. -/
structure Shows (t : IndexedTable) (plain : SymbolTable) : Prop where
  symbols : t.symbols.toList = plain.symbols
  size : t.symbols.size = plain.size
  last : t.last? = some plain.last?
  frameSize : t.frameSize = some plain.frameSize
  lookup : ∀ name, t.lookup name = some (plain.lookup name)

theorem Holds.shows {t : IndexedTable} {plain : SymbolTable} (h : t.Holds plain) : t.Shows plain where
  symbols := h.symbols
  size := h.size_eq
  last := h.last?_eq
  frameSize := by
    rw [frameSize, h.last?_eq, SymbolTable.frameSize]
    cases plain.last? <;> rfl
  lookup name := by
    rw [lookup, h.find?_eq, SymbolTable.lookup]
    cases plain.find? name <;> rfl

/-- Whatever steps a table is filled by, with an index it gives the same answers and shows the same symbols. -/
theorem run_agrees (steps : List Step) : ∃ t, runAll perform {} steps = some (SymbolTable.answers {} steps, t) ∧
    t.Shows (SymbolTable.after {} steps) := by
  obtain ⟨t, hrun, h⟩ : ∃ t, runAll perform {} steps = some (SymbolTable.answers {} steps, t) ∧
      t.Holds (SymbolTable.after {} steps) :=
    runAll_agrees (R := Holds) (fun _ _ step h => Holds.perform h step) (fun _ => rfl) (fun _ _ _ => rfl) Holds.empty
      steps
  exact ⟨t, hrun, h.shows⟩

end IndexedTable

/-! ### Pools -/

namespace Assembly

theorem Pool.find?_eq (p : Pool) (category payload : String) :
    p.find? category payload = p.literals.find? (·.key == (category, payload)) := rfl

/-- A pool as a row of literals, with the places of the literals and the counts of the categories. -/
structure IndexedPool where
  counters : Std.HashMap String Nat := ∅
  interned : Std.HashMap (String × String) Nat := ∅
  literals : Array Literal := #[]

namespace IndexedPool

/-- The next label of a category. -/
def fresh (category : String) (p : IndexedPool) : Label × IndexedPool :=
  let n := p.counters.getD category 0 + 1
  (⟨category, n⟩, { p with counters := p.counters.insert category n })

/-- The label of a literal, read at the place that the index gives, or a new one. -/
def intern (category payload : String) (p : IndexedPool) : Option (Label × IndexedPool) :=
  match p.interned[(category, payload)]? with
  | some i => p.literals[i]?.map fun l => (l.label, p)
  | none =>
    let (label, p) := p.fresh category
    some (label, { p with
      interned := p.interned.insert (category, payload) p.literals.size
      literals := p.literals.push ⟨payload, label⟩ })

/-- The answer to a request, and the pool afterwards. -/
def serve (p : IndexedPool) : Request → Option (Label × IndexedPool)
  | .fresh category => some (p.fresh category)
  | .intern category payload => p.intern category payload

/-- The pool has the literals and the counts of a plain one, and an index that is in step with the literals. -/
structure Holds (p : IndexedPool) (plain : Pool) : Prop where
  counters : ∀ c, p.counters.getD c 0 = plain.count c
  literals : p.literals.toList = plain.literals
  interned : InStep p.interned Literal.key plain.literals

namespace Holds

variable {p : IndexedPool} {plain : Pool}

theorem empty : Holds {} {} := ⟨fun _ => Std.HashMap.getD_empty, rfl, .empty⟩

/-- A new label. -/
theorem fresh (h : p.Holds plain) (category : String) :
    (p.fresh category).1 = (plain.fresh category).1 ∧ (p.fresh category).2.Holds (plain.fresh category).2 := by
  refine ⟨?_, fun c => ?_, h.literals, h.interned⟩
  · rw [IndexedPool.fresh, Pool.fresh, h.counters]
  · rw [IndexedPool.fresh, Std.HashMap.getD_insert, Pool.count_fresh, h.counters, h.counters]
    simp only [beq_iff_eq, eq_comm (a := c)]
    split
    · rename_i hc
      rw [hc]
    · rfl

/-- A literal that is new, under its label. -/
theorem push (h : p.Holds plain) (payload : String) (label : Label)
    (hnew : plain.literals.find? (·.key == (label.category, payload)) = none) :
    Holds { p with
        interned := p.interned.insert (label.category, payload) p.literals.size
        literals := p.literals.push ⟨payload, label⟩ }
      { plain with literals := plain.literals ++ [⟨payload, label⟩] } := by
  have hsize : p.literals.size = plain.literals.length := by rw [← h.literals, Array.length_toList]
  refine ⟨h.counters, ?_, ?_⟩
  · rw [Array.toList_push, h.literals]
  · rw [hsize]
    exact h.interned.push (a := ⟨payload, label⟩) hnew

/-- One request. -/
theorem serve (h : p.Holds plain) (r : Request) :
    ∃ p', p.serve r = some ((plain.serve r).1, p') ∧ p'.Holds (plain.serve r).2 := by
  cases r with
  | fresh category =>
    obtain ⟨hlabel, hpool⟩ := h.fresh category
    refine ⟨_, ?_, hpool⟩
    rw [IndexedPool.serve, Pool.serve, ← hlabel]
  | intern category payload =>
    rw [IndexedPool.serve, Pool.serve, IndexedPool.intern, Pool.intern, Pool.find?_eq]
    rcases h.interned.cases (category, payload) with ⟨hi, hfind⟩ | ⟨i, l, hi, hrow, hfind⟩ <;> rw [hi, hfind]
    · obtain ⟨hlabel, hpool⟩ := h.fresh category
      refine ⟨_, ?_, hpool.push payload (plain.fresh category).1 hfind⟩
      dsimp only
      rw [hlabel]
      rfl
    · have hread : p.literals[i]? = some l := by rw [← Array.getElem?_toList, h.literals, hrow]
      exact ⟨p, by simp [hread], h⟩

end Holds

/-- Whatever is asked of a pool, with an index it gives out the same labels and has the same literals and counts. -/
theorem run_agrees (requests : List Request) :
    ∃ p, runAll serve {} requests = some (Pool.served {} requests, p) ∧
      p.literals.toList = (Pool.after {} requests).literals ∧
      ∀ c, p.counters.getD c 0 = (Pool.after {} requests).count c := by
  obtain ⟨p, hrun, h⟩ : ∃ p, runAll serve {} requests = some (Pool.served {} requests, p) ∧
      p.Holds (Pool.after {} requests) :=
    runAll_agrees (R := Holds) (fun _ _ r h => Holds.serve h r) (fun _ => rfl) (fun _ _ _ => rfl) Holds.empty requests
  exact ⟨p, hrun, h.literals, h.counters⟩

end IndexedPool

end Assembly

end Arvore
