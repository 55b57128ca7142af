import Mathlib
import Arvore.Proofs.Analysis.Declarations
import Arvore.Proofs.Reading.Room
import Arvore.Proofs.Reading.Spelling
import Arvore.Proofs.Size

/-!
# Symbols tile the frame

The symbols of a function tile its frame: each stands directly below the one before it, no two of them share a byte,
and together they fill the frame (`Function.frameLayout_of_locals`). Places are words of 64 bits, but no frame is so
large that they would come in again at the other end. The names of a function differ, and a source that can be held in
memory has too few different symbols for that (`Function.total_lt_of_load`).
-/

namespace Arvore

/-! ### Every frame fits -/

/-- The names of a program are the normal forms of the symbols in its text. -/
theorem Program.wellFormed_symbols {text : List Char} {p : Program} (h : Program.load text = .ok p) :
    p.WellFormed { Lexicon.all with name := fun n => ∃ x ∈ Token.symbols text, Text.nfc x = n } := by
  obtain ⟨d, hd, hp⟩ := Program.load_eq_ok_iff.1 h
  refine Load.program_wellFormed (Datum.spelled_of_parse (fun t ht => ?_) hd) hp
  obtain ⟨line, token⟩ := t
  cases token with
  | symbol x => exact ⟨x, List.mem_filterMap.2 ⟨_, ht, rfl⟩, rfl⟩
  | _ => trivial

/-- The variables of a function take less than half of the address space. -/
theorem Function.total_lt_of_load {source : List UInt8} (hsize : source.length < 2 ^ 63) {p : Program}
    (hload : Program.load (Text.Utf8.decode source) = .ok p) {f : Function} (hf : f ∈ p.functions)
    (hn : (f.variables.map Variable.name).Nodup) : Variable.total f.variables < 9223372036854775808 := by
  have hnames : ∀ a ∈ f.variables.map Variable.name, ∃ x ∈ Token.symbols (Text.Utf8.decode source), Text.nfc x = a := by
    rw [← map_toVariable_declarations, List.map_map]
    refine List.forall_mem_map.2 fun d hd => ?_
    exact (wellFormed_declarations ((Program.wellFormed_symbols hload).functions f hf) d hd).name
  have hcut := Token.cut_of_scan 1 _ (rfl : Text.Utf8.decode source = _)
  have hroom := Bool.toNat_le (Token.startsSymbol (Text.Utf8.decode source))
  have hcount := hcut.length_lt (by omega) hn hnames
  have htotal := Variable.total_le f.variables
  rw [List.length_map] at hcount
  omega

/-! ### The bytes of symbols -/

/-- The bytes of a symbol, counted from the frame pointer. -/
def Symbol.range (s : Symbol) : Set Int := Set.Ico s.offset (s.offset + s.bytes)

/-- The variable that a symbol stands for. -/
def Symbol.variable (s : Symbol) : Variable := ⟨s.name, s.type, s.line⟩

namespace Variable

/-- The symbols of variables that are laid out downwards. -/
def slots (taken : Nat) (vs : List Variable) : List Symbol := (layout taken vs).map (·.2)

variable (taken : Nat) (vs : List Variable)

@[simp] theorem slots_nil : slots taken [] = [] := rfl

@[simp] theorem slots_cons (v : Variable) :
    slots taken (v :: vs) = v.symbol (-(taken + v.bytes : Nat)) :: slots (taken + v.bytes) vs := rfl

theorem layout_eq_map_slots : layout taken vs = (slots taken vs).map fun s => (s.name, s) := by
  induction vs generalizing taken with
  | nil => rfl
  | cons v rest ih =>
    rw [layout, ih, slots_cons, List.map_cons]
    rfl

theorem map_variable_slots : (slots taken vs).map Symbol.variable = vs := by
  induction vs generalizing taken with
  | nil => rfl
  | cons v rest ih =>
    rw [slots_cons, List.map_cons, ih]
    rfl

/-- A variable stands below all those before it, in as many bytes as it takes. -/
theorem offset_slots {i : Nat} {s : Symbol} (h : (slots taken vs)[i]? = some s) :
    s.offset = -((taken + total (vs.take (i + 1)) : Nat) : Int) := by
  induction vs generalizing taken i with
  | nil => simp at h
  | cons v rest ih =>
    rw [slots_cons] at h
    cases i with
    | zero =>
      cases h
      rfl
    | succ i => rw [ih (taken + v.bytes) (by simpa using h), List.take_succ_cons, total_cons, Nat.add_assoc]

theorem range_symbol (v : Variable) :
    (v.symbol (-(taken + v.bytes : Nat))).range = Set.Ico (-((taken + v.bytes : Nat) : Int)) (-(taken : Int)) := by
  have hend : -((taken + v.bytes : Nat) : Int) + v.bytes = -(taken : Int) := by omega
  rw [← hend]
  rfl

/-- Variables that are laid out fill the bytes below those that are taken. -/
theorem iUnion_range_slots : ⋃ s ∈ slots taken vs, s.range =
    Set.Ico (-((taken + total vs : Nat) : Int)) (-(taken : Int)) := by
  induction vs generalizing taken with
  | nil => simp
  | cons v rest ih =>
    simp only [slots_cons, List.mem_cons, Set.iUnion_iUnion_eq_or_left, range_symbol, ih, total_cons, Nat.add_assoc]
    rw [Set.union_comm]
    exact Set.Ico_union_Ico_eq_Ico (by omega) (by omega)

/-- Variables that are laid out share no bytes. -/
theorem pairwise_disjoint_slots : (slots taken vs).Pairwise fun a b => Disjoint a.range b.range := by
  induction vs generalizing taken with
  | nil => exact .nil
  | cons v rest ih =>
    rw [slots_cons, List.pairwise_cons]
    refine ⟨fun s hs => ?_, ih _⟩
    -- what follows lies below the first variable
    have hbelow : s.range ⊆ ⋃ s ∈ slots (taken + v.bytes) rest, s.range :=
      fun x hx => Set.mem_iUnion₂.2 ⟨s, hs, hx⟩
    rw [iUnion_range_slots] at hbelow
    rw [range_symbol]
    exact (Set.Ico_disjoint_Ico_same.mono_left hbelow).symm

end Variable

/-- The symbols of a function in its frame. -/
structure Function.FrameLayout (f : Function) (table : SymbolTable) : Prop where
  entries : table.entries = table.symbols.map fun s => (s.name, s)
  order : table.symbols.map Symbol.variable = f.declarations.map Declaration.toVariable
  names : (table.symbols.map Symbol.name).Nodup
  sized : ∀ s ∈ table.symbols, s.type.size? = some s.bytes
  offset : ∀ i s, table.symbols[i]? = some s →
    s.offset = -(((table.symbols.take (i + 1)).map Symbol.bytes).sum : Int)
  disjoint : table.symbols.Pairwise fun a b => Disjoint a.range b.range
  cover : ⋃ s ∈ table.symbols, s.range = Set.Ico (-table.frameSize) 0

/-- The table of a function of a program lays out its frame. -/
theorem Function.frameLayout_of_locals {source : List UInt8} (hsize : source.length < 2 ^ 63) {p : Program}
    (hload : Program.load (Text.Utf8.decode source) = .ok p) {f : Function} (hf : f ∈ p.functions)
    {globals table : SymbolTable} (h : f.locals globals = .ok table) : f.FrameLayout table := by
  have hd := Function.declared_of_locals h
  have hfits := Function.total_lt_of_load hsize hload hf hd.nodup_names
  have hentries := hd.entries_eq hfits
  have hsymbols : table.symbols = Variable.slots 0 f.variables := by
    rw [SymbolTable.symbols, hentries]
    rfl
  have hvars : table.symbols.map Symbol.variable = f.variables := by
    rw [hsymbols, Variable.map_variable_slots]
  constructor
  · rw [hsymbols, hentries, Variable.layout_eq_map_slots]
  · rw [hvars, Function.map_toVariable_declarations]
  · have hnames := hd.nodup_names
    rw [← hvars, List.map_map] at hnames
    exact hnames
  · intro s hs
    have hv : s.variable ∈ f.declarations.map Declaration.toVariable := by
      rw [Function.map_toVariable_declarations, ← hvars]
      exact List.mem_map_of_mem hs
    obtain ⟨d, hd, hsd⟩ := List.mem_map.1 hv
    have htype : s.type = d.type := congrArg Variable.type hsd.symm
    have hw := (Function.wellFormed_declarations ((Program.wellFormed_of_load hload).functions f hf) d hd).type
    obtain ⟨size, hsize⟩ := Option.isSome_iff_exists.1 ((Ty.isVariable_iff_size?_isSome _).1 hw)
    rw [Symbol.bytes, htype, hsize, Option.getD_some]
  · intro i s hs
    rw [hsymbols] at hs
    rw [Variable.offset_slots 0 _ hs, ← hvars, ← List.map_take, Variable.total, List.map_map, Nat.zero_add]
    rfl
  · rw [hsymbols]
    exact Variable.pairwise_disjoint_slots 0 f.variables
  · rw [hsymbols, Variable.iUnion_range_slots, hd.frameSize_eq hfits]
    simp

/-- A function that declares variables of all sizes in its body, in a branch and in a loop inside a loop. -/
def scattered : List UInt8 :=
  "(program (func f [(param real a) (param logico b)]
    [(decl inteiro c d)
     (if b [(decl caracter e)] [(while b [(for (assign c 1) (relational \"<\" c d) (increment \"++\" c)
       [(decl real (init g a))])])])
     (decl logico h)]))".toList.map fun c => c.toNat.toUInt8

theorem scattered_frameLayout : ∃ p f table, Program.load (Text.Utf8.decode scattered) = .ok p ∧ f ∈ p.functions ∧
    f.locals {} = .ok table ∧ table.symbols.map (·.offset) = [-8, -9, -13, -17, -18, -26, -27] ∧
    f.FrameLayout table := by
  obtain ⟨p, hp, hoffsets⟩ : ∃ p, Program.load (Text.Utf8.decode scattered) = .ok p ∧ p.functions.map
      (fun f => (f.locals {}).toOption.map fun t => t.symbols.map (·.offset)) =
        [some [-8, -9, -13, -17, -18, -26, -27]] := by
    apply exists_of_literal (g := fun text => Program.load (Text.Utf8.decode (text.map fun c => c.toNat.toUInt8)))
    decide +kernel
  have hsize : scattered.length < 2 ^ 63 := by
    apply of_literal (P := fun text => (text.map fun c => c.toNat.toUInt8).length < 2 ^ 63)
    decide +kernel
  obtain ⟨f, hf, hoffsets⟩ := List.map_eq_singleton_iff.1 hoffsets
  obtain ⟨table, ht, hoffsets⟩ := map_toOption_eq_some_iff.1 hoffsets
  have hm : f ∈ p.functions := by simp [hf]
  exact ⟨p, f, table, hp, hm, ht, hoffsets, Function.frameLayout_of_locals hsize hp hm ht⟩

end Arvore
