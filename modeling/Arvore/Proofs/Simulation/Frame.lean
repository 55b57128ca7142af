import Mathlib
import Arvore.Proofs.Analysis.Layout
import Arvore.Proofs.Machine.Run
import Arvore.Proofs.Semantics

/-!
# Frames

Where the values of variables are in memory. Each variable of a table has a slot below the frame pointer, no two slots
share a byte, and the stack grows below all of them. A state represents a store if every slot holds the value of its
variable (`Represents`); storing into one slot changes one variable (`Represents.store`).
-/

namespace Arvore

open Assembly Machine

/-! ### Slots -/

/-- The number of bytes of a slot. -/
def Symbol.bytes (s : Symbol) : Nat := s.type.size?.getD 0

/-- The slots of a table lie within so many bytes below the frame pointer, and apart from each other. -/
structure SymbolTable.Packed (t : SymbolTable) (size : Nat) : Prop where
  within : ∀ x s, t.find? x = some s → -(size : Int) ≤ s.offset ∧ s.offset + s.bytes ≤ 0
  apart : ∀ x y s u, x ≠ y → t.find? x = some s → t.find? y = some u →
    s.offset + s.bytes ≤ u.offset ∨ u.offset + u.bytes ≤ s.offset

theorem Variable.lookup_layout {taken : Nat} {vs : List Variable} {x : String} {s : Symbol}
    (h : (layout taken vs).lookup x = some s) :
    -(taken + total vs : Int) ≤ s.offset ∧ s.offset + s.bytes ≤ -(taken : Int) := by
  induction vs generalizing taken with
  | nil => cases h
  | cons v rest ih =>
    rw [layout, List.lookup_cons] at h
    rw [total_cons]
    split at h
    · cases h
      have hb : (v.symbol (-(taken + v.bytes : Nat))).bytes = v.bytes := rfl
      rw [hb]
      dsimp only [Variable.symbol]
      omega
    · have := ih h
      omega

theorem Variable.apart_layout {taken : Nat} {vs : List Variable} {x y : String} {s u : Symbol} (hxy : x ≠ y)
    (hs : (layout taken vs).lookup x = some s) (hu : (layout taken vs).lookup y = some u) :
    s.offset + s.bytes ≤ u.offset ∨ u.offset + u.bytes ≤ s.offset := by
  induction vs generalizing taken with
  | nil => cases hs
  | cons v rest ih =>
    rw [layout, List.lookup_cons] at hs hu
    -- the variable that stands first lies above all others
    split at hs <;> split at hu
    · rename_i _ hx _ hy
      exact absurd ((beq_iff_eq.1 hx).trans (beq_iff_eq.1 hy).symm) hxy
    · cases hs
      right
      have := (lookup_layout hu).2
      dsimp only [Variable.symbol]
      omega
    · cases hu
      left
      have := (lookup_layout hs).2
      dsimp only [Variable.symbol]
      omega
    · exact ih hs hu

/-- The table of a function whose frame is smaller than half of the address space. -/
theorem SymbolTable.Declared.packed {vs : List Variable} {t : SymbolTable} (h : Declared vs t)
    (hfits : Variable.total vs < 9223372036854775808) : t.Packed (Variable.total vs) := by
  constructor
  · intro x s hs
    rw [SymbolTable.find?, h.entries_eq hfits] at hs
    simpa using Variable.lookup_layout hs
  · intro x y s u hxy hs hu
    rw [SymbolTable.find?, h.entries_eq hfits] at hs hu
    exact Variable.apart_layout hxy hs hu

/-! ### Values in memory -/

namespace Value

/-- The number of bytes that a value takes. -/
def size : Value → Nat
  | int _ => 4
  | truth _ => 1

/-- The bytes of a value, as one number. -/
def bits : Value → Nat
  | int n => n.toNat
  | truth b => b.toNat

/-- A value in a register. -/
def word (v : Value) : Word := BitVec.ofInt 64 v.number

theorem size_of_type {v : Value} {t : Ty} (h : v.type = t) : t.size? = some v.size := by
  subst h
  cases v <;> rfl

end Value

/-- The slot of a variable holds a value. -/
structure Symbol.Holds (m : Memory) (base : Word) (s : Symbol) (v : Value) : Prop where
  type : v.type = s.type
  read : m.read (base + BitVec.ofInt 64 s.offset) v.size = v.bits

theorem Symbol.Holds.bytes_eq {m : Memory} {base : Word} {s : Symbol} {v : Value} (h : s.Holds m base v) :
    s.bytes = v.size := by
  rw [Symbol.bytes, Value.size_of_type h.type, Option.getD_some]

/-- A place below the frame pointer, seen from the stack pointer. -/
theorem frame_address {sp : Word} {r : Nat} {z : Int} (hz : -(r : Int) ≤ z) :
    off sp r + BitVec.ofInt 64 z = off sp (r + z).toNat := by
  have h : BitVec.ofNat 64 (r + z).toNat = BitVec.ofNat 64 r + BitVec.ofInt 64 z := by
    rw [← BitVec.ofInt_natCast, ← BitVec.ofInt_natCast, ← BitVec.ofInt_add, Int.toNat_of_nonneg (by omega)]
  rw [off, off, BitVec.add_assoc, h]

/-- A state in which some variables have the values of a store. The stack does not reach their slots with so many words
more on it. -/
structure Shown (locals : SymbolTable) (names : List String) (words : Nat) (σ : Store) (s : State) : Prop where
  room : 8 * words ≤ 18446744073709551616
  holds : ∀ x ∈ names, ∀ symbol, locals.find? x = some symbol → symbol.Holds s.mem (s.regs .rbp) (σ x)
  clear : ∀ x ∈ names, ∀ symbol, locals.find? x = some symbol →
    ∃ k, s.regs .rbp + BitVec.ofInt 64 symbol.offset = off (s.regs .rsp) k ∧
      k + symbol.bytes + 8 * words ≤ 18446744073709551616

namespace Shown

variable {locals : SymbolTable} {names fewer : List String} {words less : Nat} {σ : Store} {s s' : State}

theorem mono (h : Shown locals names words σ s) (hn : ∀ x ∈ fewer, x ∈ names) (hw : less ≤ words) :
    Shown locals fewer less σ s := by
  refine ⟨by have := h.room; omega, fun x hx => h.holds x (hn x hx), fun x hx symbol hs => ?_⟩
  obtain ⟨k, hk, hroom⟩ := h.clear x (hn x hx) symbol hs
  exact ⟨k, hk, by omega⟩

/-- Computing on the stack changes no variable, with one more word on it. -/
theorem pushed (h : Shown locals names (words + 1) σ s) (hk : Keeps (words + 1) s s'.drop) :
    Shown locals names words σ s' := by
  have hbp : s'.regs .rbp = s.regs .rbp := by simpa using hk.rbp
  have hsp : off (s'.regs .rsp) 8 = s.regs .rsp := (s'.drop_rsp).symm.trans hk.rsp
  refine ⟨by have := h.room; omega, fun x hx symbol hs => ?_, fun x hx symbol hs => ?_⟩
  · obtain ⟨k, hplace, hroom⟩ := h.clear x hx symbol hs
    obtain ⟨htype, hread⟩ := h.holds x hx symbol hs
    rw [(h.holds x hx symbol hs).bytes_eq] at hroom
    refine ⟨htype, ?_⟩
    rw [hbp, ← hread, hplace]
    refine Memory.read_congr fun i hi => ?_
    rw [off_off]
    exact hk.mem (k + i) (by omega)
  · obtain ⟨k, hplace, hroom⟩ := h.clear x hx symbol hs
    refine ⟨8 + k, ?_, by omega⟩
    rw [hbp, hplace, ← hsp, off_off]

end Shown

/-- A state in which the variables have the values of a store. The frame pointer is `reach` bytes above the stack
pointer, so many words are free below it, and the slots fit between the two. -/
structure Represents (locals : SymbolTable) (reach words : Nat) (σ : Store) (s : State) : Prop where
  rbp : s.regs .rbp = off (s.regs .rsp) reach
  room : reach + 8 * words < 9223372036854775808
  holds : ∀ x symbol, locals.find? x = some symbol → symbol.Holds s.mem (s.regs .rbp) (σ x)

namespace Represents

variable {locals : SymbolTable} {size reach words : Nat} {σ : Store} {s s' : State}

theorem mono {fewer : Nat} (h : Represents locals reach words σ s) (hw : fewer ≤ words) :
    Represents locals reach fewer σ s :=
  ⟨h.rbp, by have := h.room; omega, h.holds⟩

/-- Only what lies between the stack pointer and the frame pointer counts. -/
theorem congr (more : Nat) (hp : locals.Packed size) (hsize : size ≤ reach) (h : Represents locals reach words σ s)
    (hbp : s'.regs .rbp = s.regs .rbp) (hsp : s'.regs .rbp = off (s'.regs .rsp) (reach + 8 * more))
    (hm : more ≤ words) (hmem : ∀ k < reach, s'.mem (off (s.regs .rsp) k) = s.mem (off (s.regs .rsp) k)) :
    Represents locals (reach + 8 * more) (words - more) σ s' := by
  refine ⟨hsp, by have := h.room; omega, fun x symbol hx => ?_⟩
  obtain ⟨ht, hr⟩ := h.holds x symbol hx
  have hw := hp.within x symbol hx
  rw [Symbol.bytes, Value.size_of_type ht, Option.getD_some] at hw
  refine ⟨ht, ?_⟩
  rw [hbp, ← hr, h.rbp, frame_address (by omega)]
  refine Memory.read_congr fun i hi => ?_
  rw [off_off]
  exact hmem _ (by omega)

/-- Computing on the stack changes no variable. -/
theorem keeps (hp : locals.Packed size) (hsize : size ≤ reach) (h : Represents locals reach words σ s)
    (hk : Keeps words s s') : Represents locals reach words σ s' := by
  have hroom := h.room
  refine h.congr 0 hp hsize hk.rbp ?_ (Nat.zero_le _) fun k hk' => hk.mem k (by omega)
  rw [hk.rbp, hk.rsp]
  exact h.rbp

/-- The variables that an expression needs have their values. -/
theorem shown (hp : locals.Packed size) (hsize : size ≤ reach) (h : Represents locals reach words σ s)
    (names : List String) : Shown locals names words σ s := by
  have hroom := h.room
  refine ⟨by omega, fun x _ => h.holds x, fun x _ symbol hx => ?_⟩
  have hw := hp.within x symbol hx
  refine ⟨(reach + symbol.offset).toNat, ?_, by omega⟩
  rw [h.rbp, frame_address (by omega)]

/-- Storing the bytes of a value into the slot of a variable. -/
theorem store (hp : locals.Packed size) (hsize : size ≤ reach) (h : Represents locals reach words σ s)
    {x : String} {symbol : Symbol} (hx : locals.find? x = some symbol) {v : Value} (ht : v.type = symbol.type)
    {n : Nat} (hn : n % 256 ^ v.size = v.bits) :
    Represents locals reach words (σ.set x v)
      { s with mem := s.mem.write (s.regs .rbp + BitVec.ofInt 64 symbol.offset) v.size n } := by
  have hroom := h.room
  have hw := hp.within x symbol hx
  have hbytes : symbol.bytes = v.size := by rw [Symbol.bytes, Value.size_of_type ht, Option.getD_some]
  have hsmall : v.size ≤ 8 := by cases v <;> simp [Value.size]
  refine ⟨h.rbp, hroom, fun y other hy => ?_⟩
  by_cases hyx : y = x
  · subst hyx
    rw [hx] at hy
    cases hy
    rw [Store.set, Function.update_self]
    exact ⟨ht, by rw [Memory.read_write (by omega), hn]⟩
  · rw [Store.set, Function.update_of_ne hyx]
    have hother := h.holds y other hy
    have ha := hp.apart y x other symbol hyx hy hx
    have hw' := hp.within y other hy
    rw [hbytes, hother.bytes_eq] at ha
    rw [hbytes] at hw
    rw [hother.bytes_eq] at hw'
    have hsmall' : (σ y).size ≤ 8 := by cases σ y <;> simp [Value.size]
    refine ⟨hother.type, ?_⟩
    dsimp only
    rw [← hother.read, h.rbp, frame_address (by omega), frame_address (by omega)]
    exact Memory.read_write_of_apart (by omega) (by omega) (by omega)

end Represents

end Arvore
