import Mathlib
import Arvore.Proofs.Machine.Integer

/-!
# Running code

Straight code is a list of instructions that each go on to the next one; `exec` runs it as a whole, and where it stands
in a listing the listing does the same (`Runs.of_exec`). Code computes a value if it leaves it in `%rax`, gives the
stack back and writes nowhere but below it (`Computes`).
-/

namespace Arvore.Machine

open Assembly

/-! ### Registers and the stack -/

namespace State

variable (s : State) (r r' : Register) (v : Word)

@[simp] theorem set_regs_self : (s.set r v).regs r = v := by simp [set]

@[simp] theorem set_regs_of_ne {r r' : Register} (h : r' ≠ r) : (s.set r v).regs r' = s.regs r' := by
  simp [set, Function.update_of_ne h]

@[simp] theorem set_mem : (s.set r v).mem = s.mem := rfl

@[simp] theorem set_flags : (s.set r v).flags = s.flags := rfl

@[simp] theorem push_rsp : (s.push v).regs .rsp = s.regs .rsp - 8 := by simp [push]

@[simp] theorem push_regs_of_ne {r : Register} (h : r ≠ .rsp) : (s.push v).regs r = s.regs r := by
  simp [push, Function.update_of_ne h]

@[simp] theorem push_mem : (s.push v).mem = s.mem.write (s.regs .rsp - 8) 8 v.toNat := rfl

@[simp] theorem drop_rsp : s.drop.regs .rsp = s.regs .rsp + 8 := by simp [drop]

@[simp] theorem drop_regs_of_ne {r : Register} (h : r ≠ .rsp) : s.drop.regs r = s.regs r := by simp [drop, h]

@[simp] theorem drop_mem : s.drop.mem = s.mem := rfl

end State

theorem off_sub_eight (a : Word) (k : Nat) : off (a - 8) (8 + k) = off a k := by
  rw [← off_off]
  congr 1
  simp [off]

/-- The word that was pushed is on top of the stack. -/
@[simp] theorem State.top_push (s : State) (v : Word) : (s.push v).top = v := by
  rw [State.top, State.push_rsp, State.push_mem, Memory.read_write (by omega)]
  simp [Nat.mod_eq_of_lt v.isLt]

/-! ### Single instructions -/

section Act

variable {img : Image} (s : State) (r r' : Register) (z : Int)

attribute [local simp] act State.assign? State.address? State.merge

@[simp] theorem value?_quad_reg :
    (s.value? img .quad (.reg r)).map (BitVec.ofNat 64) = some (s.regs r) := by
  have h : (s.regs r).toNat % 256 ^ 8 = (s.regs r).toNat := Nat.mod_eq_of_lt (s.regs r).isLt
  simp only [State.value?, Width.bytes, h, Option.map_some, BitVec.ofNat_toNat, BitVec.setWidth_eq]

@[simp] theorem value?_quad_imm :
    (s.value? img .quad (.imm z)).map (BitVec.ofNat 64) = some (BitVec.ofInt 64 z) := by
  have h : (BitVec.ofInt 64 z).toNat % 256 ^ 8 = (BitVec.ofInt 64 z).toNat := Nat.mod_eq_of_lt (BitVec.ofInt 64 z).isLt
  simp only [State.value?, Width.bytes, h, Option.map_some, BitVec.ofNat_toNat, BitVec.setWidth_eq]

theorem act_push {src : Operand} {v : Word} (h : (s.value? img .quad src).map (BitVec.ofNat 64) = some v) :
    act img s (.push src) = some (s.push v) := by
  obtain ⟨n, hn, rfl⟩ := Option.map_eq_some_iff.1 h
  simp [hn]

theorem act_alu {op : Alu} {src : Operand} {v : Word}
    (h : (s.value? img .quad src).map (BitVec.ofNat 64) = some v) :
    act img s (.alu op .quad src r) = some (combine op v r s) := by
  obtain ⟨n, hn, rfl⟩ := Option.map_eq_some_iff.1 h
  simp [hn]

theorem act_mov_quad {src : Operand} {v : Word} (h : (s.value? img .quad src).map (BitVec.ofNat 64) = some v) :
    act img s (.mov .quad src (.reg r)) = some (s.set r v) := by
  obtain ⟨n, hn, rfl⟩ := Option.map_eq_some_iff.1 h
  simp [hn, inMemory]

@[simp] theorem act_pop : act img s (.pop r) = some (s.drop.set r s.top) := rfl

@[simp] theorem act_push_reg : act img s (.push (.reg r)) = some (s.push (s.regs r)) := act_push s (value?_quad_reg s r)

@[simp] theorem act_push_mem :
    act img s (.push (.mem r z)) = some (s.push (BitVec.ofNat 64 (s.mem.read (s.regs r + BitVec.ofInt 64 z) 8))) :=
  act_push s (by simp [State.value?, Width.bytes])

@[simp] theorem act_mov_quad_reg :
    act img s (.mov .quad (.reg r) (.reg r')) = some (s.set r' (s.regs r)) := act_mov_quad s r' (value?_quad_reg s r)

@[simp] theorem act_mov_quad_imm :
    act img s (.mov .quad (.imm z) (.reg r)) = some (s.set r (BitVec.ofInt 64 z)) :=
  act_mov_quad s r (value?_quad_imm s z)

@[simp] theorem act_mov_quad_mem :
    act img s (.mov .quad (.mem r z) (.reg r')) =
      some (s.set r' (BitVec.ofNat 64 (s.mem.read (s.regs r + BitVec.ofInt 64 z) 8))) :=
  act_mov_quad s r' (by simp [State.value?, Width.bytes])

@[simp] theorem act_alu_reg (op : Alu) :
    act img s (.alu op .quad (.reg r) r') = some (combine op (s.regs r) r' s) := act_alu s r' (value?_quad_reg s r)

@[simp] theorem act_alu_imm (op : Alu) :
    act img s (.alu op .quad (.imm z) r) = some (combine op (BitVec.ofInt 64 z) r s) :=
  act_alu s r (value?_quad_imm s z)

/-- Four bytes of a register, filled up with their sign. -/
@[simp] theorem act_movSigned_reg :
    act img s (.movSigned (.reg r) r') = some (s.set r' (((s.regs r).setWidth 32).signExtend 64)) := by
  have h : BitVec.ofNat 32 ((s.regs r).toNat % 256 ^ 4) = (s.regs r).setWidth 32 := by
    apply BitVec.eq_of_toNat_eq
    simp
  simp only [act, State.value?, Width.bytes, h, Option.map_some]

@[simp] theorem act_movSigned_mem :
    act img s (.movSigned (.mem r z) r') =
      some (s.set r' ((BitVec.ofNat 32 (s.mem.read (s.regs r + BitVec.ofInt 64 z) 4)).signExtend 64)) := rfl

@[simp] theorem act_movZero_reg :
    act img s (.movZero (.reg r) r') = some (s.set r' (BitVec.ofNat 64 ((s.regs r).toNat % 256))) := by
  simp [State.value?, Width.bytes]

@[simp] theorem act_movZero_mem :
    act img s (.movZero (.mem r z) r') =
      some (s.set r' (BitVec.ofNat 64 (s.mem.read (s.regs r + BitVec.ofInt 64 z) 1))) := rfl

@[simp] theorem act_signExtend :
    act img s .signExtend = some (s.set .rdx (if (s.regs .rax).msb then -1 else 0)) := rfl

theorem act_idiv {q rem : Word} (h : divide? (s.regs .rdx) (s.regs .rax) (s.regs r) = some (q, rem)) :
    act img s (.idiv r) = some { (s.set .rax q).set .rdx rem with flags := none } := by simp [h]

@[simp] theorem act_neg :
    act img s (.neg r) = some { s.set r (-s.regs r) with flags := some (.ofSub 0 (s.regs r)) } := rfl

theorem act_set {f : Flags} {c : Condition} {b : Bool} (hf : s.flags = some f) (hc : f.holds c = some b) :
    act img s (.set c r) = some (s.set r (State.merge .byte (s.regs r) b.toNat)) := by simp [hf, hc]

/-- A register or a number written to memory. -/
theorem act_mov_mem {w : Width} {src : Operand} {v : Nat} (hs : inMemory src = false)
    (hv : s.value? img w src = some v) :
    act img s (.mov w src (.mem r z)) =
      some { s with mem := s.mem.write (s.regs r + BitVec.ofInt 64 z) w.bytes v } := by
  simp [hs, hv]

end Act

/-! ### Straight code -/

theorem instrs_append (a b : List Instr) : instrs (a ++ b) = instrs a ++ instrs b := List.map_append

@[simp] theorem length_instrs (code : List Instr) : (instrs code).length = code.length := List.length_map _

/-- Runs instructions that each go on to the next one. -/
def exec (img : Image) (code : List Instr) (s : State) : Option State := code.foldlM (act img) s

section Exec

variable {img : Image} {s s' s'' : State}

/-- Straight code runs to its end, and the state there has a property. -/
def Leads (img : Image) (code : List Instr) (s : State) (Q : State → Prop) : Prop :=
  ∃ s', exec img code s = some s' ∧ Q s'

namespace Leads

variable {P Q : State → Prop} {code a b : List Instr}

theorem nil (h : Q s) : Leads img [] s Q := ⟨s, rfl, h⟩

theorem cons {i : Instr} (hi : act img s i = some s') (h : Leads img code s' Q) : Leads img (i :: code) s Q := by
  obtain ⟨u, hu, hq⟩ := h
  refine ⟨u, ?_, hq⟩
  rw [exec, List.foldlM_cons, hi]
  exact hu

theorem single {i : Instr} (hi : act img s i = some s') (h : Q s') : Leads img [i] s Q := cons hi (nil h)

theorem append (ha : Leads img a s P) (hb : ∀ s', P s' → Leads img b s' Q) : Leads img (a ++ b) s Q := by
  obtain ⟨s', hs', hp⟩ := ha
  obtain ⟨u, hu, hq⟩ := hb s' hp
  refine ⟨u, ?_, hq⟩
  rw [exec] at hs' hu ⊢
  rw [List.foldlM_append, hs']
  exact hu

theorem mono (h : Leads img code s P) (hq : ∀ s', P s' → Q s') : Leads img code s Q := by
  obtain ⟨s', hs', hp⟩ := h
  exact ⟨s', hs', hq s' hp⟩

end Leads

/-- The code stands at a line of the listing, and jumps to its labels go where they stand in it. -/
structure Placed (img : Image) (k : Nat) (code : Listing) : Prop where
  line : ∀ i < code.length, img.code[k + i]? = code[i]?
  label : ∀ i l, code[i]? = some (.label l) → img.code.idxOf? (.label l) = some (k + i)

theorem placed_append {k : Nat} {a b : Listing} :
    Placed img k (a ++ b) ↔ Placed img k a ∧ Placed img (k + a.length) b := by
  constructor
  · rintro ⟨hline, hlabel⟩
    refine ⟨⟨fun i hi => ?_, fun i l h => ?_⟩, ⟨fun i hi => ?_, fun i l h => ?_⟩⟩
    · rw [hline i (by simp; omega), List.getElem?_append_left hi]
    · obtain ⟨hi, -⟩ := List.getElem?_eq_some_iff.1 h
      exact hlabel i l (by rw [List.getElem?_append_left hi, h])
    · rw [Nat.add_assoc, hline (a.length + i) (by simp; omega), List.getElem?_append_right (by omega)]
      congr 1
      omega
    · rw [Nat.add_assoc]
      refine hlabel (a.length + i) l ?_
      rw [List.getElem?_append_right (by omega), ← h]
      congr 1
      omega
  · rintro ⟨⟨hla, hba⟩, ⟨hlb, hbb⟩⟩
    refine ⟨fun i hi => ?_, fun i l h => ?_⟩
    · rcases lt_or_ge i a.length with h | h
      · rw [hla i h, List.getElem?_append_left h]
      · have := hlb (i - a.length) (by simp at hi; omega)
        rw [List.getElem?_append_right h, ← this]
        congr 1
        omega
    · rcases lt_or_ge i a.length with hi | hi
      · rw [List.getElem?_append_left hi] at h
        exact hba i l h
      · rw [List.getElem?_append_right hi] at h
        rw [hbb (i - a.length) l h]
        congr 1
        omega

/-- The line that is next in a run. -/
theorem Placed.head {k : Nat} {line : Line} {code : Listing} (h : Placed img k (line :: code)) :
    img.code[k]? = some line := by
  have := h.line 0 (by simp)
  simpa using this

theorem Placed.tail {k : Nat} {line : Line} {code : Listing} (h : Placed img k (line :: code)) :
    Placed img (k + 1) code := (placed_append (a := [line])).1 h |>.2

/-- An instruction that goes on to the next line. -/
theorem step_of_act {k : Nat} {i : Instr} (hk : img.code[k]? = some (.instr i)) (h : act img s i = some s') :
    step img ⟨k, s⟩ = some ⟨k + 1, s'⟩ := by
  cases i with
  | jump | jumpEqual | call | ret => cases h
  | _ => simp only [step, hk, h, Option.map_some]

theorem Runs.of_exec {k : Nat} {code : List Instr} (hp : Placed img k (instrs code)) (h : exec img code s = some s') :
    Runs img ⟨k, s⟩ ⟨k + code.length, s'⟩ := by
  induction code generalizing k s with
  | nil =>
    cases h
    exact .refl
  | cons i rest ih =>
    rw [exec, List.foldlM_cons] at h
    obtain ⟨u, hu, hr⟩ := Option.bind_eq_some_iff.1 h
    have := ih hp.tail hr
    rw [Nat.add_right_comm] at this
    exact .head (step_of_act hp.head hu) this

/-! ### Labels and jumps -/

variable {k j t : Nat}

theorem Runs.of_step {c c' : Config} (h : step img c = some c') : Runs img c c' := .single h

theorem Runs.trans {a b c : Config} (h : Runs img a b) (h' : Runs img b c) : Runs img a c :=
  Relation.ReflTransGen.trans h h'

/-- The code stands at a line of the listing, and the line behind it is given. -/
structure Spans (img : Image) (k : Nat) (code : Listing) (j : Nat) : Prop where
  placed : Placed img k code
  last : k + code.length = j

theorem spans_nil : Spans img k [] j ↔ k = j :=
  ⟨fun h => h.last, fun h => ⟨⟨by simp, by simp⟩, h⟩⟩

theorem spans_append {a b : Listing} : Spans img k (a ++ b) j ↔ ∃ m, Spans img k a m ∧ Spans img m b j := by
  constructor
  · rintro ⟨hp, hl⟩
    obtain ⟨ha, hb⟩ := placed_append.1 hp
    exact ⟨k + a.length, ⟨ha, rfl⟩, ⟨hb, by rw [List.length_append] at hl; omega⟩⟩
  · rintro ⟨m, ⟨ha, rfl⟩, ⟨hb, rfl⟩⟩
    exact ⟨placed_append.2 ⟨ha, hb⟩, by rw [List.length_append, Nat.add_assoc]⟩

theorem Spans.runs {code : List Instr} (h : Spans img k (instrs code) j) (he : exec img code s = some s') :
    Runs img ⟨k, s⟩ ⟨j, s'⟩ := by
  have hl := h.last
  rw [instrs, List.length_map] at hl
  rw [← hl]
  exact .of_exec h.placed he

/-- A label is passed, and jumps to it come here. -/
theorem Spans.label {l : Label} (h : Spans img k [.label l] j) :
    img.code.idxOf? (.label l) = some k ∧ ∀ s, Runs img ⟨k, s⟩ ⟨j, s⟩ := by
  refine ⟨h.placed.label 0 l rfl, fun s => ?_⟩
  rw [← h.last]
  exact .of_step (by simp [step, h.placed.head])

theorem Spans.jump {l : Label} (h : Spans img k (instrs [.jump l]) j) (ht : img.code.idxOf? (.label l) = some t)
    (s : State) : Runs img ⟨k, s⟩ ⟨t, s⟩ :=
  .of_step (by simp [step, h.placed.head, goto, ht])

/-- A call goes to the entry of the function and leaves the number of the line behind it on the stack. -/
theorem Spans.call {f : String} (h : Spans img k (instrs [.call f]) j) (ht : img.code.idxOf? (.entry f) = some t)
    (s : State) : Runs img ⟨k, s⟩ ⟨t, s.push (BitVec.ofNat 64 j)⟩ := by
  rw [← h.last]
  exact .of_step (by simp [step, h.placed.head, goto, ht, instrs])

/-- A comparison with zero, and a jump if it is met. -/
theorem Spans.jumpZero {l : Label} (h : Spans img k (instrs [.alu .cmp .quad (.imm 0) .rax, .jumpEqual l]) j)
    (ht : img.code.idxOf? (.label l) = some t) (s : State) :
    Runs img ⟨k, s⟩ ⟨if (s.regs .rax).toInt = 0 then t else j, combine .cmp 0 .rax s⟩ := by
  have hcmp : Runs img ⟨k, s⟩ ⟨k + 1, combine .cmp 0 .rax s⟩ :=
    .of_step (step_of_act h.placed.head (act_alu_imm s .rax 0 .cmp))
  refine hcmp.trans (.of_step ?_)
  rw [← h.last]
  have hzero : (Flags.ofSub (s.regs .rax) 0).zero = decide ((s.regs .rax).toInt = 0) := by
    rw [zero_ofSub]
    rfl
  simp only [step, h.placed.tail.head, combine, Option.bind_some, hzero, goto, ht, Option.map_some, decide_eq_true_eq]
  split <;> rfl

end Exec

/-! ### Code that computes -/

/-- The second state differs from the first at most in registers for values and in so many words below the stack. -/
structure Keeps (words : Nat) (s s' : State) : Prop where
  rsp : s'.regs .rsp = s.regs .rsp
  rbp : s'.regs .rbp = s.regs .rbp
  mem : ∀ k, k + 8 * words < 18446744073709551616 → s'.mem (off (s.regs .rsp) k) = s.mem (off (s.regs .rsp) k)

namespace Keeps

variable {words more : Nat} {s s' s'' : State}

theorem refl (words : Nat) (s : State) : Keeps words s s := ⟨rfl, rfl, fun _ _ => rfl⟩

theorem mono (h : Keeps words s s') (hm : words ≤ more) : Keeps more s s' :=
  ⟨h.rsp, h.rbp, fun k hk => h.mem k (by omega)⟩

/-- A register for values may change. -/
theorem set (h : Keeps words s s') {r : Register} (v : Word) (hsp : r ≠ .rsp) (hbp : r ≠ .rbp) :
    Keeps words s (s'.set r v) := by
  refine ⟨?_, ?_, fun k hk => h.mem k hk⟩
  · rw [State.set_regs_of_ne _ _ hsp.symm, h.rsp]
  · rw [State.set_regs_of_ne _ _ hbp.symm, h.rbp]

/-- Flags may change. -/
theorem flags (h : Keeps words s s') (f : Option Flags) : Keeps words s { s' with flags := f } :=
  ⟨h.rsp, h.rbp, h.mem⟩

end Keeps

/-- The code leaves a value in `%rax` and gives the stack back, having used so many words of it. -/
def Computes (img : Image) (code : List Instr) (words : Nat) (s : State) (v : Word) : Prop :=
  Leads img code s fun s' => s'.regs .rax = v ∧ Keeps words s s'

/-- The words in use on the stack stay as they are under a word that is pushed. -/
theorem push_mem_off (s : State) (v : Word) {k : Nat} (hk : k + 8 < 18446744073709551616) :
    (s.push v).mem (off (s.regs .rsp) k) = s.mem (off (s.regs .rsp) k) := by
  have h := Memory.write_apply_of_apart (m := s.mem) (a := s.regs .rsp - 8) (n := 8) (v := v.toNat) (j := 0)
    (k := 8 + k) (by omega) (by omega) (by omega)
  rwa [off_zero, off_sub_eight] at h

/-- Computes two operands, given the instructions for each. -/
def operandInstrs (left right : List Instr) : List Instr :=
  left ++ ([Instr.push (.reg .rax)] ++ (right ++ [Instr.mov .quad (.reg .rax) (.reg .rcx), .pop .rax]))

/-- Two operands: the left one waits on the stack while the right one is computed. -/
theorem Leads.operands {img : Image} {left right : List Instr} {words : Nat} {s : State} {x y : Word}
    (hwords : 8 * (words + 1) ≤ 18446744073709551616) (hl : Computes img left words s x)
    (hr : ∀ s' : State, Keeps (words + 1) s s'.drop → Computes img right words s' y) :
    Leads img (operandInstrs left right) s fun s' =>
      s'.regs .rax = x ∧ s'.regs .rcx = y ∧ Keeps (words + 1) s s' := by
  refine hl.append ?_
  rintro s1 ⟨v1, k1⟩
  refine Leads.append (P := (· = s1.push x)) (.single (act_push_reg s1 .rax) (by rw [v1])) fun _ hs2 => ?_
  subst hs2
  have hpushed : Keeps (words + 1) s (s1.push x).drop := by
    refine ⟨by simp [k1.rsp], by simp [k1.rbp], fun k hk => ?_⟩
    have hp := push_mem_off s1 x (k := k) (by omega)
    rw [k1.rsp] at hp
    exact hp.trans (k1.mem k (by omega))
  refine (hr (s1.push x) hpushed).append ?_
  rintro s2 ⟨v2, k2⟩
  -- the word on top of the stack is still the left operand
  have htop : (s2.set .rcx y).top = x := by
    have hread : s2.mem.read (s2.regs .rsp) 8 = (s1.push x).mem.read ((s1.push x).regs .rsp) 8 := by
      rw [k2.rsp]
      exact Memory.read_congr fun i hi => k2.mem i (by omega)
    rw [State.top, State.set_mem, State.set_regs_of_ne _ _ (by simp), hread, ← State.top, State.top_push]
  refine .cons (act_mov_quad_reg s2 .rax .rcx) (.single (act_pop _ .rax) ?_)
  rw [v2, htop]
  refine ⟨by simp, by simp, Keeps.set ?_ x (by simp) (by simp)⟩
  have hsp : s2.regs .rsp + 8 = s.regs .rsp := by simp [k2.rsp, k1.rsp]
  refine ⟨by simpa using hsp, by simp [k2.rbp, k1.rbp], fun k hk => ?_⟩
  have h2 := k2.mem (8 + k) (by omega)
  rw [State.push_rsp, off_sub_eight, k1.rsp] at h2
  exact h2.trans (hpushed.mem k hk)

end Arvore.Machine
