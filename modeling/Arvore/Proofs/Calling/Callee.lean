import Mathlib
import Arvore.Proofs.Calling.Caller
import Arvore.Proofs.Code.Total
import Arvore.Proofs.Simulation.Frame

/-!
# The callee

The head of a function makes the frame and copies every argument into the slot of its parameter, in the width of the
parameter. No slot shares a byte with another one or with what the caller has put on the stack, so afterwards every slot
holds its argument (`leads_spillCodes`), and loading it gives the argument back if it fits its type (`Spilled.loads`).
-/

namespace Arvore

open Assembly Machine

/-! ### Slots -/

theorem Ty.size?_of_width {t : Ty} {w : Width} (h : t.width = .ok w) : t.size? = some w.bytes := by
  cases t <;> cases h <;> rfl

section Slots

variable {m : Memory} {base : Word} {size n n' v : Nat} {z z' : Int}

/-- A slot as a distance from the lower end of its frame. -/
private theorem slot_eq_off (hz : -(size : Int) ≤ z) :
    base + BitVec.ofInt 64 z = off (base - BitVec.ofNat 64 size) (size + z).toNat := by
  rw [← frame_address hz, off, BitVec.sub_add_cancel]

/-- Writing a slot changes nothing above the frame. -/
theorem write_slot_above (hsize : size < 9223372036854775808) (hz : -(size : Int) ≤ z ∧ z + n ≤ 0) {k : Nat}
    (hk : k < 9223372036854775808) : (m.write (base + BitVec.ofInt 64 z) n v) (off base k) = m (off base k) := by
  have hbase : off base k = off (base - BitVec.ofNat 64 size) (size + k) := by
    rw [← off_off]
    congr 1
    rw [off, BitVec.sub_add_cancel]
  rw [slot_eq_off hz.1, hbase]
  exact Memory.write_apply_of_apart (by omega) (by omega) (by omega)

/-- Writing a slot changes no slot that lies apart from it. -/
theorem read_write_slot (hsize : size < 9223372036854775808) (hz : -(size : Int) ≤ z ∧ z + n ≤ 0)
    (hz' : -(size : Int) ≤ z' ∧ z' + n' ≤ 0) (h : z + n ≤ z' ∨ z' + n' ≤ z) :
    (m.write (base + BitVec.ofInt 64 z) n v).read (base + BitVec.ofInt 64 z') n' =
      m.read (base + BitVec.ofInt 64 z') n' := by
  rw [slot_eq_off hz.1, slot_eq_off hz'.1]
  exact Memory.read_write_of_apart (by omega) (by omega) (by omega)

end Slots

/-! ### Arguments -/

/-- The argument at a position, where a function finds it: in its register, or above the return address. -/
def Machine.State.argument (s : State) (i : Nat) : Word :=
  match argumentRegisters[i]? with
  | some r => s.regs r
  | none => BitVec.ofNat 64 (s.mem.read (off (s.regs .rbp) (16 + 8 * (i - argumentRegisters.length))) 8)

/-- The state of a function while it copies its arguments: the frame pointer, the registers for arguments and memory
above the frame stay as they are. -/
structure Copying (s s' : State) : Prop where
  regs : ∀ r, r ≠ .rax → s'.regs r = s.regs r
  mem : ∀ k < 9223372036854775808, s'.mem (off (s.regs .rbp) k) = s.mem (off (s.regs .rbp) k)

namespace Copying

variable {s s' s'' : State}

theorem refl (s : State) : Copying s s := ⟨fun _ _ => rfl, fun _ _ => rfl⟩

theorem trans (h : Copying s s') (h' : Copying s' s'') : Copying s s'' := by
  refine ⟨fun r hr => (h'.regs r hr).trans (h.regs r hr), fun k hk => ?_⟩
  have hm := h'.mem k hk
  rw [h.regs .rbp (by decide)] at hm
  rw [hm, h.mem k hk]

theorem argument (h : Copying s s') {i : Nat} (hi : 8 * i < 4611686018427387904) : s'.argument i = s.argument i := by
  unfold State.argument
  split
  · rename_i r hr
    exact h.regs r ((by decide : ∀ r ∈ argumentRegisters, r ≠ .rax) r (List.mem_of_getElem? hr))
  · rw [h.regs .rbp (by decide)]
    refine congrArg (BitVec.ofNat 64) (Memory.read_congr fun j hj => ?_)
    rw [off_off]
    exact h.mem _ (by omega)

end Copying

/-- The slot of a variable holds as many bytes of a word as it has. -/
def Symbol.Spilled (m : Memory) (base : Word) (s : Symbol) (v : Word) : Prop :=
  m.read (base + BitVec.ofInt 64 s.offset) s.bytes = v.toNat % 256 ^ s.bytes

/-- One argument is copied into a slot. -/
theorem leads_spillCode (img : Image) {symbol : Symbol} {i : Nat} {code : Listing}
    (h : symbol.spillCode i = .ok code) :
    ∃ is, code = instrs is ∧ ∀ s : State, Leads img is s fun s' => (∀ r, r ≠ .rax → s'.regs r = s.regs r) ∧
      s'.mem = s.mem.write (s.regs .rbp + BitVec.ofInt 64 symbol.offset) symbol.bytes
        ((s.argument i).toNat % 256 ^ symbol.bytes) := by
  have hbytes {w : Width} (hw : symbol.type.width = .ok w) : symbol.bytes = w.bytes := by
    rw [Symbol.bytes, Ty.size?_of_width hw, Option.getD_some]
  unfold Symbol.spillCode at h
  split at h
  · rename_i r hr
    obtain ⟨w, hw, h⟩ := bind_eq_ok_iff.1 h
    cases h
    refine ⟨_, rfl, fun s => .single (act_mov_mem s .rbp symbol.offset rfl rfl) ⟨fun _ _ => rfl, ?_⟩⟩
    rw [hbytes hw, State.argument, hr]
  · rename_i hr
    obtain ⟨stored, hs, h⟩ := bind_eq_ok_iff.1 h
    cases h
    obtain ⟨w, hw, hs⟩ := bind_eq_ok_iff.1 hs
    cases hs
    refine ⟨_, (instrs_append _ _).symm, fun s => ?_⟩
    refine .cons (act_mov_quad_mem s .rbp .rax _) (.single (act_mov_mem _ .rbp symbol.offset rfl rfl) ⟨?_, ?_⟩)
    · exact fun r hr => State.set_regs_of_ne _ _ hr
    · have hplace : (16 + 8 * ((i - argumentRegisters.length : Nat) : Int)) =
          (16 + 8 * (i - argumentRegisters.length) : Nat) := by push_cast; rfl
      rw [hbytes hw, State.argument, hr]
      simp only [State.set_mem, State.set_regs_self, hplace, BitVec.ofInt_natCast, off]
      rw [State.set_regs_of_ne _ _ (by decide)]

/-- All arguments are copied into the slots of their parameters. -/
theorem leads_spillCodes (img : Image) {target : Target} {size : Nat} (hp : target.scope.locals.Packed size)
    (hsize : size < 9223372036854775808) {params : List Param} (hnames : (params.map (·.target.name)).Nodup) {i : Nat}
    (hcount : 8 * (i + params.length) < 4611686018427387904) {code : Listing}
    (h : Param.spillCodes target i params = .ok code) :
    ∃ is, code = instrs is ∧ ∀ (s : State) (values : List Word), values.length = params.length →
      (∀ (j : Nat) v, values[j]? = some v → s.argument (i + j) = v) →
      Leads img is s fun s' => Copying s s' ∧
        (∀ x symbol, target.scope.locals.find? x = some symbol → x ∉ params.map (·.target.name) →
          s'.mem.read (s.regs .rbp + BitVec.ofInt 64 symbol.offset) symbol.bytes =
            s.mem.read (s.regs .rbp + BitVec.ofInt 64 symbol.offset) symbol.bytes) ∧
        List.Forall₂ (fun p v => ∃ symbol, target.scope.locals.find? p.target.name = some symbol ∧
          symbol.Spilled s'.mem (s.regs .rbp) v) params values := by
  induction params generalizing i code with
  | nil =>
    cases h
    refine ⟨[], rfl, fun s values hlen _ => .nil ⟨.refl s, fun _ _ _ _ => rfl, ?_⟩⟩
    rw [List.length_eq_zero_iff.1 hlen]
    exact .nil
  | cons p rest ih =>
    simp only [Param.spillCodes, bind_eq_ok_iff, Target.find_eq_ok_iff] at h
    obtain ⟨symbol, hx, first, hf, others, ho, h⟩ := h
    cases h
    rw [List.map_cons, List.nodup_cons] at hnames
    rw [List.length_cons] at hcount
    obtain ⟨is, rfl, hfirst⟩ := leads_spillCode img hf
    obtain ⟨js, rfl, hrest⟩ := ih hnames.2 (by omega) ho
    refine ⟨is ++ js, (instrs_append _ _).symm, fun s values hlen hargs => ?_⟩
    obtain ⟨v, vs, rfl⟩ : ∃ v vs, values = v :: vs := List.exists_cons_of_length_pos (by simp [hlen])
    have hv : s.argument i = v := hargs 0 v rfl
    have hw := hp.within _ symbol hx
    refine (hfirst s).append ?_
    rintro s1 ⟨hregs, hmem⟩
    rw [hv] at hmem
    have hcopy : Copying s s1 := ⟨hregs, fun k hk => by rw [hmem]; exact write_slot_above hsize hw hk⟩
    have hbp : s1.regs .rbp = s.regs .rbp := hregs .rbp (by decide)
    have hlater := hrest s1 vs (by simpa using hlen) fun j w hj => by
      obtain ⟨hlt, -⟩ := List.getElem?_eq_some_iff.1 hj
      simp only [List.length_cons, Nat.add_right_cancel_iff] at hlen
      rw [hcopy.argument (by omega), Nat.add_assoc, Nat.add_comm 1]
      exact hargs (j + 1) w (by simpa using hj)
    refine hlater.mono ?_
    rintro s2 ⟨hcopy2, hkept, hspilled⟩
    refine ⟨hcopy.trans hcopy2, fun x other hother hx' => ?_, ?_⟩
    · simp only [List.map_cons, List.mem_cons, not_or] at hx'
      have hsame := hkept x other hother hx'.2
      rw [hbp] at hsame
      rw [hsame, hmem]
      exact read_write_slot hsize hw (hp.within x other hother) (hp.apart _ _ _ _ (Ne.symm hx'.1) hx hother)
    · rw [hbp] at hspilled
      refine .cons ⟨symbol, hx, ?_⟩ hspilled
      have hsame := hkept _ symbol hx hnames.1
      rw [hbp] at hsame
      rw [Symbol.Spilled, hsame, hmem, Memory.read_write (by omega), Nat.mod_mod]

/-! ### Loading a slot -/

/-- Words that stand for a value of a type: an integer with its sign filled up, a byte with zeros, a real as it is. -/
def Ty.Carries (t : Ty) (v : Word) : Prop :=
  match t with
  | .integer => (v.setWidth 32).signExtend 64 = v
  | .logical | .character => v.toNat < 256
  | _ => True

instance (t : Ty) (v : Word) : Decidable (t.Carries v) :=
  match t with
  | .integer => inferInstanceAs (Decidable ((v.setWidth 32).signExtend 64 = v))
  | .logical | .character => inferInstanceAs (Decidable (v.toNat < 256))
  | .real | .function | .void | .other _ => inferInstanceAs (Decidable True)

/-- Loading the slot of a parameter gives the argument back. -/
theorem Symbol.Spilled.loads {img : Image} {symbol : Symbol} {s : State} {v : Word}
    (h : symbol.Spilled s.mem (s.regs .rbp) v) (hv : symbol.type.Carries v) {code : Listing}
    (hc : symbol.load = .ok code) : ∃ is, code = instrs is ∧ Leads img is s fun s' => s'.regs .rax = v := by
  obtain ⟨w, hw, hc⟩ := bind_eq_ok_iff.1 hc
  rw [Symbol.Spilled, Symbol.bytes, Ty.size?_of_width hw, Option.getD_some] at h
  cases w with
  | byte =>
    cases hc
    have hlt : v.toNat < 256 := by
      cases ht : symbol.type <;> rw [ht] at hw hv <;> cases hw <;> exact hv
    refine ⟨_, rfl, .single (act_movZero_mem s .rbp .rax _) ?_⟩
    rw [State.set_regs_self, show s.mem.read _ 1 = v.toNat % 256 ^ 1 from h, Nat.mod_eq_of_lt (by simpa using hlt)]
    simp
  | long =>
    cases hc
    have hext : (v.setWidth 32).signExtend 64 = v := by
      cases ht : symbol.type <;> rw [ht] at hw hv <;> cases hw
      exact hv
    refine ⟨_, rfl, .single (act_movSigned_mem s .rbp .rax _) ?_⟩
    have hbits : BitVec.ofNat 32 (v.toNat % 256 ^ 4) = v.setWidth 32 := by
      apply BitVec.eq_of_toNat_eq
      simp
    rw [State.set_regs_self, show s.mem.read _ 4 = v.toNat % 256 ^ 4 from h, hbits, hext]
  | quad =>
    cases hc
    refine ⟨_, rfl, .single (act_mov_quad_mem s .rbp .rax _) ?_⟩
    have hread : s.mem.read (s.regs .rbp + BitVec.ofInt 64 symbol.offset) 8 = v.toNat :=
      h.trans (Nat.mod_eq_of_lt v.isLt)
    rw [State.set_regs_self, hread]
    simp

end Arvore
