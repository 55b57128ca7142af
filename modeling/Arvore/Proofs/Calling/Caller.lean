import Mathlib
import Arvore.Proofs.Code.Listing

/-!
# The caller

A call computes its arguments one after the other and leaves them on the stack, the last one on top (`goes_args`).
How they are computed is left open (`Arguments`). Those from the seventh on are pushed again in the opposite order,
the first six are loaded into registers. So at the entry of the function the return address is on top of the stack,
the seventh argument follows and then the others in order (`runs_callCode`).
-/

namespace Arvore

open Assembly Machine

/-! ### Words on the stack -/

/-- Memory holds the words from an address on, one after the other. -/
def Machine.Memory.Words (m : Memory) (a : Word) (vs : List Word) : Prop :=
  ∀ i v, vs[i]? = some v → m.read (off a (8 * i)) 8 = v.toNat

namespace Machine.Memory.Words

variable {m m' : Memory} {a : Word} {v : Word} {vs ws : List Word}

theorem head (h : m.Words a (v :: vs)) : m.read a 8 = v.toNat := by simpa using h 0 v rfl

theorem left (h : m.Words a (vs ++ ws)) : m.Words a vs := by
  intro i v hv
  obtain ⟨hi, -⟩ := List.getElem?_eq_some_iff.1 hv
  exact h i v (by rw [List.getElem?_append_left hi, hv])

theorem congr (h : m.Words a vs) (hm : ∀ k < 8 * vs.length, m' (off a k) = m (off a k)) : m'.Words a vs := by
  intro i v hv
  obtain ⟨hi, -⟩ := List.getElem?_eq_some_iff.1 hv
  rw [← h i v hv]
  refine Memory.read_congr fun j hj => ?_
  rw [off_off]
  exact hm _ (by omega)

theorem cons (h : m.read a 8 = v.toNat) (hs : m.Words (off a 8) vs) : m.Words a (v :: vs) := by
  intro i w hw
  cases i with
  | zero =>
    cases hw
    simpa using h
  | succ i =>
    rw [← hs i w (by simpa using hw), off_off, Nat.mul_add, Nat.mul_one, Nat.add_comm]

end Machine.Memory.Words

/-- Coming from one state to another, so many words on top of the stack and the two pointers stayed as they were. -/
structure StackKept (n : Nat) (s s' : State) : Prop where
  rsp : s'.regs .rsp = s.regs .rsp
  rbp : s'.regs .rbp = s.regs .rbp
  words : ∀ k < 8 * n, s'.mem (off (s.regs .rsp) k) = s.mem (off (s.regs .rsp) k)

/-- The second state has the frame of the first, and these words on its stack that the first does not have. -/
structure Pushed (vs : List Word) (s s' : State) : Prop where
  rsp : off (s'.regs .rsp) (8 * vs.length) = s.regs .rsp
  rbp : s'.regs .rbp = s.regs .rbp
  words : s'.mem.Words (s'.regs .rsp) vs

namespace Pushed

variable {vs : List Word} {s s' u : State}

theorem refl (s : State) : Pushed [] s s := ⟨by simp, rfl, by simp [Memory.Words]⟩

/-- One more word is pushed. -/
theorem push (h : Pushed vs s s') (v : Word) (hroom : 8 * (vs.length + 1) < 9223372036854775808) :
    Pushed (v :: vs) s (s'.push v) := by
  refine ⟨?_, by simp [h.rbp], .cons ?_ ?_⟩
  · rw [State.push_rsp, List.length_cons, Nat.mul_add, Nat.add_comm, off_sub_eight, h.rsp]
  · rw [State.push_rsp, State.push_mem, Memory.read_write (by omega)]
    exact Nat.mod_eq_of_lt v.isLt
  · have hsp : off ((s'.push v).regs .rsp) 8 = s'.regs .rsp := by simpa using off_sub_eight (s'.regs .rsp) 0
    rw [hsp]
    exact h.words.congr fun k hk => push_mem_off s' v (by omega)

theorem kept (h : Pushed vs s s') (hk : StackKept vs.length s' u) : Pushed vs s u := by
  refine ⟨by rw [hk.rsp, h.rsp], hk.rbp.trans h.rbp, ?_⟩
  rw [hk.rsp]
  exact h.words.congr hk.words

/-- A register for values may change. -/
theorem set (h : Pushed vs s s') {r : Register} (v : Word) (hsp : r ≠ .rsp) (hbp : r ≠ .rbp) :
    Pushed vs s (s'.set r v) := by
  have hsame : (s'.set r v).regs .rsp = s'.regs .rsp := State.set_regs_of_ne _ _ hsp.symm
  refine ⟨by rw [hsame, h.rsp], ?_, by rw [hsame]; exact h.words⟩
  rw [State.set_regs_of_ne _ _ hbp.symm, h.rbp]

/-- A word on the stack, as an instruction finds it. -/
theorem read (h : Pushed vs s s') {i : Nat} {z : Int} (hz : z = 8 * i) {v : Word} (hv : vs[i]? = some v) :
    BitVec.ofNat 64 (s'.mem.read (s'.regs .rsp + BitVec.ofInt 64 z) 8) = v := by
  have ha : s'.regs .rsp + BitVec.ofInt 64 z = off (s'.regs .rsp) (8 * i) := by
    rw [hz, off, ← BitVec.ofInt_natCast]
    push_cast
    rfl
  rw [ha, h.words i v hv]
  simp

end Pushed

/-! ### Arguments -/

/-- A machine that does at least what the model does. It may know more instructions, such as those on reals, and
functions that are not in the listing. -/
structure Machine.Extends (img : Image) (goes : Config → Config → Prop) : Prop where
  run : ∀ {c c' : Config}, Runs img c c' → goes c c'
  trans : ∀ {a b c : Config}, goes a b → goes b c → goes a c

theorem Machine.extends_runs (img : Image) : Extends img (Runs img) := ⟨id, .trans⟩

/-- The arguments of a call are computed one after the other, with `n` words on the stack before the first of them. Each
is computed by its own code, drawn from the pool that the arguments before it have left, at its own place and from the
state in which they were pushed. All that is asked of a machine is that it comes to the end of this code and keeps the
words on the stack. The value in `%rax` is then pushed. -/
inductive Arguments (target : Target) (goes : Config → Config → Prop) :
    Nat → Pool → List Expr → Config → List Word → Prop
  | nil {n : Nat} {p : Pool} {c : Config} : Arguments target goes n p [] c []
  | cons {n k : Nat} {p q : Pool} {e : Expr} {rest : List Expr} {code : Listing} {s u : State} {values : List Word}
      (hcode : (e.code target).Emits p code q) (hrun : goes ⟨k, s⟩ ⟨k + code.length, u⟩) (hkept : StackKept n s u)
      (hrest : Arguments target goes (n + 1) q rest ⟨k + code.length + 1, u.push (u.regs .rax)⟩ values) :
      Arguments target goes n p (e :: rest) ⟨k, s⟩ (u.regs .rax :: values)

theorem Arguments.length_eq {target : Target} {goes : Config → Config → Prop} {n : Nat} {p : Pool} {args : List Expr}
    {c : Config} {values : List Word} (h : Arguments target goes n p args c values) : args.length = values.length := by
  induction h with
  | nil => rfl
  | cons _ _ _ _ ih => rw [List.length_cons, List.length_cons, ih]

/-- An argument that takes a single load. -/
theorem Arguments.load {target : Target} {img : Image} {n k : Nat} {p q : Pool} {e : Expr} {rest : List Expr}
    {src : Operand} {s : State} {v : Word} {values : List Word}
    (hcode : (e.code target).Emits p (instrs [.mov .quad src (.reg .rax)]) q)
    (hline : img.code[k]? = some (.instr (.mov .quad src (.reg .rax))))
    (hv : (s.value? img .quad src).map (BitVec.ofNat 64) = some v)
    (hrest : Arguments target (Runs img) (n + 1) q rest ⟨k + 2, (s.set .rax v).push v⟩ values) :
    Arguments target (Runs img) n p (e :: rest) ⟨k, s⟩ (v :: values) := by
  have hrun : Runs img ⟨k, s⟩ ⟨k + 1, s.set .rax v⟩ := .of_step (step_of_act hline (act_mov_quad s .rax hv))
  exact .cons hcode hrun ⟨rfl, rfl, fun _ _ => rfl⟩ hrest

/-- The code of an argument, the push of its value, and the code of the other arguments. -/
theorem Machine.Spans.argsCode_cons {img : Image} {target : Target} {e : Expr} {rest : List Expr} {p q : Pool}
    {code : Listing} {k j : Nat} (hpl : Spans img k code j) (hc : (Expr.argsCode target (e :: rest)).Emits p code q) :
    ∃ first others p', (e.code target).Emits p first p' ∧ Spans img k first (k + first.length) ∧
      Spans img (k + first.length) (instrs [.push (.reg .rax)]) (k + first.length + 1) ∧
      (Expr.argsCode target rest).Emits p' others q ∧ Spans img (k + first.length + 1) others j := by
  simp only [Expr.argsCode, Gen.emits_bind, Gen.emits_pure] at hc
  obtain ⟨first, p', hf, others, _, ho, rfl, rfl⟩ := hc
  rw [List.append_assoc] at hpl
  obtain ⟨m, hpf, hpl⟩ := spans_append.1 hpl
  obtain ⟨m', hpush, hpo⟩ := spans_append.1 hpl
  obtain rfl : k + first.length = m := hpf.last
  obtain rfl : k + first.length + 1 = m' := hpush.last
  exact ⟨first, others, p', hf, hpf, hpush, ho, hpo⟩

section Caller

variable {img : Image} {goes : Config → Config → Prop} {s s' : State}

/-- Arguments are left on the stack, the last one on top. -/
theorem goes_args (hm : Extends img goes) {target : Target} {n : Nat} {p q : Pool} {args : List Expr} {c : Config}
    {values : List Word} (h : Arguments target goes n p args c values) {vs : List Word} (hn : vs.length = n)
    (hroom : 8 * (n + args.length) < 9223372036854775808) {code : Listing}
    (hc : (Expr.argsCode target args).Emits p code q) {j : Nat} (hpl : Spans img c.line code j)
    (hs : Pushed vs s c.state) : ∃ u, goes c ⟨j, u⟩ ∧ Pushed (values.reverse ++ vs) s u := by
  induction h generalizing q code j vs with
  | @nil _ _ c =>
    simp only [Expr.argsCode, Gen.emits_pure] at hc
    obtain ⟨rfl, -⟩ := hc
    obtain rfl := spans_nil.1 hpl
    exact ⟨c.state, hm.run .refl, hs⟩
  | @cons n k p _ e rest own s₁ u values hcode hrun hkept _ ih =>
    obtain ⟨first, others, _, hf, -, hpush, ho, hpo⟩ := hpl.argsCode_cons hc
    obtain ⟨rfl, rfl⟩ := hf.unique hcode
    subst hn
    rw [List.length_cons] at hroom
    have hexec : exec img [.push (.reg .rax)] u = some (u.push (u.regs .rax)) := by simp [exec]
    obtain ⟨u', hrun', hall⟩ := ih rfl (by omega) ho hpo ((hs.kept hkept).push _ (by omega))
    refine ⟨u', hm.trans hrun (hm.trans (hm.run (hpush.runs hexec)) hrun'), ?_⟩
    simpa using hall

/-- The arguments from the seventh on are pushed again: the last of them, which is on top, comes first. -/
theorem leads_repush (img : Image) {values : List Word} (hroom : 16 * (values.length + 1) < 9223372036854775808)
    (hs : Pushed values.reverse s s') {count : Nat} (hcount : count ≤ values.length) :
    Leads img ((List.range count).map fun (i : Nat) => .push (.mem .rsp (16 * (i : Int)))) s'
      (Pushed (values.drop (values.length - count) ++ values.reverse) s) := by
  induction count with
  | zero => exact .nil (by simpa using hs)
  | succ i ih =>
    rw [List.range_succ, List.map_append]
    refine (ih (by omega)).append fun u hu => ?_
    have hlt : values.length - (i + 1) < values.length := by omega
    -- above the words that have been pushed again lie the arguments, the last one first
    have hfind : (values.drop (values.length - i) ++ values.reverse)[2 * i]? =
        some (values[values.length - (i + 1)]) := by
      have hlen : (values.drop (values.length - i)).length = i := by
        rw [List.length_drop]
        omega
      rw [List.getElem?_append_right (by omega), hlen, List.getElem?_reverse (by omega)]
      rw [show values.length - 1 - (2 * i - i) = values.length - (i + 1) by omega, List.getElem?_eq_getElem hlt]
    have hread := hu.read (z := 16 * (i : Int)) (by push_cast; ring) hfind
    refine .single (act_push_mem u .rsp _) ?_
    rw [hread]
    have hnext := hu.push (values[values.length - (i + 1)]) (by simp; omega)
    rw [← List.cons_append, show values.length - i = values.length - (i + 1) + 1 by omega,
      List.getElem_cons_drop] at hnext
    exact hnext

/-- Loads words from the stack into registers. -/
theorem leads_loads {ws : List Word} (hs : Pushed ws s s') {loads : List (Register × Nat)}
    (hn : (loads.map Prod.fst).Nodup) (hr : ∀ r ∈ loads.map Prod.fst, r ≠ .rsp ∧ r ≠ .rbp)
    (hi : ∀ l ∈ loads, l.2 < ws.length) :
    Leads img (loads.map fun l => .mov .quad (.mem .rsp (8 * (l.2 : Int))) (.reg l.1)) s' fun u => Pushed ws s u ∧
      (∀ l ∈ loads, ws[l.2]? = some (u.regs l.1)) ∧ ∀ r, r ∉ loads.map Prod.fst → u.regs r = s'.regs r := by
  induction loads generalizing s' with
  | nil => exact .nil ⟨hs, by simp, by simp⟩
  | cons l rest ih =>
    rw [List.map_cons, List.nodup_cons] at hn
    simp only [List.map_cons, List.forall_mem_cons] at hr hi
    obtain ⟨v, hfind⟩ : ∃ v, ws[l.2]? = some v := ⟨_, List.getElem?_eq_getElem hi.1⟩
    rw [List.map_cons]
    refine .cons (act_mov_quad_mem s' .rsp l.1 _) ?_
    rw [hs.read rfl hfind]
    have hset := hs.set v hr.1.1 hr.1.2
    refine (ih hset hn.2 hr.2 hi.2).mono ?_
    rintro u ⟨hu, hloaded, hkept⟩
    refine ⟨hu, ?_, fun r hrest => ?_⟩
    · rw [List.forall_mem_cons]
      refine ⟨?_, hloaded⟩
      rw [hkept l.1 hn.1, State.set_regs_self, hfind]
    · simp only [List.map_cons, List.mem_cons, not_or] at hrest
      rw [hkept r hrest.2, State.set_regs_of_ne _ _ hrest.1]

/-- The first arguments are loaded into their registers. -/
theorem leads_registers (img : Image) {values : List Word} {extra : Nat}
    (hextra : extra = values.length - argumentRegisters.length)
    (hs : Pushed (values.drop (values.length - extra) ++ values.reverse) s s') :
    Leads img (registerCode values.length extra) s' fun u =>
      Pushed (values.drop (values.length - extra) ++ values.reverse) s u ∧
        ∀ (i : Nat) r v, argumentRegisters[i]? = some r → values[i]? = some v → u.regs r = v := by
  have hlen : (values.drop (values.length - extra)).length = extra := by
    rw [List.length_drop]
    omega
  -- each register with the place of its argument on the stack
  let loads := (argumentRegisters.take values.length).zipIdx.map fun l => (l.1, values.length - 1 - l.2 + extra)
  have hmem : ∀ l ∈ (argumentRegisters.take values.length).zipIdx, l.2 < values.length ∧
      argumentRegisters[l.2]? = some l.1 := by
    rintro ⟨r, i⟩ hl
    rw [List.mem_zipIdx_iff_getElem?, List.getElem?_take, Option.ite_none_right_eq_some] at hl
    exact hl
  have hfst : loads.map Prod.fst = argumentRegisters.take values.length := by
    rw [List.map_map]
    exact List.zipIdx_map_fst 0 _
  have hcode : registerCode values.length extra =
      loads.map fun l => .mov .quad (.mem .rsp (8 * (l.2 : Int))) (.reg l.1) := by
    rw [registerCode, List.map_map]
    refine List.map_congr_left ?_
    rintro ⟨r, i⟩ hl
    have hi : i < values.length := (hmem _ hl).1
    have hplace : 8 * ((values.length : Int) - 1 - i) + 8 * extra = 8 * (values.length - 1 - i + extra : Nat) := by
      omega
    dsimp only [Function.comp]
    rw [hplace]
  rw [hcode]
  refine (leads_loads hs ?_ ?_ ?_).mono ?_
  · rw [hfst]
    exact (by decide : argumentRegisters.Nodup).sublist (List.take_sublist _ _)
  · rw [hfst]
    exact fun r hr => (by decide : ∀ r ∈ argumentRegisters, r ≠ .rsp ∧ r ≠ .rbp) r (List.mem_of_mem_take hr)
  · intro l hl
    obtain ⟨l', hl', rfl⟩ := List.mem_map.1 hl
    have hi := (hmem l' hl').1
    rw [List.length_append, hlen, List.length_reverse]
    dsimp only
    omega
  · rintro u ⟨hu, hloaded, -⟩
    refine ⟨hu, fun i r v hr hv => ?_⟩
    obtain ⟨hi, -⟩ := List.getElem?_eq_some_iff.1 hv
    have hl : (r, i) ∈ (argumentRegisters.take values.length).zipIdx := by
      rw [List.mem_zipIdx_iff_getElem?, List.getElem?_take, if_pos hi]
      exact hr
    have hplace := hloaded _ (List.mem_map_of_mem hl)
    dsimp only at hplace
    rw [List.getElem?_append_right (by omega), hlen, Nat.add_sub_cancel, List.getElem?_reverse (by omega),
      show values.length - 1 - (values.length - 1 - i) = i by omega, hv] at hplace
    exact (Option.some.inj hplace).symm

/-! ### Calls -/

/-- Takes `n` arguments off the stack, with those that were pushed again. -/
def cleanupCode (n : Nat) : List Instr :=
  if n = 0 then [] else [.alu .add .quad (.imm (8 * (n + (n - argumentRegisters.length : Nat)))) .rsp]

/-- What a function finds at its entry, compared with the state before the call: the return address on top of the stack,
below it the arguments from the seventh on, and the first six arguments in registers. -/
structure Called (values : List Word) (back : Word) (s u : State) : Prop where
  pushed : Pushed (back :: (values.drop argumentRegisters.length ++ values.reverse)) s u
  registers : ∀ (i : Nat) r v, argumentRegisters[i]? = some r → values[i]? = some v → u.regs r = v

/-- Behind the arguments, the code of a call goes to the entry of the function. The return address is that of the code
which takes the arguments off again. -/
theorem runs_callCode {f : String} {values : List Word} (hroom : 16 * (values.length + 1) < 9223372036854775808)
    {m j t : Nat} (hpl : Spans img m (callCode f values.length) j) (ht : img.code.idxOf? (.entry f) = some t)
    (hs : Pushed values.reverse s s') :
    ∃ back u, Runs img ⟨m, s'⟩ ⟨t, u⟩ ∧ Called values (BitVec.ofNat 64 back) s u ∧ back ≤ img.code.length ∧
      Spans img back (instrs (cleanupCode values.length)) j := by
  simp only [callCode, instrs_append, List.append_assoc] at hpl
  obtain ⟨_, hrepush, hpl⟩ := spans_append.1 hpl
  obtain ⟨_, hload, hpl⟩ := spans_append.1 hpl
  obtain ⟨back, hcall, hclean⟩ := spans_append.1 hpl
  obtain ⟨s2, he2, h2⟩ := leads_repush img hroom hs (Nat.sub_le values.length argumentRegisters.length)
  obtain ⟨s3, he3, h3, hregs⟩ := leads_registers img rfl h2
  have hdrop : values.drop (values.length - (values.length - argumentRegisters.length)) =
      values.drop argumentRegisters.length := by
    rcases le_total argumentRegisters.length values.length with hle | hle
    · congr 1
      omega
    · rw [List.drop_eq_nil_of_le hle, List.drop_eq_nil_of_le (by omega)]
  rw [hdrop] at h3
  have hrun := (hrepush.runs he2).trans ((hload.runs he3).trans (hcall.call ht s3))
  refine ⟨back, _, hrun, ⟨h3.push _ ?_, fun i r v hr hv => ?_⟩, ?_, hclean⟩
  · simp only [List.length_append, List.length_drop, List.length_reverse]
    omega
  · have hne : r ≠ .rsp := (by decide : ∀ r ∈ argumentRegisters, r ≠ .rsp) r (List.mem_of_getElem? hr)
    rw [State.push_regs_of_ne _ _ hne]
    exact hregs i r v hr hv
  · obtain ⟨hin, -⟩ := List.getElem?_eq_some_iff.1 hcall.placed.head
    rw [← hcall.last]
    exact hin

/-- Behind the call the stack is given back. -/
theorem runs_cleanup {n back j : Nat} (hpl : Spans img back (instrs (cleanupCode n)) j)
    (hsp : off (s'.regs .rsp) (8 * (n + (n - argumentRegisters.length))) = s.regs .rsp) :
    ∃ u, Runs img ⟨back, s'⟩ ⟨j, u⟩ ∧ u.regs .rsp = s.regs .rsp ∧ u.mem = s'.mem ∧
      ∀ r, r ≠ .rsp → u.regs r = s'.regs r := by
  unfold cleanupCode at hpl
  split at hpl
  · subst n
    obtain rfl := spans_nil.1 hpl
    exact ⟨s', .refl, by simpa using hsp, rfl, fun _ _ => rfl⟩
  · have hadd : Leads img [.alu .add .quad (.imm (8 * (n + (n - argumentRegisters.length : Nat)))) .rsp] s' fun u =>
        u.regs .rsp = s.regs .rsp ∧ u.mem = s'.mem ∧ ∀ r, r ≠ .rsp → u.regs r = s'.regs r := by
      refine .single (act_alu_imm s' .rsp _ _) ⟨?_, rfl, fun r hr => State.set_regs_of_ne _ _ hr⟩
      rw [← hsp, off, ← BitVec.ofInt_natCast]
      push_cast
      simp only [combine, State.set_regs_self]
    obtain ⟨u, he, hu⟩ := hadd
    exact ⟨u, hpl.runs he, hu⟩

end Caller

end Arvore
