import Mathlib
import Arvore.Proofs.Simulation.Shape

/-!
# Statements do what they say

The code of a statement, run from a state that represents a store, follows the run of the statement on that store: it
ends behind the code, or in front of the instructions that leave the function (`Exec.ends`). On the way nothing is
written but slots of variables and the free words below the stack pointer.
-/

namespace Arvore

open Assembly Machine

/-- The second state has the frame of the first, and memory above the frame pointer is as it was. -/
structure Steady (reach words : Nat) (s s' : State) : Prop where
  rsp : s'.regs .rsp = s.regs .rsp
  rbp : s'.regs .rbp = s.regs .rbp
  mem : ∀ k, reach ≤ k → k + 8 * words < 18446744073709551616 →
    s'.mem (off (s.regs .rsp) k) = s.mem (off (s.regs .rsp) k)

namespace Steady

variable {reach words : Nat} {s s' s'' : State}

theorem refl (reach words : Nat) (s : State) : Steady reach words s s := ⟨rfl, rfl, fun _ _ _ => rfl⟩

theorem of_keeps (h : Keeps words s s') : Steady reach words s s' := ⟨h.rsp, h.rbp, fun k _ hk => h.mem k hk⟩

theorem trans (h : Steady reach words s s') (h' : Steady reach words s' s'') : Steady reach words s s'' := by
  refine ⟨h'.rsp.trans h.rsp, h'.rbp.trans h.rbp, fun k hr hk => ?_⟩
  have hm := h'.mem k hr hk
  rw [h.rsp] at hm
  rw [hm, h.mem k hr hk]

end Steady

section Leads

variable {img : Image} {scope : Scope} {size reach words : Nat} {σ : Store} {s : State}

/-- What straight code does that changes the store. -/
def Updates (img : Image) (scope : Scope) (reach words : Nat) (code : List Instr) (s : State) (σ' : Store) : Prop :=
  Leads img code s fun s' => Represents scope.locals reach words σ' s' ∧ Steady reach words s s'

theorem Value.bits_eq (v : Value) : v.word.toNat % 256 ^ v.size = v.bits := by
  cases v with
  | int n =>
    have h : ((BitVec.ofInt 64 n.toInt).setWidth 32).toNat = (BitVec.ofInt 32 n.toInt).toNat := by rw [setWidth_ofInt]
    rw [BitVec.toNat_setWidth, BitVec.ofInt_toInt] at h
    exact h
  | truth b => cases b <;> rfl

theorem Ty.width_bytes {t : Ty} {w : Width} {v : Value} (hw : t.width = .ok w) (hv : v.type = t) :
    w.bytes = v.size := by
  subst hv
  cases v <;> cases hw <;> rfl

/-- A value is stored from an operand that holds it. -/
theorem updates_mov (img : Image) (hp : scope.locals.Packed size) (hsize : size ≤ reach)
    (hs : Represents scope.locals reach words σ s) {x : String} {symbol : Symbol}
    (hx : scope.locals.find? x = some symbol) {w : Width} (hw : symbol.type.width = .ok w) {v : Value}
    (hv : v.type = symbol.type) (src : Operand) (hsrc : inMemory src = false)
    (hval : s.value? img w src = some (v.word.toNat % 256 ^ w.bytes)) :
    Updates img scope reach words [.mov w src symbol.place] s (σ.set x v) := by
  have hbytes := Ty.width_bytes hw hv
  refine .single (act_mov_mem s .rbp symbol.offset hsrc hval) ?_
  rw [hbytes]
  refine ⟨hs.store hp hsize hx hv (by rw [Nat.mod_mod, v.bits_eq]), rfl, rfl, fun k hr hk => ?_⟩
  -- the slot lies below everything that has to stay
  have hroom := hs.room
  have hwithin := hp.within x symbol hx
  have hsmall : v.size ≤ 8 := by cases v <;> simp [Value.size]
  rw [Symbol.bytes, Value.size_of_type hv, Option.getD_some] at hwithin
  dsimp only
  rw [hs.rbp, frame_address (by omega)]
  exact Memory.write_apply_of_apart (by omega) (by omega) (by omega)

theorem Expr.word_of_immediate {e : Expr} {z : Int} {v : Value} (hz : e.immediate? = some z)
    (hv : e.eval σ = some v) : v.word = BitVec.ofInt 64 z := by
  cases e with
  | number line text =>
    obtain ⟨-, hi, hb⟩ := Numeral.immediate?_eq_some hz
    simp only [eval, hi, Option.map_some, Option.some.injEq] at hv
    rw [← hv, Value.word, Value.number_ofInt hb]
  | boolean line word =>
    cases hz
    cases hv
    rw [Value.word, truthValue_eq]
  | _ => cases hz

/-- An assignment changes one variable. -/
theorem AssignCode.updates (hp : scope.locals.Packed size) (hsize : size ≤ reach) {x : String} {e : Expr}
    {code : List Instr} (h : AssignCode scope words x e code) (hs : Represents scope.locals reach words σ s)
    {v : Value} (hv : e.eval σ = some v) : Updates img scope reach words code s (σ.set x v) := by
  have htyped : ∀ y ∈ e.names, ∀ symbol, scope.locals.find? y = some symbol → (σ y).type = symbol.type :=
    fun y _ symbol hy => (hs.holds y symbol hy).type
  cases h with
  | direct hx hw he hz =>
    refine updates_mov img hp hsize hs hx hw (he.type_eq htyped hv) _ rfl ?_
    rw [Expr.word_of_immediate hz hv]
    rfl
  | computed hx hw he hd =>
    have htype := he.type_eq htyped hv
    refine Leads.append ((he.computes img hp hsize (hs.mono hd) hv).mono hd) ?_
    rintro s' ⟨hr, hk⟩
    have hmov := updates_mov img hp hsize (hs.keeps hp hsize hk) hx hw htype (.reg .rax) rfl
      (by rw [← hr]; rfl)
    exact hmov.mono fun s'' h => ⟨h.1, (Steady.of_keeps hk).trans h.2⟩

/-- The initial values of a declaration, one after the other. -/
theorem ItemsCode.updates (hp : scope.locals.Packed size) (hsize : size ≤ reach) {items : List DeclItem}
    {code : List Instr} (h : ItemsCode scope words items code) (hs : Represents scope.locals reach words σ s)
    {σ' : Store} (hv : items.foldlM DeclItem.exec σ = some σ') : Updates img scope reach words code s σ' := by
  induction h generalizing σ s with
  | nil =>
    cases hv
    exact .nil ⟨hs, .refl _ _ _⟩
  | skip hi _ ih =>
    rw [List.foldlM_cons, DeclItem.exec, hi] at hv
    exact ih hs hv
  | init hi he _ ih =>
    simp only [List.foldlM_cons, DeclItem.exec, hi, Option.bind_eq_bind, Option.bind_eq_some_iff,
      Option.map_eq_some_iff] at hv
    obtain ⟨_, ⟨v, hv, rfl⟩, hrest⟩ := hv
    refine Leads.append (he.updates hp hsize hs hv) ?_
    rintro s' ⟨hrep, hst⟩
    exact (ih hrep hrest).mono fun s'' h => ⟨h.1, hst.trans h.2⟩

/-- Counting a variable on. -/
theorem updates_increment (hp : scope.locals.Packed size) (hsize : size ≤ reach) {op : StepOp} {x : String}
    {symbol : Symbol} (hx : scope.locals.find? x = some symbol) (ht : symbol.type = .integer)
    (hs : Represents scope.locals reach words σ s) :
    Updates img scope reach words (incrementInstrs op symbol) s (σ.set x (.ofInt ((σ x).number + op.amount))) := by
  have hload := (computes_movSigned img (hs.holds x symbol hx) ht).mono (Nat.zero_le words)
  refine Leads.append hload ?_
  rintro s1 ⟨hr, hk⟩
  let v := Value.ofInt ((σ x).number + op.amount)
  have hadd : Leads img [.alu (if op = .down then .sub else .add) .quad (.imm 1) .rax] s1 fun s2 =>
      s2.regs .rax = BitVec.ofInt 64 ((σ x).number + op.amount) ∧ Keeps words s s2 := by
    refine .single (act_alu_imm s1 .rax 1 _) ?_
    by_cases ho : op = .down
    · subst ho
      refine ⟨?_, (hk.set _ (by simp) (by simp)).flags _⟩
      simp only [if_true, combine, State.set_regs_self, hr, StepOp.amount]
      rw [Value.word, ← ofInt_sub, Int.sub_eq_add_neg]
    · rw [if_neg ho]
      refine ⟨?_, (hk.set _ (by simp) (by simp)).flags _⟩
      have ha : op.amount = 1 := by cases op <;> first | rfl | exact absurd rfl ho
      simp only [combine, State.set_regs_self, hr, ha]
      rw [Value.word, ← BitVec.ofInt_add]
  refine Leads.append hadd ?_
  rintro s2 ⟨hr2, hk2⟩
  have hbits : v.word.toNat % 256 ^ 4 = (s2.regs .rax).toNat % 256 ^ 4 := by
    have h := congrArg BitVec.toNat (setWidth_ofInt ((σ x).number + op.amount))
    rw [BitVec.toNat_setWidth, ← hr2] at h
    exact v.bits_eq.trans h.symm
  have hmov := updates_mov img hp hsize (hs.keeps hp hsize hk2) hx (w := .long) (by rw [ht]; rfl) (v := v)
    (by rw [ht]; rfl) (.reg .rax) rfl (by rw [Width.bytes, hbits]; rfl)
  exact hmov.mono fun s'' h => ⟨h.1, (Steady.of_keeps hk2).trans h.2⟩

end Leads

/-! ### Conditions -/

section Runs

variable {img : Image} {scope : Scope} {size reach words : Nat}

theorem Value.isTrue_iff {v : Value} (h : v.type = .logical) : v.isTrue = true ↔ v.number ≠ 0 := by
  cases v with
  | int n => cases h
  | truth b => cases b <;> decide

/-- A condition is computed, and the run goes on behind the test or at its label. -/
theorem runs_test (hp : scope.locals.Packed size) (hsize : size ≤ reach) {c : Expr} {cond : List Instr}
    (hc : Compiles scope c .logical cond) (hd : c.depth ≤ words) {σ : Store} {v : Value} (hv : c.eval σ = some v)
    {l : Label} {t k j : Nat} (hcode : Spans img k (testCode (instrs cond) l) j)
    (ht : img.code.idxOf? (.label l) = some t) {s : State} (hs : Represents scope.locals reach words σ s) :
    ∃ s', Runs img ⟨k, s⟩ ⟨if v.isTrue then j else t, s'⟩ ∧ Represents scope.locals reach words σ s' ∧
      Steady reach words s s' := by
  have htype := hc.type_eq (fun y _ symbol hy => (hs.holds y symbol hy).type) hv
  obtain ⟨m, hcond, htest⟩ := spans_append.1 hcode
  obtain ⟨s1, he, hr, hk⟩ := (hc.computes img hp hsize (hs.mono hd) hv).mono hd
  have hk2 : Keeps words s (combine .cmp 0 .rax s1) := hk.flags _
  refine ⟨_, ?_, hs.keeps hp hsize hk2, .of_keeps hk2⟩
  have hjump := htest.jumpZero ht s1
  rw [hr, Value.toInt_word] at hjump
  have hrun := (hcond.runs he).trans hjump
  cases hi : v.isTrue with
  | true =>
    rw [if_neg ((Value.isTrue_iff htype).1 hi)] at hrun
    exact hrun
  | false =>
    have h0 : v.number = 0 := by simpa [hi] using (Value.isTrue_iff htype).not
    rw [if_pos h0] at hrun
    exact hrun

/-- One round of a loop. Its condition is tested on the way to the body or behind the loop, and the run is back at the
start behind the step. -/
theorem runs_loop (hp : scope.locals.Packed size) (hsize : size ≤ reach) {c : Expr} {cond : List Instr}
    (hc : Compiles scope c .logical cond) (hd : c.depth ≤ words) {body step : Listing} {top done : Label} {k j : Nat}
    (hpl : Spans img k ([.label top] ++ (testCode (instrs cond) done ++
      (body ++ (step ++ (instrs [.jump top] ++ [.label done]))))) j) :
    ∃ first second last, Spans img first body second ∧ Spans img second step last ∧
      (∀ s, Runs img ⟨last, s⟩ ⟨k, s⟩) ∧
      ∀ {σ v s}, c.eval σ = some v → Represents scope.locals reach words σ s →
        ∃ s', Runs img ⟨k, s⟩ ⟨if v.isTrue then first else j, s'⟩ ∧ Represents scope.locals reach words σ s' ∧
          Steady reach words s s' := by
  obtain ⟨_, htop, hpl⟩ := spans_append.1 hpl
  obtain ⟨first, htest, hpl⟩ := spans_append.1 hpl
  obtain ⟨second, hbody, hpl⟩ := spans_append.1 hpl
  obtain ⟨last, hstep, hpl⟩ := spans_append.1 hpl
  obtain ⟨_, hjump, hdone⟩ := spans_append.1 hpl
  obtain ⟨htop, hpassTop⟩ := htop.label
  obtain ⟨hdone, hpass⟩ := hdone.label
  refine ⟨first, second, last, hbody, hstep, hjump.jump htop, fun {σ v s} hv hs => ?_⟩
  obtain ⟨s', hrun, hrep, hst⟩ := runs_test hp hsize hc hd hv htest hdone hs
  refine ⟨s', (hpassTop s).trans ?_, hrep, hst⟩
  cases hi : v.isTrue with
  | true =>
    rw [hi] at hrun
    exact hrun
  | false =>
    rw [hi] at hrun
    exact hrun.trans (hpass s')

/-! ### Runs of statements -/

/-- How a run of code ends for an outcome: at its last line, or where the function is left with the result. -/
def Ends (img : Image) (scope : Scope) (reach words : Nat) (c : Config) (last : Nat) : Outcome → Prop
  | .next σ => ∃ s, Runs img c ⟨last, s⟩ ∧ Represents scope.locals reach words σ s ∧ Steady reach words c.state s
  | .done σ result => ∃ k s, Runs img c ⟨k, s⟩ ∧ Placed img k leaveCode ∧
      Represents scope.locals reach words σ s ∧ Steady reach words c.state s ∧
      ∀ v, result = some v → s.regs .rax = v.word

namespace Ends

variable {c c' : Config} {mid last : Nat} {o : Outcome}

/-- Something is run first. -/
theorem after (h : Ends img scope reach words c' last o) (hr : Runs img c c')
    (hst : Steady reach words c.state c'.state) : Ends img scope reach words c last o := by
  cases o with
  | next σ =>
    obtain ⟨s, hrun, hrep, hst'⟩ := h
    exact ⟨s, hr.trans hrun, hrep, hst.trans hst'⟩
  | done σ result =>
    obtain ⟨k, s, hrun, hcode, hrep, hst', hres⟩ := h
    exact ⟨k, s, hr.trans hrun, hcode, hrep, hst.trans hst', hres⟩

/-- The run goes on to another line. -/
theorem goesOn (h : Ends img scope reach words c mid o) (hr : ∀ s, Runs img ⟨mid, s⟩ ⟨last, s⟩) :
    Ends img scope reach words c last o := by
  cases o with
  | next σ =>
    obtain ⟨s, hrun, hrest⟩ := h
    exact ⟨s, hrun.trans (hr s), hrest⟩
  | done σ result => exact h

end Ends

/-- The code of a task, run from a state that represents a store, follows the run of the task on that store. -/
theorem Exec.ends (hp : scope.locals.Packed size) (hsize : size ≤ reach) {σ : Store} {task : Task} {o : Outcome}
    (h : Exec σ task o) {code : Listing} (hc : Task.Code scope words task code) {k j : Nat}
    (hpl : Spans img k code j) {s : State} (hs : Represents scope.locals reach words σ s) :
    Ends img scope reach words ⟨k, s⟩ j o := by
  -- straight code that changes the store
  have straight {code : List Instr} {k j : Nat} {s : State} {σ' : Store}
      (h : Updates img scope reach words code s σ') (hpl : Spans img k (instrs code) j) :
      Ends img scope reach words ⟨k, s⟩ j (.next σ') := by
    obtain ⟨s', he, hrep, hst⟩ := h
    exact ⟨s', hpl.runs he, hrep, hst⟩
  induction h generalizing code k j s with
  | declare hv =>
    cases hc with
    | declare hi => exact straight (hi.updates hp hsize hs hv) hpl
  | assign hv =>
    cases hc with
    | assign ha => exact straight (ha.updates hp hsize hs hv) hpl
  | increment =>
    cases hc with
    | increment hx ht => exact straight (updates_increment hp hsize hx ht hs) hpl
  | @ifThen _ _ _ _ v _ hv _ ih =>
    cases hc with
    | ifThen hcomp hd hblock =>
      obtain ⟨_, htest, hpl⟩ := spans_append.1 hpl
      obtain ⟨_, hb, hdone⟩ := spans_append.1 hpl
      obtain ⟨hdone, hpass⟩ := hdone.label
      obtain ⟨s', hrun, hrep, hst⟩ := runs_test hp hsize hcomp hd hv htest hdone hs
      refine Ends.after (Ends.goesOn ?_ hpass) hrun hst
      cases hi : v.isTrue with
      | true =>
        simp only [hi, if_true] at ih ⊢
        exact ih hblock hb hrep
      | false =>
        simp only [hi, Bool.false_eq_true, if_false] at ih ⊢
        exact ih .nil (spans_nil.2 rfl) hrep
  | @ifElse _ _ _ _ _ v _ hv _ ih =>
    cases hc with
    | ifElse hcomp hd hblock hsecond =>
      obtain ⟨_, htest, hpl⟩ := spans_append.1 hpl
      obtain ⟨_, hb, hpl⟩ := spans_append.1 hpl
      obtain ⟨_, hjump, hpl⟩ := spans_append.1 hpl
      obtain ⟨_, hother, hpl⟩ := spans_append.1 hpl
      obtain ⟨_, ho, hdone⟩ := spans_append.1 hpl
      obtain ⟨hother, hpassOther⟩ := hother.label
      obtain ⟨hdone, hpass⟩ := hdone.label
      obtain ⟨s', hrun, hrep, hst⟩ := runs_test hp hsize hcomp hd hv htest hother hs
      refine Ends.after ?_ hrun hst
      cases hi : v.isTrue with
      | true =>
        simp only [hi, if_true] at ih ⊢
        exact ((ih hblock hb hrep).goesOn (hjump.jump hdone)).goesOn hpass
      | false =>
        simp only [hi, Bool.false_eq_true, if_false] at ih ⊢
        exact ((ih hsecond ho hrep).after (hpassOther s') (.refl _ _ _)).goesOn hpass
  | whileDo _ ih =>
    cases hc with
    | whileDo hloop => exact ih hloop hpl hs
  | forDo _ _ ihi ih =>
    cases hc with
    | forDo hinit hloop =>
      obtain ⟨_, hpi, hpl⟩ := spans_append.1 hpl
      obtain ⟨s', hrun, hrep, hst⟩ := ihi hinit hpi hs
      exact (ih hloop hpl hrep).after hrun hst
  | leave =>
    cases hc with
    | leave => exact ⟨k, s, .refl, hpl.placed, hs, .refl _ _ _, by simp⟩
  | result hv =>
    cases hc with
    | result he hd =>
      obtain ⟨m, hcode, hleave⟩ := spans_append.1 hpl
      obtain ⟨s', hexec, hr, hk⟩ := (he.computes img hp hsize (hs.mono hd) hv).mono hd
      refine ⟨m, s', hcode.runs hexec, hleave.placed, hs.keeps hp hsize hk, .of_keeps hk, ?_⟩
      rintro _ ⟨⟩
      exact hr
  | nil =>
    cases hc with
    | nil =>
      obtain rfl := spans_nil.1 hpl
      exact ⟨s, .refl, hs, .refl _ _ _⟩
  | cons _ _ ih ihr =>
    cases hc with
    | cons hfirst hothers =>
      obtain ⟨_, hpf, hpo⟩ := spans_append.1 hpl
      obtain ⟨s', hrun, hrep, hst⟩ := ih hfirst hpf hs
      exact (ihr hothers hpo hrep).after hrun hst
  | consDone _ ih =>
    cases hc with
    | cons hfirst hothers =>
      obtain ⟨_, hpf, -⟩ := spans_append.1 hpl
      exact ih hfirst hpf hs
  | loopEnd hv hf =>
    cases hc with
    | loop hcomp hd =>
      obtain ⟨_, _, _, -, -, -, htest⟩ := runs_loop hp hsize hcomp hd hpl
      obtain ⟨s', hrun, hrep, hst⟩ := htest hv hs
      rw [hf] at hrun
      exact ⟨s', hrun, hrep, hst⟩
  | loopNext hv ht _ _ _ ihb ihs ih =>
    have hloop := hc
    cases hc with
    | loop hcomp hd hblock hafter =>
      obtain ⟨_, _, _, hbody, hstep, hback, htest⟩ := runs_loop hp hsize hcomp hd hpl
      obtain ⟨s', hrun, hrep, hst⟩ := htest hv hs
      rw [ht] at hrun
      obtain ⟨s1, hrun1, hrep1, hst1⟩ := ihb hblock hbody hrep
      obtain ⟨s2, hrun2, hrep2, hst2⟩ := ihs hafter hstep hrep1
      have hround := hrun.trans (hrun1.trans (hrun2.trans (hback s2)))
      exact (ih hloop hpl hrep2).after hround (hst.trans (hst1.trans hst2))
  | loopDone hv ht _ ihb =>
    cases hc with
    | loop hcomp hd hblock =>
      obtain ⟨_, _, _, hbody, -, -, htest⟩ := runs_loop hp hsize hcomp hd hpl
      obtain ⟨s', hrun, hrep, hst⟩ := htest hv hs
      rw [ht] at hrun
      exact (ihb hblock hbody hrep).after hrun hst

end Runs

end Arvore
