import Mathlib
import Arvore.Proofs.Analysis.Names
import Arvore.Proofs.Code.Total
import Arvore.Proofs.Machine.Integer
import Arvore.Proofs.Simulation.Frame

/-!
# Expressions compute their values

The code of an expression on integers and truth values is straight, draws no labels, and leaves the value of the
expression in `%rax`. The relation `Compiles` describes the instructions without the generation of code around them;
`Compiles.computes` runs them.
-/

namespace Arvore

open Assembly Machine

/-! ### Types and values -/

/-- All variables are integers or truth values. -/
def Scope.Scalar (scope : Scope) : Prop := ∀ x s, scope.locals.find? x = some s → s.type.isScalar = true

theorem Ty.eq_integer_of_isNumeric {t : Ty} (hs : t.isScalar = true) (hn : t.isNumeric = true) : t = .integer := by
  cases t with
  | integer => rfl
  | logical => cases hn
  | _ => simp [isScalar] at hs

theorem Numeral.immediate?_eq_some {text : String} {z : Int} (h : immediate? text = some z) :
    isIntegral text = true ∧ integer? text = some z ∧ -2147483648 ≤ z ∧ z < 2147483648 := by
  simp only [immediate?, Option.ite_none_right_eq_some, Option.filter_eq_some_iff] at h
  obtain ⟨hi, hz, hf⟩ := h
  exact ⟨hi, hz, fits_iff.1 hf⟩

/-! ### The instructions of an expression -/

theorem operandsCode_instrs (left right : List Instr) :
    operandsCode (instrs left) (instrs right) = instrs (operandInstrs left right) := by
  simp only [operandsCode, operandInstrs, instrs_append, List.append_assoc]

/-- An expression, its type and its instructions. -/
inductive Compiles (scope : Scope) : Expr → Ty → List Instr → Prop
  | number {line text z} (h : Numeral.immediate? text = some z) :
      Compiles scope (.number line text) .integer [.mov .quad (.imm z) (.reg .rax)]
  | boolean {line word} :
      Compiles scope (.boolean line word) .logical [.mov .quad (.imm (truthValue word)) (.reg .rax)]
  | integer {line name s} (h : scope.locals.find? name = some s) (ht : s.type = .integer) :
      Compiles scope (.var line name) .integer [.movSigned s.place .rax]
  | truth {line name s} (h : scope.locals.find? name = some s) (ht : s.type = .logical) :
      Compiles scope (.var line name) .logical [.movZero s.place .rax]
  | arithmetic {line op a b left right code} (ha : Compiles scope a .integer left)
      (hb : Compiles scope b .integer right) (ho : op.integerCode = .ok code) :
      Compiles scope (.arithmetic line op a b) .integer
        (operandInstrs left right ++ (code ++ [Instr.movSigned (.reg .rax) .rax]))
  | logical {line op a b left right code} (ha : Compiles scope a .logical left) (hb : Compiles scope b .logical right)
      (ho : op.code = .ok code) : Compiles scope (.logical line op a b) .logical (operandInstrs left right ++ code)
  | relational {line op a b ta tb left right c} (ha : Compiles scope a ta left) (hb : Compiles scope b tb right)
      (ho : op.condition = .ok c) :
      Compiles scope (.relational line op a b) .logical (operandInstrs left right ++
        [Instr.alu .cmp .quad (.reg .rcx) .rax, .set c .rax, .movZero (.reg .rax) .rax])
  | neg {line e code} (he : Compiles scope e .integer code) :
      Compiles scope (.unary line .neg e) .integer (code ++ [Instr.neg .rax, .movSigned (.reg .rax) .rax])
  | not {line e code} (he : Compiles scope e .logical code) :
      Compiles scope (.unary line .not e) .logical (code ++ [Instr.alu .xor .quad (.imm 1) .rax])

namespace Compiles

variable {scope : Scope} {e : Expr} {t : Ty} {code : List Instr}

theorem isScalar (h : Compiles scope e t code) : t.isScalar = true := by cases h <;> rfl

/-- The value of an expression has its type, if its variables have values of their types. -/
theorem type_eq {σ : Store} {v : Value} (h : Compiles scope e t code)
    (hσ : ∀ x ∈ e.names, ∀ s, scope.locals.find? x = some s → (σ x).type = s.type) (hv : e.eval σ = some v) :
    v.type = t := by
  induction h generalizing v with
  | number hz =>
    simp only [Expr.eval, (Numeral.immediate?_eq_some hz).2.1, Option.map_some, Option.some.injEq] at hv
    rw [← hv]
    rfl
  | boolean =>
    simp only [Expr.eval, Option.some.injEq] at hv
    rw [← hv]
    rfl
  | integer hx ht | truth hx ht =>
    simp only [Expr.eval, Option.some.injEq] at hv
    rw [← hv, hσ _ (by simp [Expr.names]) _ hx, ht]
  | arithmetic | logical | relational =>
    simp only [Expr.eval, Option.bind_eq_bind, Option.bind_eq_some_iff, Option.pure_def, Option.some.injEq] at hv
    obtain ⟨x, -, y, -, z, -, rfl⟩ := hv
    rfl
  | neg | not =>
    simp only [Expr.eval, Option.bind_eq_bind, Option.bind_eq_some_iff, UnaryOp.eval, Option.some.injEq] at hv
    obtain ⟨x, -, rfl⟩ := hv
    rfl

end Compiles

/-! ### Generated instructions -/

/-- Arithmetic on integers and truth values is arithmetic on integers. -/
theorem ArithmeticOp.typeOf_scalar {line : Int} {op : ArithmeticOp} {left right t : Ty} (hl : left.isScalar = true)
    (hr : right.isScalar = true) (h : op.typeOf line left right = .ok t) :
    left = .integer ∧ right = .integer ∧ t = .integer := by
  unfold typeOf at h
  split at h
  · rename_i hn
    rw [Bool.and_eq_true] at hn
    obtain rfl := Ty.eq_integer_of_isNumeric hl hn.1
    obtain rfl := Ty.eq_integer_of_isNumeric hr hn.2
    cases h
    exact ⟨rfl, rfl, rfl⟩
  · cases h

theorem LogicalOp.typeOf_eq_ok {line : Int} {op : LogicalOp} {left right t : Ty}
    (h : op.typeOf line left right = .ok t) : left = .logical ∧ right = .logical ∧ t = .logical := by
  unfold typeOf at h
  split at h
  · rename_i hn
    simp only [Bool.and_eq_true, decide_eq_true_eq] at hn
    cases h
    exact ⟨hn.1, hn.2, rfl⟩
  · cases h

namespace Compiles

variable {scope : Scope}

/-- A variable is loaded with the instruction for its type. -/
theorem of_load {line : Int} {x : String} {s : Symbol} {code : Listing} (hx : scope.locals.find? x = some s)
    (hs : s.type.isScalar = true) (h : s.load = .ok code) :
    ∃ is, code = instrs is ∧ Compiles scope (.var line x) s.type is := by
  cases ht : s.type with
  | integer =>
    simp only [Symbol.load, ht, Ty.width, bind_eq_ok_iff] at h
    obtain ⟨_, hw, h⟩ := h
    cases hw
    cases h
    exact ⟨_, rfl, .integer hx ht⟩
  | logical =>
    simp only [Symbol.load, ht, Ty.width, bind_eq_ok_iff] at h
    obtain ⟨_, hw, h⟩ := h
    cases hw
    cases h
    exact ⟨_, rfl, .truth hx ht⟩
  | _ => simp [ht, Ty.isScalar] at hs

/-- A negation is applied to the value of its operand. -/
theorem of_unary {line : Int} {op : UnaryOp} {e : Expr} {te t : Ty} {operand code : List Instr}
    (he : Compiles scope e te operand) (ht : op.typeOf line te = .ok t) (h : op.code (.ok t) = .ok code) :
    Compiles scope (.unary line op e) t (operand ++ code) := by
  cases op with
  | neg =>
    simp only [UnaryOp.typeOf] at ht
    split at ht
    · rename_i hn
      obtain rfl := Ty.eq_integer_of_isNumeric he.isScalar hn
      cases ht
      cases h
      exact .neg he
    · cases ht
  | not =>
    simp only [UnaryOp.typeOf] at ht
    split at ht
    · rename_i hn
      subst hn
      cases ht
      cases h
      exact .not he
    · cases ht
  | other symbol => cases h

end Compiles

/-- The code that is generated for an expression on integers and truth values. -/
theorem Expr.compiles_of_emits {target : Target} {e : Expr} {t : Ty} {p q : Pool} {code : Listing}
    (hs : target.scope.Scalar) (he : e.isScalar = true) (ht : e.typeOf target.scope = .ok t)
    (h : (e.code target).Emits p code q) : q = p ∧ ∃ is, code = instrs is ∧ Compiles target.scope e t is := by
  induction e generalizing t p q code with
  | number line text =>
    obtain ⟨z, hz⟩ := Option.isSome_iff_exists.1 (by simpa [isScalar] using he)
    have hi := (Numeral.immediate?_eq_some hz).1
    rw [typeOf, Numeral.type, if_pos hi] at ht
    cases ht
    simp only [Expr.code, Numeral.code, hi, Bool.not_true, Bool.false_eq_true, if_false, hz, Gen.emits_pure] at h
    exact ⟨h.2, _, h.1, .number hz⟩
  | boolean line word =>
    rw [typeOf] at ht
    cases ht
    simp only [Expr.code, Gen.emits_pure] at h
    exact ⟨h.2, _, h.1, .boolean⟩
  | var line name =>
    simp only [typeOf, bind_eq_ok_iff, Scope.findVariable_eq_ok_iff] at ht
    obtain ⟨s, hv, ht⟩ := ht
    cases ht
    simp only [Expr.code, Gen.emits_bind, Gen.emits_lift, Target.find_eq_ok_iff, hv] at h
    obtain ⟨_, _, ⟨h, rfl⟩, hl, rfl⟩ := h
    cases h
    exact ⟨rfl, Compiles.of_load hv (hs _ _ hv) hl⟩
  | arithmetic line op a b iha ihb =>
    simp only [isScalar, Bool.and_eq_true] at he
    have hty := Target.typeOf_eq_ok_iff.2 ht
    simp only [typeOf, bind_eq_ok_iff] at ht
    obtain ⟨ta, hta, tb, htb, ht⟩ := ht
    simp only [Expr.code, hty, Gen.emits_bind, Gen.emits_lift] at h
    obtain ⟨_, _, ⟨h, rfl⟩, left, pa, hl, right, pb, hr, h'⟩ := h
    cases h
    obtain ⟨rfl, ca, rfl, ha⟩ := iha he.1 hta hl
    obtain ⟨rfl, cb, rfl, hb⟩ := ihb he.2 htb hr
    obtain ⟨rfl, rfl, rfl⟩ := ArithmeticOp.typeOf_scalar ha.isScalar hb.isScalar ht
    simp only [reduceCtorEq, if_false, Gen.emits_bind, Gen.emits_lift, Gen.emits_pure] at h'
    obtain ⟨c, _, ⟨hc, rfl⟩, rfl, rfl⟩ := h'
    refine ⟨rfl, _, ?_, .arithmetic ha hb hc⟩
    rw [operandsCode_instrs, ← instrs_append]
  | logical line op a b iha ihb =>
    simp only [isScalar, Bool.and_eq_true] at he
    simp only [typeOf, bind_eq_ok_iff] at ht
    obtain ⟨ta, hta, tb, htb, ht⟩ := ht
    simp only [Expr.code, Gen.emits_bind, Gen.emits_lift, Gen.emits_pure] at h
    obtain ⟨left, pa, hl, right, pb, hr, c, _, ⟨hc, rfl⟩, rfl, rfl⟩ := h
    obtain ⟨rfl, ca, rfl, ha⟩ := iha he.1 hta hl
    obtain ⟨rfl, cb, rfl, hb⟩ := ihb he.2 htb hr
    obtain ⟨rfl, rfl, rfl⟩ := LogicalOp.typeOf_eq_ok ht
    refine ⟨rfl, _, ?_, .logical ha hb hc⟩
    rw [operandsCode_instrs, ← instrs_append]
  | relational line op a b iha ihb =>
    simp only [isScalar, Bool.and_eq_true] at he
    simp only [typeOf, bind_eq_ok_iff] at ht
    obtain ⟨ta, hta, tb, htb, ht⟩ := ht
    cases ht
    simp only [Expr.code, Target.typeOf_eq_ok_iff.2 hta, Target.typeOf_eq_ok_iff.2 htb, Gen.emits_bind,
      Gen.emits_lift] at h
    obtain ⟨_, _, ⟨h1, rfl⟩, _, _, ⟨h2, rfl⟩, left, pa, hl, right, pb, hr, h⟩ := h
    cases h1
    cases h2
    obtain ⟨rfl, ca, rfl, ha⟩ := iha he.1 hta hl
    obtain ⟨rfl, cb, rfl, hb⟩ := ihb he.2 htb hr
    have hra : ta ≠ .real := fun h => by simpa [h, Ty.isScalar] using ha.isScalar
    have hrb : tb ≠ .real := fun h => by simpa [h, Ty.isScalar] using hb.isScalar
    simp only [hra, hrb, decide_false, Bool.or_self, Bool.false_eq_true, if_false, Gen.emits_bind,
      Gen.emits_lift, Gen.emits_pure] at h
    obtain ⟨c, _, ⟨hc, rfl⟩, rfl, rfl⟩ := h
    refine ⟨rfl, _, ?_, .relational ha hb hc⟩
    rw [operandsCode_instrs, ← instrs_append]
  | unary line op e ih =>
    simp only [isScalar] at he
    have hty := Target.typeOf_eq_ok_iff.2 ht
    simp only [typeOf, bind_eq_ok_iff] at ht
    obtain ⟨te, hte, ht⟩ := ht
    simp only [Expr.code, hty, Gen.emits_bind, Gen.emits_lift, Gen.emits_pure] at h
    obtain ⟨operand, pe, ho, c, _, ⟨hc, rfl⟩, rfl, rfl⟩ := h
    obtain ⟨rfl, ce, rfl, hce⟩ := ih he hte ho
    exact ⟨rfl, _, (instrs_append _ _).symm, .of_unary hce ht hc⟩
  | string | call | foreign | absent => simp [isScalar] at he

namespace Compiles

variable {scope : Scope} {target : Target} {e : Expr} {t : Ty} {is : List Instr}

theorem typeOf_eq (h : Compiles scope e t is) : e.typeOf scope = .ok t := by
  induction h with
  | number hz => rw [Expr.typeOf, Numeral.type, if_pos (Numeral.immediate?_eq_some hz).1]
  | boolean => rfl
  | @integer line name s hx ht | @truth line name s hx ht =>
    have hfind := Scope.findVariable_eq_ok_iff (x := ⟨line, name⟩).2 hx
    rw [Expr.typeOf, hfind, ← ht]
    rfl
  | arithmetic _ _ _ iha ihb | logical _ _ _ iha ihb | relational _ _ _ iha ihb =>
    rw [Expr.typeOf, iha, ihb]
    rfl
  | neg _ ih | not _ ih =>
    rw [Expr.typeOf, ih]
    rfl

/-- The instructions of an expression are the code that is generated for it, without a change to the pool. -/
theorem emits (h : Compiles target.scope e t is) (p : Pool) : (e.code target).Emits p (instrs is) p := by
  induction h with
  | number hz =>
    have hi := (Numeral.immediate?_eq_some hz).1
    simp [Expr.code, Numeral.code, hi, hz]
  | boolean => exact Gen.emits_pure.2 ⟨rfl, rfl⟩
  | @integer line name s hx ht =>
    have hload : s.load = .ok (instrs [.movSigned s.place .rax]) := by
      rw [Symbol.load, ht]
      rfl
    simp only [Expr.code, Gen.emits_bind, Gen.emits_lift, Target.find_eq_ok_iff]
    exact ⟨s, p, ⟨hx, rfl⟩, hload, rfl⟩
  | @truth line name s hx ht =>
    have hload : s.load = .ok (instrs [.movZero s.place .rax]) := by
      rw [Symbol.load, ht]
      rfl
    simp only [Expr.code, Gen.emits_bind, Gen.emits_lift, Target.find_eq_ok_iff]
    exact ⟨s, p, ⟨hx, rfl⟩, hload, rfl⟩
  | @arithmetic line op a b left right code ha hb hc iha ihb =>
    have hty : target.typeOf (.arithmetic line op a b) = .ok .integer :=
      Target.typeOf_eq_ok_iff.2 (Compiles.arithmetic ha hb hc).typeOf_eq
    rw [instrs_append, ← operandsCode_instrs]
    simp only [Expr.code, Gen.emits_bind, Gen.emits_lift]
    refine ⟨_, p, ⟨hty, rfl⟩, _, p, iha, _, p, ihb, ?_⟩
    simp only [reduceCtorEq, if_false, Gen.emits_bind, Gen.emits_lift, Gen.emits_pure]
    exact ⟨_, p, ⟨hc, rfl⟩, rfl, rfl⟩
  | logical ha hb hc iha ihb =>
    rw [instrs_append, ← operandsCode_instrs]
    simp only [Expr.code, Gen.emits_bind, Gen.emits_lift, Gen.emits_pure]
    exact ⟨_, p, iha, _, p, ihb, _, p, ⟨hc, rfl⟩, rfl, rfl⟩
  | @relational line op a b ta tb left right c ha hb hc iha ihb =>
    have hra : ta ≠ .real := fun h => by simpa [h, Ty.isScalar] using ha.isScalar
    have hrb : tb ≠ .real := fun h => by simpa [h, Ty.isScalar] using hb.isScalar
    rw [instrs_append, ← operandsCode_instrs]
    simp only [Expr.code, Gen.emits_bind, Gen.emits_lift, Target.typeOf_eq_ok_iff]
    refine ⟨ta, p, ⟨ha.typeOf_eq, rfl⟩, tb, p, ⟨hb.typeOf_eq, rfl⟩, _, p, iha, _, p, ihb, ?_⟩
    simp only [hra, hrb, decide_false, Bool.or_self, Bool.false_eq_true, if_false, Gen.emits_bind, Gen.emits_lift,
      Gen.emits_pure]
    exact ⟨c, p, ⟨hc, rfl⟩, rfl, rfl⟩
  | @neg line e code he ih =>
    have hty : target.typeOf (.unary line .neg e) = .ok .integer :=
      Target.typeOf_eq_ok_iff.2 (Compiles.neg he).typeOf_eq
    rw [instrs_append]
    simp only [Expr.code, hty, Gen.emits_bind, Gen.emits_lift, Gen.emits_pure]
    exact ⟨_, p, ih, _, p, ⟨rfl, rfl⟩, rfl, rfl⟩
  | not he ih =>
    rw [instrs_append]
    simp only [Expr.code, Gen.emits_bind, Gen.emits_lift, Gen.emits_pure]
    exact ⟨_, p, ih, _, p, ⟨rfl, rfl⟩, rfl, rfl⟩

end Compiles

/-! ### Running the instructions -/

/-- The number of words that an expression needs on the stack. -/
def Expr.depth : Expr → Nat
  | arithmetic _ _ a b | logical _ _ a b | relational _ _ a b => max (depth a) (depth b) + 1
  | unary _ _ e => depth e
  | _ => 0

theorem Value.number_bounds (v : Value) : -2147483648 ≤ v.number ∧ v.number < 2147483648 := by
  cases v with
  | int n => exact ⟨BitVec.le_toInt n, BitVec.toInt_lt⟩
  | truth b => cases b <;> decide

theorem Value.fits_number (v : Value) : Fits v.number := by
  have := v.number_bounds
  unfold Fits
  omega

@[simp] theorem Value.toInt_word (v : Value) : v.word.toInt = v.number := toInt_ofInt v.fits_number

/-- What is cut to 32 bits is the integer of 32 bits. -/
theorem Value.word_ofInt (z : Int) :
    (((BitVec.ofInt 64 z).setWidth 32).signExtend 64 : Word) = (Value.ofInt z).word := by
  rw [setWidth_ofInt]
  rfl

theorem Value.number_ofInt {z : Int} (h : -2147483648 ≤ z ∧ z < 2147483648) : (Value.ofInt z).number = z := by
  simp only [ofInt, number, BitVec.toInt_ofInt]
  exact Int.bmod_eq_of_le (by omega) (by omega)

theorem Value.word_truth (b : Bool) : (Value.truth b).word = BitVec.ofNat 64 b.toNat := by
  cases b <;> rfl

theorem truthValue_eq (word : String) : truthValue word = (Value.truth (word = trueWord)).number := by
  rw [truthValue]
  split <;> rename_i h <;> simp [Value.number, h]

namespace Machine

variable {img : Image} {words : Nat} {s s' : State}

/-- The value of an integer variable is loaded. -/
theorem computes_movSigned (img : Image) {symbol : Symbol} {v : Value} (h : symbol.Holds s.mem (s.regs .rbp) v)
    (ht : symbol.type = .integer) : Computes img [.movSigned symbol.place .rax] 0 s v.word := by
  obtain ⟨hty, hr⟩ := h
  refine .single (act_movSigned_mem s .rbp .rax _) ⟨?_, (Keeps.refl 0 s).set _ (by simp) (by simp)⟩
  cases v with
  | truth b => simp [Value.type, ht] at hty
  | int n =>
    simp only [Value.size, Value.bits] at hr
    simp [hr, Value.word, Value.number, BitVec.signExtend]

/-- A truth value is loaded. -/
theorem computes_movZero {symbol : Symbol} {v : Value} (h : symbol.Holds s.mem (s.regs .rbp) v)
    (ht : symbol.type = .logical) : Computes img [.movZero symbol.place .rax] 0 s v.word := by
  obtain ⟨hty, hr⟩ := h
  refine .single (act_movZero_mem s .rbp .rax _) ⟨?_, (Keeps.refl 0 s).set _ (by simp) (by simp)⟩
  cases v with
  | int n => simp [Value.type, ht] at hty
  | truth b =>
    simp only [Value.size, Value.bits] at hr
    rw [State.set_regs_self, hr, Value.word_truth]

/-- Arithmetic on two integers, cut to 32 bits again. -/
theorem leads_integerCode {op : ArithmeticOp} {code : List Instr} (hc : op.integerCode = .ok code) {x y : Value}
    (hl : s'.regs .rax = x.word) (hr : s'.regs .rcx = y.word) (hk : Keeps words s s') {z : Int}
    (hz : op.eval x.number y.number = some z) :
    Leads img (code ++ [Instr.movSigned (.reg .rax) .rax]) s' fun s'' =>
      s''.regs .rax = (Value.ofInt z).word ∧ Keeps words s s'' := by
  have hk' (v : Word) (f : Option Flags) (w : Word) :
      Keeps words s (State.set { s'.set .rax v with flags := f } .rax w) :=
    ((hk.set v (by simp) (by simp)).flags f).set w (by simp) (by simp)
  cases op with
  | add =>
    cases hc
    cases hz
    refine .cons (act_alu_reg s' .rcx .rax .add) (.single (act_movSigned_reg _ .rax .rax) ⟨?_, hk' _ _ _⟩)
    simp [combine, hl, hr, ← Value.word_ofInt, BitVec.ofInt_add]
    rfl
  | sub =>
    cases hc
    cases hz
    refine .cons (act_alu_reg s' .rcx .rax .sub) (.single (act_movSigned_reg _ .rax .rax) ⟨?_, hk' _ _ _⟩)
    simp [combine, hl, hr, ← Value.word_ofInt, ofInt_sub]
    rfl
  | mul =>
    cases hc
    cases hz
    refine .cons (act_alu_reg s' .rcx .rax .imul) (.single (act_movSigned_reg _ .rax .rax) ⟨?_, hk' _ _ _⟩)
    simp [combine, hl, hr, ← Value.word_ofInt, BitVec.ofInt_mul]
    rfl
  | div =>
    cases hc
    simp only [ArithmeticOp.eval, Option.ite_none_left_eq_some, Option.some.injEq] at hz
    obtain ⟨h0, rfl⟩ := hz
    have hx := x.number_bounds
    have hdiv := divide?_ofInt (a := x.number) ⟨by omega, by omega⟩ y.fits_number h0
    rw [← Value.word, ← Value.word] at hdiv
    refine .cons (act_signExtend s') (.cons (act_idiv _ .rcx (by simpa [hl, hr] using hdiv)) ?_)
    refine .single (act_movSigned_reg _ .rax .rax) ⟨?_, ?_⟩
    · simp [← Value.word_ofInt]
    · refine Keeps.set ?_ _ (by simp) (by simp)
      exact (((hk.set _ (by simp) (by simp)).set _ (by simp) (by simp)).set _ (by simp) (by simp)).flags _
  | other symbol => cases hc

/-- Operations on truth values, which are words that are zero or one. -/
theorem leads_logicalCode {op : LogicalOp} {code : List Instr} (hc : op.code = .ok code) {a b c : Bool}
    (hl : s'.regs .rax = (Value.truth a).word) (hr : s'.regs .rcx = (Value.truth b).word) (hk : Keeps words s s')
    (hv : op.eval a b = some c) :
    Leads img code s' fun s'' => s''.regs .rax = (Value.truth c).word ∧ Keeps words s s'' := by
  cases op with
  | and =>
    cases hc
    cases hv
    refine .single (act_alu_reg s' .rcx .rax .and) ⟨?_, (hk.set _ (by simp) (by simp)).flags _⟩
    simp only [combine, State.set_regs_self, hl, hr]
    cases a <;> cases b <;> rfl
  | or =>
    cases hc
    cases hv
    refine .single (act_alu_reg s' .rcx .rax .or) ⟨?_, (hk.set _ (by simp) (by simp)).flags _⟩
    simp only [combine, State.set_regs_self, hl, hr]
    cases a <;> cases b <;> rfl
  | other symbol => cases hc

/-- The flags of a comparison answer it. -/
theorem holds_ofSub {op : RelationalOp} {c : Condition} (hc : op.condition = .ok c) (a b : Word) :
    (Flags.ofSub a b).holds c = op.eval a.toInt b.toInt := by
  have hz := zero_ofSub a b
  have hs := sign_ofSub a b
  have hs' : ((Flags.ofSub a b).sign == (Flags.ofSub a b).overflow) = !decide (a.toInt < b.toInt) := by
    rw [← hs]
    cases (Flags.ofSub a b).sign <;> cases (Flags.ofSub a b).overflow <;> rfl
  cases op <;> cases hc <;> simp only [Flags.holds, RelationalOp.eval, hz, hs, hs', Option.some.injEq]
  case le => simp only [← Bool.decide_or, decide_eq_decide]; omega
  case gt => simp only [← decide_not, ← Bool.decide_and, decide_eq_decide]; omega
  case ge => simp only [← decide_not, decide_eq_decide]; omega
  case ne => simp only [← decide_not, ne_eq]

theorem leads_relationalCode {op : RelationalOp} {c : Condition} (hc : op.condition = .ok c) {x y : Value}
    (hl : s'.regs .rax = x.word) (hr : s'.regs .rcx = y.word) (hk : Keeps words s s') {b : Bool}
    (hv : op.eval x.number y.number = some b) :
    Leads img [.alu .cmp .quad (.reg .rcx) .rax, .set c .rax, .movZero (.reg .rax) .rax] s' fun s'' =>
      s''.regs .rax = (Value.truth b).word ∧ Keeps words s s'' := by
  have hflags : (Flags.ofSub (s'.regs .rax) (s'.regs .rcx)).holds c = some b := by
    rw [holds_ofSub hc, hl, hr, Value.toInt_word, Value.toInt_word, hv]
  refine .cons (act_alu_reg s' .rcx .rax .cmp) (.cons (act_set _ .rax rfl hflags) ?_)
  refine .single (act_movZero_reg _ .rax .rax) ⟨?_, ?_⟩
  · rw [State.set_regs_self, State.set_regs_self, merge_byte_mod, Value.word_truth]
  · exact ((hk.flags _).set _ (by simp) (by simp)).set _ (by simp) (by simp)

end Machine

theorem Machine.Computes.mono {img : Image} {code : List Instr} {words more : Nat} {s : State} {v : Word}
    (h : Computes img code words s v) (hm : words ≤ more) : Computes img code more s v :=
  Leads.mono h fun _ hs => ⟨hs.1, hs.2.mono hm⟩

/-- The instructions of an expression compute its value, wherever its variables have their values. -/
theorem Compiles.computes_of_shown (img : Image) {scope : Scope} {e : Expr} {t : Ty} {code : List Instr}
    (h : Compiles scope e t code) {σ : Store} {s : State} (hs : Shown scope.locals e.names e.depth σ s) {v : Value}
    (hv : e.eval σ = some v) : Computes img code e.depth s v.word := by
  -- both operands of an operation, the right one with a word more on the stack
  have operands {a b : Expr} {left right : List Instr} {s : State} {x y : Value}
      (iha : ∀ {s}, Shown scope.locals a.names a.depth σ s → Computes img left a.depth s x.word)
      (ihb : ∀ {s}, Shown scope.locals b.names b.depth σ s → Computes img right b.depth s y.word)
      (hs : Shown scope.locals (a.names ++ b.names) (max a.depth b.depth + 1) σ s) :
      Leads img (operandInstrs left right) s fun s' =>
        s'.regs .rax = x.word ∧ s'.regs .rcx = y.word ∧ Keeps (max a.depth b.depth + 1) s s' := by
    have hroom := hs.room
    have ha : Shown scope.locals a.names a.depth σ s := hs.mono (fun x => List.mem_append_left b.names) (by omega)
    refine .operands hroom ((iha ha).mono (le_max_left _ _)) fun s' hk => ?_
    have hb : Shown scope.locals b.names b.depth σ s' :=
      (hs.pushed hk).mono (fun x => List.mem_append_right a.names) (le_max_right _ _)
    exact (ihb hb).mono (le_max_right _ _)
  induction h generalizing v s with
  | number hz =>
    obtain ⟨-, hz', hb⟩ := Numeral.immediate?_eq_some hz
    simp only [Expr.eval, hz', Option.map_some, Option.some.injEq] at hv
    subst hv
    refine .single (act_mov_quad_imm s .rax _) ⟨?_, (Keeps.refl _ s).set _ (by simp) (by simp)⟩
    rw [State.set_regs_self, Value.word, Value.number_ofInt hb]
  | @boolean line word =>
    simp only [Expr.eval, Option.some.injEq] at hv
    subst hv
    refine .single (act_mov_quad_imm s .rax _) ⟨?_, (Keeps.refl _ s).set _ (by simp) (by simp)⟩
    rw [State.set_regs_self, Value.word, truthValue_eq]
  | integer hx ht =>
    simp only [Expr.eval, Option.some.injEq] at hv
    subst hv
    exact computes_movSigned img (hs.holds _ (by simp [Expr.names]) _ hx) ht
  | truth hx ht =>
    simp only [Expr.eval, Option.some.injEq] at hv
    subst hv
    exact computes_movZero (hs.holds _ (by simp [Expr.names]) _ hx) ht
  | arithmetic _ _ ho iha ihb =>
    simp only [Expr.eval, Option.bind_eq_bind, Option.bind_eq_some_iff, Option.pure_def, Option.some.injEq] at hv
    obtain ⟨x, hx, y, hy, z, hz, rfl⟩ := hv
    refine Leads.append (operands (fun hs => iha hs hx) (fun hs => ihb hs hy) hs) ?_
    rintro s' ⟨hl, hr, hk⟩
    exact leads_integerCode ho hl hr hk hz
  | logical ha hb ho iha ihb =>
    simp only [Expr.eval, Option.bind_eq_bind, Option.bind_eq_some_iff, Option.pure_def, Option.some.injEq] at hv
    obtain ⟨x, hx, y, hy, c, hc, rfl⟩ := hv
    have hxt := ha.type_eq (fun z hz s hs' => (hs.holds z (List.mem_append_left _ hz) s hs').type) hx
    have hyt := hb.type_eq (fun z hz s hs' => (hs.holds z (List.mem_append_right _ hz) s hs').type) hy
    obtain ⟨x, rfl⟩ : ∃ b, x = .truth b := by cases x <;> simp [Value.type] at hxt ⊢
    obtain ⟨y, rfl⟩ : ∃ b, y = .truth b := by cases y <;> simp [Value.type] at hyt ⊢
    refine Leads.append (operands (fun hs => iha hs hx) (fun hs => ihb hs hy) hs) ?_
    rintro s' ⟨hl, hr, hk⟩
    exact leads_logicalCode ho hl hr hk hc
  | relational _ _ ho iha ihb =>
    simp only [Expr.eval, Option.bind_eq_bind, Option.bind_eq_some_iff, Option.pure_def, Option.some.injEq] at hv
    obtain ⟨x, hx, y, hy, b, hb, rfl⟩ := hv
    refine Leads.append (operands (fun hs => iha hs hx) (fun hs => ihb hs hy) hs) ?_
    rintro s' ⟨hl, hr, hk⟩
    exact leads_relationalCode ho hl hr hk hb
  | neg _ ih =>
    simp only [Expr.eval, Option.bind_eq_bind, Option.bind_eq_some_iff, UnaryOp.eval, Option.some.injEq] at hv
    obtain ⟨x, hx, rfl⟩ := hv
    refine Leads.append (ih hs hx) ?_
    rintro s' ⟨hr, hk⟩
    refine .cons (act_neg s' .rax) (.single (act_movSigned_reg _ .rax .rax) ⟨?_, ?_⟩)
    · simp [hr, ← Value.word_ofInt, BitVec.ofInt_neg]
      rfl
    · exact ((hk.set _ (by simp) (by simp)).flags _).set _ (by simp) (by simp)
  | not he ih =>
    simp only [Expr.eval, Option.bind_eq_bind, Option.bind_eq_some_iff, UnaryOp.eval, Option.some.injEq] at hv
    obtain ⟨x, hx, rfl⟩ := hv
    have hxt := he.type_eq (fun z hz s hs' => (hs.holds z hz s hs').type) hx
    obtain ⟨x, rfl⟩ : ∃ b, x = .truth b := by cases x <;> simp [Value.type] at hxt ⊢
    refine Leads.append (ih hs hx) ?_
    rintro s' ⟨hr, hk⟩
    refine .single (act_alu_imm s' .rax 1 .xor) ⟨?_, (hk.set _ (by simp) (by simp)).flags _⟩
    simp only [combine, State.set_regs_self, hr]
    cases x <;> rfl

/-- The instructions of an expression compute its value in every frame. -/
theorem Compiles.computes (img : Image) {scope : Scope} {size : Nat} (hp : scope.locals.Packed size) {e : Expr}
    {t : Ty} {code : List Instr} (h : Compiles scope e t code) {reach : Nat} (hsize : size ≤ reach) {σ : Store}
    {s : State} (hs : Represents scope.locals reach e.depth σ s) {v : Value} (hv : e.eval σ = some v) :
    Computes img code e.depth s v.word := h.computes_of_shown img (hs.shown hp hsize e.names) hv

end Arvore
