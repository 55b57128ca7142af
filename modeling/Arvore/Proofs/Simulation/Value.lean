import Mathlib
import Arvore.Proofs.Code.Listing
import Arvore.Proofs.Simulation.Expr

/-!
# Values of expressions

An expression on integers and truth values is computed by its code in whatever function it stands, beside variables
of any other type. Only its own variables count (`Expr.OnScalars`): if their slots hold their values and no divisor
is zero, the expression has a value, its code leaves the value in `%rax`, and nothing changes at or above the stack
pointer (`expression_code_computes_value`).
-/

namespace Arvore

open Assembly Machine

/-! ### Expressions on integers and truth values -/

namespace Expr

/-- Expressions of integer and logical variables, truth values and integers of 32 bits, at any depth. The function may
have variables of other types, too. -/
inductive OnScalars (locals : SymbolTable) : Expr → Prop
  | number {line text z} (hi : Numeral.isIntegral text = true) (hz : Numeral.integer? text = some z)
      (hlow : -2 ^ 31 ≤ z) (hhigh : z < 2 ^ 31) : OnScalars locals (.number line text)
  | boolean {line word} : OnScalars locals (.boolean line word)
  | var {line name s} (hx : locals.find? name = some s) (hs : s.type.isScalar = true) :
      OnScalars locals (.var line name)
  | arithmetic {line op a b} (ho : op ∈ ArithmeticOp.known) (ha : OnScalars locals a) (hb : OnScalars locals b) :
      OnScalars locals (.arithmetic line op a b)
  | logical {line op a b} (ho : op ∈ LogicalOp.known) (ha : OnScalars locals a) (hb : OnScalars locals b) :
      OnScalars locals (.logical line op a b)
  | relational {line op a b} (ho : op ∈ RelationalOp.known) (ha : OnScalars locals a) (hb : OnScalars locals b) :
      OnScalars locals (.relational line op a b)
  | unary {line op e} (ho : op ∈ UnaryOp.known) (he : OnScalars locals e) : OnScalars locals (.unary line op e)

/-- No divisor in an expression is zero. -/
def dividesSafely (σ : Store) : Expr → Bool
  | arithmetic _ op a b =>
    dividesSafely σ a && dividesSafely σ b && (op ≠ .div || (b.eval σ).all fun v => v.number ≠ 0)
  | logical _ _ a b | relational _ _ a b => dividesSafely σ a && dividesSafely σ b
  | unary _ _ e => dividesSafely σ e
  | number .. | string .. | boolean .. | var .. | call .. | foreign .. | absent => true

namespace OnScalars

/-- Expressions without a zero divisor have a value. -/
theorem exists_eval {locals : SymbolTable} {e : Expr} {σ : Store} (h : e.OnScalars locals)
    (hd : e.dividesSafely σ = true) : ∃ v, e.eval σ = some v := by
  induction h with
  | number hi hz => exact ⟨_, by rw [eval, hz, Option.map_some]⟩
  | boolean | var => exact ⟨_, rfl⟩
  | @arithmetic line op a b ho ha hb iha ihb =>
    rw [dividesSafely, Bool.and_eq_true, Bool.and_eq_true] at hd
    obtain ⟨⟨hda, hdb⟩, hdiv⟩ := hd
    obtain ⟨x, hx⟩ := iha hda
    obtain ⟨y, hy⟩ := ihb hdb
    have hop : ∃ z, op.eval x.number y.number = some z := by
      cases op with
      | add | sub | mul => exact ⟨_, rfl⟩
      | div =>
        have hne : y.number ≠ 0 := by simpa [hy] using hdiv
        exact ⟨_, if_neg hne⟩
      | other symbol => simp [ArithmeticOp.known] at ho
    obtain ⟨z, hz⟩ := hop
    exact ⟨.ofInt z, by simp [eval, hx, hy, hz]⟩
  | @logical line op a b ho ha hb iha ihb =>
    rw [dividesSafely, Bool.and_eq_true] at hd
    obtain ⟨x, hx⟩ := iha hd.1
    obtain ⟨y, hy⟩ := ihb hd.2
    have hop : ∃ c, op.eval x.isTrue y.isTrue = some c := by
      cases op with
      | and | or => exact ⟨_, rfl⟩
      | other symbol => simp [LogicalOp.known] at ho
    obtain ⟨c, hc⟩ := hop
    exact ⟨.truth c, by simp [eval, hx, hy, hc]⟩
  | @relational line op a b ho ha hb iha ihb =>
    rw [dividesSafely, Bool.and_eq_true] at hd
    obtain ⟨x, hx⟩ := iha hd.1
    obtain ⟨y, hy⟩ := ihb hd.2
    have hop : ∃ c, op.eval x.number y.number = some c := by
      cases op with
      | other symbol => simp [RelationalOp.known] at ho
      | _ => exact ⟨_, rfl⟩
    obtain ⟨c, hc⟩ := hop
    exact ⟨.truth c, by simp [eval, hx, hy, hc]⟩
  | @unary line op e ho he ih =>
    obtain ⟨x, hx⟩ := ih hd
    cases op with
    | neg | not => exact ⟨_, by rw [eval, hx]; rfl⟩
    | other symbol => simp [UnaryOp.known] at ho

/-- There are instructions for every such expression that has a type. -/
theorem exists_compiles {scope : Scope} {e : Expr} {t : Ty} (h : e.OnScalars scope.locals)
    (ht : e.typeOf scope = .ok t) : ∃ is, Compiles scope e t is := by
  induction h generalizing t with
  | @number line text z hi hz hlow hhigh =>
    have himmediate : Numeral.immediate? text = some z := by
      have hfits : Numeral.fits 32 z = true := Numeral.fits_iff.2 ⟨by omega, by omega⟩
      rw [Numeral.immediate?, if_pos hi, hz, Option.filter_some, if_pos hfits]
    rw [typeOf, Numeral.type, if_pos hi] at ht
    cases ht
    exact ⟨_, .number himmediate⟩
  | boolean =>
    cases ht
    exact ⟨_, .boolean⟩
  | @var line name s hx hs =>
    have hfind := Scope.findVariable_eq_ok_iff (x := ⟨line, name⟩).2 hx
    rw [typeOf, hfind] at ht
    cases ht
    cases hty : s.type with
    | integer => exact ⟨_, .integer hx hty⟩
    | logical => exact ⟨_, .truth hx hty⟩
    | _ => simp [hty, Ty.isScalar] at hs
  | @arithmetic line op a b ho ha hb iha ihb =>
    simp only [typeOf, bind_eq_ok_iff] at ht
    obtain ⟨ta, hta, tb, htb, ht⟩ := ht
    obtain ⟨left, hl⟩ := iha hta
    obtain ⟨right, hr⟩ := ihb htb
    obtain ⟨rfl, rfl, rfl⟩ := ArithmeticOp.typeOf_scalar hl.isScalar hr.isScalar ht
    obtain ⟨is, hc⟩ := ArithmeticOp.integerCode_eq_ok ho
    exact ⟨_, .arithmetic hl hr hc⟩
  | @logical line op a b ho ha hb iha ihb =>
    simp only [typeOf, bind_eq_ok_iff] at ht
    obtain ⟨ta, hta, tb, htb, ht⟩ := ht
    obtain ⟨left, hl⟩ := iha hta
    obtain ⟨right, hr⟩ := ihb htb
    obtain ⟨rfl, rfl, rfl⟩ := LogicalOp.typeOf_eq_ok ht
    obtain ⟨is, hc⟩ := LogicalOp.code_eq_ok ho
    exact ⟨_, .logical hl hr hc⟩
  | @relational line op a b ho ha hb iha ihb =>
    simp only [typeOf, bind_eq_ok_iff] at ht
    obtain ⟨ta, hta, tb, htb, ht⟩ := ht
    cases ht
    obtain ⟨left, hl⟩ := iha hta
    obtain ⟨right, hr⟩ := ihb htb
    obtain ⟨c, hc⟩ := RelationalOp.condition_eq_ok ho
    exact ⟨_, .relational hl hr hc⟩
  | @unary line op e ho he ih =>
    simp only [typeOf, bind_eq_ok_iff] at ht
    obtain ⟨te, hte, ht⟩ := ht
    obtain ⟨operand, hoperand⟩ := ih hte
    obtain ⟨is, hc⟩ := UnaryOp.code_eq_ok ho t
    exact ⟨_, .of_unary hoperand ht hc⟩

end OnScalars

end Expr

/-! ### Running the code of an expression -/

/-- The slots of some variables hold their values, and lie between the stack pointer and the end of memory. -/
structure Machine.State.HoldsAbove (s : State) (locals : SymbolTable) (names : List String) (σ : Store) : Prop where
  holds : ∀ x ∈ names, ∀ symbol, locals.find? x = some symbol → symbol.Holds s.mem (s.regs .rbp) (σ x)
  above : ∀ x ∈ names, ∀ symbol, locals.find? x = some symbol →
    (s.regs .rsp).toNat ≤ (s.regs .rbp + BitVec.ofInt 64 symbol.offset).toNat
  within : ∀ x ∈ names, ∀ symbol, locals.find? x = some symbol →
    (s.regs .rbp + BitVec.ofInt 64 symbol.offset).toNat + symbol.bytes ≤ 2 ^ 64

theorem Machine.State.HoldsAbove.shown {s : State} {locals : SymbolTable} {names : List String} {σ : Store}
    (h : s.HoldsAbove locals names σ) {words : Nat} (hroom : 8 * words ≤ (s.regs .rsp).toNat) :
    Shown locals names words σ s := by
  have hsp := (s.regs .rsp).isLt
  refine ⟨by omega, h.holds, fun x hx symbol hs => ?_⟩
  have habove := h.above x hx symbol hs
  have hwithin := h.within x hx symbol hs
  exact ⟨_, eq_off_of_le habove, by omega⟩

/-- The code of an expression computes its value. Take an expression on integers and truth values that has a type,
in the scope of a function. Code is emitted for it, with no change to the pool. Run it wherever it stands, from a
state in which the slots of the variables in the expression hold their values, above the stack, with room below for
the operands that wait there. If no divisor is zero, then the expression has a value of its type; the run comes to
the end of the code with the value in `%rax`, an integer with its sign extended and a truth value as zero or one;
and the stack pointer, the frame pointer and every byte at or above the stack pointer are as before. -/
theorem expression_code_computes_value {target : Target} {e : Expr} {t : Ty} (he : e.OnScalars target.scope.locals)
    (ht : e.typeOf target.scope = .ok t) :
    ∃ code, (∀ pool, (e.code target).Emits pool code pool) ∧
      ∀ (σ : Store) (s : State), s.HoldsAbove target.scope.locals e.names σ → 8 * e.depth ≤ (s.regs .rsp).toNat →
        e.dividesSafely σ = true →
        ∃ v, e.eval σ = some v ∧ v.type = t ∧ ∀ before after data, ∃ s',
          Runs ⟨before ++ (code ++ after), data⟩ ⟨before.length, s⟩ ⟨before.length + code.length, s'⟩ ∧
          s'.regs .rax = v.word ∧ s'.regs .rsp = s.regs .rsp ∧ s'.regs .rbp = s.regs .rbp ∧
          ∀ a : Word, (s.regs .rsp).toNat ≤ a.toNat → s'.mem a = s.mem a := by
  obtain ⟨is, hcompiles⟩ := he.exists_compiles ht
  refine ⟨instrs is, hcompiles.emits, fun σ s hs hroom hd => ?_⟩
  obtain ⟨v, hv⟩ := he.exists_eval hd
  have hshown := hs.shown hroom
  refine ⟨v, hv, hcompiles.type_eq (fun x hx symbol hsymbol => (hs.holds x hx symbol hsymbol).type) hv,
    fun before after data => ?_⟩
  obtain ⟨s', hexec, hrax, hkeeps⟩ := hcompiles.computes_of_shown ⟨before ++ (instrs is ++ after), data⟩ hshown hv
  refine ⟨s', ?_, hrax, hkeeps.rsp, hkeeps.rbp, fun a ha => ?_⟩
  · -- straight code has no labels, so it may stand anywhere
    have hlabels : ∀ l, Line.label l ∉ instrs is := by simp [instrs]
    have hmarks : (marks (instrs is)).Nodup := by rw [marks_instrs]; exact List.nodup_nil
    rw [length_instrs]
    exact .of_exec (placed_of_nodup hmarks fun l hl => absurd hl (hlabels l)) hexec
  · have ha' := a.isLt
    rw [eq_off_of_le ha]
    exact hkeeps.mem _ (by omega)

namespace NegativeQuotient

/-- Whether a quotient is negative, and a mark is not set. -/
def test : Expr :=
  .logical 1 .and (.relational 1 .lt (.arithmetic 1 .div (.var 1 "n") (.var 1 "m")) (.number 1 "0"))
    (.unary 1 .not (.var 1 "ok"))

/-- A function that returns this, with a real among its parameters. -/
def function : Function where
  line := 1
  name := "f"
  result := .logical
  params := [⟨1, .integer, ⟨1, "n"⟩⟩, ⟨1, .real, ⟨1, "w"⟩⟩, ⟨1, .logical, ⟨1, "ok"⟩⟩]
  body := [.declare 1 .integer [⟨⟨1, "m"⟩, none⟩], .ret 1 (some test)]

def locals : SymbolTable :=
  ⟨[("n", ⟨"n", .integer, 1, -4, true, none⟩), ("w", ⟨"w", .real, 1, -12, true, none⟩),
    ("ok", ⟨"ok", .logical, 1, -13, true, none⟩), ("m", ⟨"m", .integer, 1, -17, true, none⟩)]⟩

/-- The program as it is accepted. -/
def compilation : Compilation where
  program := ⟨1, [function]⟩
  globals := ⟨[("f", ⟨"f", .function, 1, 0, false, some ⟨[.integer, .real, .logical], .logical⟩⟩)]⟩
  functions := [⟨function, locals⟩]

/-- Where the function is compiled. -/
def target : Target := ⟨"f", ⟨locals, compilation.globals⟩⟩

/-- A frame with the least integer in `n`, minus one in `m`, and the mark not set. -/
def frame : State where
  regs
    | .rbp => 128
    | .rsp => 96
    | _ => 0
  mem a := if a = 127 then 128 else if 111 ≤ a ∧ a < 115 then 255 else 0

def store : Store
  | "n" => .int (.intMin 32)
  | "m" => .int (-1)
  | _ => .truth false

theorem frame_holdsAbove : frame.HoldsAbove locals test.names store := by
  have hnames : ∀ x ∈ test.names, ∀ symbol, locals.find? x = some symbol → symbol.Holds frame.mem 128 (store x) ∧
      96 ≤ (128 + BitVec.ofInt 64 symbol.offset).toNat ∧
      (128 + BitVec.ofInt 64 symbol.offset).toNat + symbol.bytes ≤ 2 ^ 64 := by
    intro x hx symbol hs
    simp only [test, Expr.names, List.cons_append, List.nil_append, List.mem_cons, List.not_mem_nil, or_false] at hx
    rcases hx with rfl | rfl | rfl
    all_goals
      cases hs
      exact ⟨⟨by decide, by decide⟩, by decide, by decide⟩
  exact ⟨fun x hx symbol hs => (hnames x hx symbol hs).1, fun x hx symbol hs => (hnames x hx symbol hs).2.1,
    fun x hx symbol hs => (hnames x hx symbol hs).2.2⟩

end NegativeQuotient

/-- The quotient of the least integer and minus one wraps around to the least integer, which is negative. -/
theorem wrapped_quotient_is_negative :
    NegativeQuotient.compilation.program.analyze.2 = .ok NegativeQuotient.compilation ∧
    ∃ code s', (∀ pool, (NegativeQuotient.test.code NegativeQuotient.target).Emits pool code pool) ∧
      Runs ⟨code ++ leaveCode, fun _ => 0⟩ ⟨0, NegativeQuotient.frame⟩ ⟨code.length, s'⟩ ∧ s'.regs .rax = 1 ∧
      s'.regs .rsp = 96 ∧ s'.regs .rbp = 128 ∧ ∀ a : Word, 96 ≤ a.toNat → s'.mem a = NegativeQuotient.frame.mem a := by
  have hscalars : NegativeQuotient.test.OnScalars NegativeQuotient.locals :=
    .logical (by decide) (.relational (by decide) (.arithmetic (by decide) (.var rfl rfl) (.var rfl rfl))
      (.number (z := 0) (by decide) (by decide) (by decide) (by decide))) (.unary (by decide) (.var rfl rfl))
  have htype : NegativeQuotient.test.typeOf NegativeQuotient.target.scope = .ok .logical := by rfl
  obtain ⟨code, hemits, h⟩ := expression_code_computes_value hscalars htype
  obtain ⟨v, hv, -, hruns⟩ := h NegativeQuotient.store NegativeQuotient.frame NegativeQuotient.frame_holdsAbove
    (by decide) (by decide)
  have hvalue : v = .truth true := by
    have heval : NegativeQuotient.test.eval NegativeQuotient.store = some (.truth true) := by decide
    exact Option.some.inj (hv.symm.trans heval)
  subst hvalue
  obtain ⟨s', hrun, hrax, hrest⟩ := hruns [] leaveCode fun _ => 0
  rw [List.length_nil, Nat.zero_add] at hrun
  exact ⟨by rfl, code, s', hemits, hrun, hrax, hrest⟩

end Arvore
