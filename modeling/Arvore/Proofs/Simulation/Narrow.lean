import Mathlib
import Arvore.Proofs.RoundTrip
import Arvore.Proofs.Simulation.Expr
import Arvore.Proofs.Code.Listing

/-!
# Integers of 32 bits in registers

An integer takes four bytes in the frame, and a register holds one with its sign extended. Every run through the code of
an expression on integers ends with such a value in `%rax`, also where the value has wrapped around or comes from a wide
literal inside the expression. The exception is a wide literal that stands alone: it is loaded as a whole word from the
pool, and stays as it is (`integer_code_leaves_32_bits`).
-/

namespace Arvore

open Assembly Machine

namespace Machine

/-! ### Words that hold integers -/

/-- The word holds an integer of 32 bits. -/
def IsNarrow (w : Word) : Prop := -2 ^ 31 ≤ w.toInt ∧ w.toInt < 2 ^ 31

theorem isNarrow_signExtend (v : BitVec 32) : IsNarrow (v.signExtend 64) := by
  have hlow := BitVec.le_toInt (x := v)
  have hhigh := BitVec.toInt_lt (x := v)
  rw [IsNarrow, BitVec.toInt_signExtend_of_le (by decide)]
  omega

theorem isNarrow_ofInt {z : Int} (h : Numeral.fits 32 z = true) : IsNarrow (BitVec.ofInt 64 z) := by
  have hz := Numeral.fits_iff.1 h
  rw [IsNarrow, toInt_ofInt (by unfold Fits; omega)]
  omega

/-- Cutting a word to 32 bits loses nothing exactly if it holds an integer of 32 bits. -/
theorem signExtend_setWidth_iff {w : Word} : (w.setWidth 32).signExtend 64 = w ↔ IsNarrow w := by
  constructor
  · intro h
    rw [← h]
    exact isNarrow_signExtend _
  · rintro ⟨hlow, hhigh⟩
    have hcut : w.setWidth 32 = BitVec.ofInt 32 w.toInt := by rw [← setWidth_ofInt, BitVec.ofInt_toInt]
    apply BitVec.eq_of_toInt_eq
    rw [hcut, BitVec.toInt_signExtend_of_le (by decide), BitVec.toInt_ofInt]
    exact Int.bmod_eq_of_le (by omega) (by omega)

/-! ### Runs through straight code -/

/-- A run in which every step is taken from a line between two others, the second one left out. -/
def RunsWithin (img : Image) (first last : Nat) : Config → Config → Prop :=
  Relation.ReflTransGen fun c c' => first ≤ c.line ∧ c.line < last ∧ step img c = some c'

/-- Whether an instruction can only go on to the next line. -/
def goesOn : Instr → Bool
  | .jump _ | .jumpEqual _ | .call _ | .ret => false
  | _ => true

variable {img : Image} {s s' : State} {k first last : Nat}

theorem act_of_step {i : Instr} (hk : img.code[k]? = some (.instr i)) (hi : goesOn i = true) {c : Config}
    (h : step img ⟨k, s⟩ = some c) : ∃ u, act img s i = some u ∧ c = ⟨k + 1, u⟩ := by
  cases i with
  | jump | jumpEqual | call | ret => cases hi
  | _ =>
    simp only [step, hk, Option.map_eq_some_iff] at h
    obtain ⟨u, hu, rfl⟩ := h
    exact ⟨u, hu, rfl⟩

/-- A run that comes to the end of straight code, and does not go on from there, has executed the code once. -/
theorem RunsWithin.exec_eq {code : List Instr} (hp : Placed img k (instrs code)) (hs : ∀ i ∈ code, goesOn i = true)
    (hl : k + code.length = last) (h : RunsWithin img first last ⟨k, s⟩ ⟨last, s'⟩) : exec img code s = some s' := by
  induction code generalizing k s with
  | nil =>
    rcases h.cases_head with heq | ⟨c, ⟨-, hlt, -⟩, -⟩
    · cases heq
      rfl
    · simp only [List.length_nil] at hl hlt
      omega
  | cons i rest ih =>
    rw [List.length_cons] at hl
    rcases h.cases_head with heq | ⟨c, ⟨-, -, hstep⟩, hrun⟩
    · -- the run has not started yet
      have hline : k = last := congrArg Config.line heq
      omega
    · obtain ⟨u, hu, rfl⟩ := act_of_step hp.head (hs i List.mem_cons_self) hstep
      have hrest := ih hp.tail (fun j hj => hs j (List.mem_cons_of_mem _ hj)) (by omega) hrun
      rw [exec, List.foldlM_cons, hu]
      exact hrest

theorem RunsWithin.of_exec {code : List Instr} (hp : Placed img k (instrs code)) (hf : first ≤ k)
    (hl : k + code.length = last) (h : exec img code s = some s') : RunsWithin img first last ⟨k, s⟩ ⟨last, s'⟩ := by
  induction code generalizing k s with
  | nil =>
    cases h
    rw [← hl]
    exact .refl
  | cons i rest ih =>
    rw [List.length_cons] at hl
    rw [exec, List.foldlM_cons] at h
    obtain ⟨u, hu, hr⟩ := Option.bind_eq_some_iff.1 h
    refine .head ⟨hf, ?_, step_of_act hp.head hu⟩ (ih hp.tail (by omega) (by omega) hr)
    show k < last
    omega

/-- Instructions may stand anywhere, since there are no labels among them. -/
theorem placed_instrs (before after : Listing) (code : List Instr) (data : Label → Word) :
    Placed ⟨before ++ (instrs code ++ after), data⟩ before.length (instrs code) := by
  have hmarks : (marks (instrs code)).Nodup := by rw [marks_instrs]; exact List.nodup_nil
  exact placed_of_nodup hmarks fun l hl => absurd hl (by simp [instrs])

/-- Instructions at the start of a listing. -/
theorem RunsWithin.of_exec_start {code : List Instr} {after : Listing} {data : Label → Word}
    (h : exec ⟨instrs code ++ after, data⟩ code s = some s') :
    RunsWithin ⟨instrs code ++ after, data⟩ 0 (instrs code).length ⟨0, s⟩ ⟨(instrs code).length, s'⟩ := by
  have hplaced := placed_instrs [] after code data
  rw [List.nil_append, List.length_nil] at hplaced
  exact RunsWithin.of_exec hplaced le_rfl (by rw [length_instrs, Nat.zero_add]) h

/-- The instructions whose result in `%rax` is an integer of 32 bits. -/
inductive Narrows : Instr → Prop
  | signed (src : Operand) : Narrows (.movSigned src .rax)
  | immediate {z : Int} (h : Numeral.fits 32 z = true) : Narrows (.mov .quad (.imm z) (.reg .rax))

/-- A word of data is loaded whole. -/
theorem rax_of_exec_data {l : Label} (h : exec img [.mov .quad (.data l) (.reg .rax)] s = some s') :
    s'.regs .rax = BitVec.ofNat 64 (s.mem.read (img.data l) 8) := by
  have hact : act img s (.mov .quad (.data l) (.reg .rax)) =
      some (s.set .rax (BitVec.ofNat 64 (s.mem.read (img.data l) 8))) :=
    act_mov_quad s .rax (by simp [State.value?, State.address?, Width.bytes])
  rw [exec, List.foldlM_cons, hact] at h
  cases h
  exact State.set_regs_self _ _ _

theorem Narrows.goesOn {i : Instr} (h : Narrows i) : goesOn i = true := by cases h <;> rfl

theorem Narrows.isNarrow {i : Instr} (h : Narrows i) (ha : act img s i = some s') : IsNarrow (s'.regs .rax) := by
  cases h with
  | signed src =>
    obtain ⟨v, -, rfl⟩ := Option.map_eq_some_iff.1 ha
    rw [State.set_regs_self]
    exact isNarrow_signExtend _
  | immediate hz =>
    rw [act_mov_quad_imm] at ha
    cases ha
    rw [State.set_regs_self]
    exact isNarrow_ofInt hz

/-- Code with such an instruction at its end. -/
theorem Narrows.isNarrow_of_exec {i : Instr} {code : List Instr} (h : Narrows i)
    (hexec : exec img (code ++ [i]) s = some s') : IsNarrow (s'.regs .rax) := by
  rw [exec, List.foldlM_append] at hexec
  obtain ⟨u, -, hu⟩ := Option.bind_eq_some_iff.1 hexec
  rw [List.foldlM_cons] at hu
  obtain ⟨v, hv, hend⟩ := Option.bind_eq_some_iff.1 hu
  cases hend
  exact h.isNarrow hv

end Machine

/-! ### Storing and loading -/

/-- Storing `%rax` into a variable and loading the variable again leaves `%rax` as it was. -/
def Symbol.Reloads (x : Symbol) (img : Image) (s : State) : Prop :=
  ∃ store load s', x.store = .ok (instrs store) ∧ x.load = .ok (instrs load) ∧
    exec img (store ++ load) s = some s' ∧ s'.regs .rax = s.regs .rax

/-- An integer variable gives `%rax` back exactly if there is an integer of 32 bits in it. -/
theorem Symbol.reloads_iff {x : Symbol} (hx : x.type = .integer) (img : Image) (s : State) :
    x.Reloads img s ↔ IsNarrow (s.regs .rax) := by
  have hstore : x.store = .ok (instrs [.mov .long (.reg .rax) x.place]) := by
    rw [Symbol.store, Symbol.storeFrom, hx]
    rfl
  have hload : x.load = .ok (instrs [.movSigned x.place .rax]) := by
    rw [Symbol.load, hx]
    rfl
  have hexec : Leads img [.mov .long (.reg .rax) x.place, .movSigned x.place .rax] s fun s' =>
      s'.regs .rax = ((s.regs .rax).setWidth 32).signExtend 64 := by
    refine .cons (act_mov_mem s .rbp x.offset rfl rfl) (.single (act_movSigned_mem _ _ _ _) ?_)
    have hcut : BitVec.ofNat 32 ((s.regs .rax).toNat % 256 ^ 4 % 256 ^ 4) = (s.regs .rax).setWidth 32 := by
      apply BitVec.eq_of_toNat_eq
      simp
    rw [State.set_regs_self, Width.bytes, Memory.read_write (by decide), hcut]
  obtain ⟨u, hu, hrax⟩ := hexec
  rw [← signExtend_setWidth_iff, ← hrax]
  constructor
  · rintro ⟨store, load, s', hs, hl, hexec, hsame⟩
    have hinj : Function.Injective instrs := List.map_injective_iff.2 fun _ _ h => Line.instr.inj h
    obtain rfl := hinj (Except.ok.inj (hs.symm.trans hstore))
    obtain rfl := hinj (Except.ok.inj (hl.symm.trans hload))
    obtain rfl : u = s' := Option.some.inj (hu.symm.trans hexec)
    exact hsame
  · intro hsame
    exact ⟨_, _, u, hstore, hload, hu, hsame⟩

/-! ### Expressions on integers -/

namespace Expr

/-- Expressions of integer variables and integral literals of up to 64 bits, at any depth. -/
inductive OnIntegers (locals : SymbolTable) : Expr → Prop
  | number {line text z} (hi : Numeral.isIntegral text = true) (hz : Numeral.integer? text = some z) :
      OnIntegers locals (.number line text)
  | var {line name s} (hx : locals.find? name = some s) (hs : s.type = .integer) : OnIntegers locals (.var line name)
  | arithmetic {line op a b} (ho : op ∈ ArithmeticOp.known) (ha : OnIntegers locals a) (hb : OnIntegers locals b) :
      OnIntegers locals (.arithmetic line op a b)
  | unary {line op e} (ho : op ∈ UnaryOp.known) (he : OnIntegers locals e) : OnIntegers locals (.unary line op e)

/-- The value of a literal that stands alone and has more than 32 bits. -/
def wide? : Expr → Option Int
  | number _ text => (Numeral.integer? text).filter fun z => !Numeral.fits 32 z
  | _ => none

theorem fits_of_wide {e : Expr} {z : Int} (h : e.wide? = some z) : Numeral.fits 64 z = true := by
  cases e with
  | number line text =>
    obtain ⟨hz, -⟩ := Option.filter_eq_some_iff.1 h
    exact Numeral.fits_iff.2 (Numeral.integer?_bounds hz)
  | _ => cases h

/-- What the instructions of an expression end with: a value of 32 bits, or a word from the pool. -/
structure NarrowCode (e : Expr) (is : List Instr) (pool : Pool) : Prop where
  goesOn : ∀ i ∈ is, goesOn i = true
  narrow : e.wide? = none → ∃ front i, is = front ++ [i] ∧ Narrows i
  pooled : ∀ z, e.wide? = some z → ∃ l ∈ pool.literals, l.key = (Category.int, toString z) ∧
    is = [.mov .quad (.data l.label) (.reg .rax)]

/-- Code with an instruction at its end that narrows, for anything but a literal. -/
theorem NarrowCode.of_narrows {e : Expr} (front : List Instr) {i : Instr} {pool : Pool} (he : e.wide? = none)
    (hf : ∀ j ∈ front, Machine.goesOn j = true) (hi : Narrows i) : NarrowCode e (front ++ [i]) pool := by
  refine ⟨fun j hj => ?_, fun _ => ⟨front, i, rfl, hi⟩, fun z hz => ?_⟩
  · rcases List.mem_append.1 hj with hj | hj
    · exact hf j hj
    · rw [List.mem_singleton.1 hj]
      exact hi.goesOn
  · rw [he] at hz
    cases hz

/-- Between and behind the code of two operands only registers and the stack are used. -/
theorem goesOn_operandInstrs {left right : List Instr} (hl : ∀ i ∈ left, Machine.goesOn i = true)
    (hr : ∀ i ∈ right, Machine.goesOn i = true) : ∀ i ∈ operandInstrs left right, Machine.goesOn i = true := by
  intro i hi
  simp only [operandInstrs, List.mem_append, List.mem_cons, List.not_mem_nil, or_false] at hi
  rcases hi with hi | rfl | hi | rfl | rfl
  · exact hl i hi
  · rfl
  · exact hr i hi
  · rfl
  · rfl

theorem goesOn_integerCode {op : ArithmeticOp} {is : List Instr} (h : op.integerCode = .ok is) :
    ∀ i ∈ is, Machine.goesOn i = true := by
  cases op with
  | other symbol => cases h
  | _ =>
    cases h
    simp [Machine.goesOn]

namespace OnIntegers

variable {target : Target} {e : Expr}

/-- Such an expression is an integer, if it has a type. -/
theorem type_eq {scope : Scope} {t : Ty} (h : e.OnIntegers scope.locals) (ht : e.typeOf scope = .ok t) :
    t = .integer := by
  induction h generalizing t with
  | number hi hz =>
    rw [typeOf, Numeral.type, if_pos hi] at ht
    exact (Except.ok.inj ht).symm
  | @var line name s hx hs =>
    have hfind := Scope.findVariable_eq_ok_iff (x := ⟨line, name⟩).2 hx
    rw [typeOf, hfind] at ht
    exact (Except.ok.inj ht).symm.trans hs
  | arithmetic ho ha hb iha ihb =>
    simp only [typeOf, bind_eq_ok_iff] at ht
    obtain ⟨ta, hta, tb, htb, ht⟩ := ht
    obtain rfl := iha hta
    obtain rfl := ihb htb
    exact (ArithmeticOp.typeOf_scalar rfl rfl ht).2.2
  | @unary line op e ho he ih =>
    simp only [typeOf, bind_eq_ok_iff] at ht
    obtain ⟨te, hte, ht⟩ := ht
    obtain rfl := ih hte
    cases op with
    | neg | other => exact (Except.ok.inj ht).symm
    | not => cases ht

/-- A literal is an immediate operand if it has 32 bits, else it is pooled. -/
theorem exists_emits_number {line : Int} {text : String} {z : Int} (hi : Numeral.isIntegral text = true)
    (hz : Numeral.integer? text = some z) (pool : Pool) :
    ∃ is pool', ((Expr.number line text).code target).Emits pool (instrs is) pool' ∧
      NarrowCode (.number line text) is pool' := by
  by_cases hf : Numeral.fits 32 z = true
  · have himmediate : Numeral.immediate? text = some z := by
      rw [Numeral.immediate?, if_pos hi, hz, Option.filter_some, if_pos hf]
    refine ⟨[.mov .quad (.imm z) (.reg .rax)], pool, ?_,
      NarrowCode.of_narrows [] ?_ (by simp) (.immediate hf)⟩
    · simp [code, Numeral.code, hi, himmediate]
    · simp [wide?, hz, Option.filter_some, hf]
  · rw [Bool.not_eq_true] at hf
    have himmediate : Numeral.immediate? text = none := by
      rw [Numeral.immediate?, if_pos hi, hz, Option.filter_some, if_neg (by simp [hf])]
    have hwide : (Expr.number line text).wide? = some z := by simp [wide?, hz, Option.filter_some, hf]
    have hpooled : ∃ l ∈ (pool.intern Category.int (toString z)).2.literals,
        l.key = (Category.int, toString z) ∧ (pool.intern Category.int (toString z)).1 = l.label := by
      rcases pool.intern_cases Category.int (toString z) with ⟨l, hl, hkey, heq⟩ | ⟨-, q, heq, hq, -⟩
      · rw [heq]
        exact ⟨l, hl, hkey, rfl⟩
      · rw [heq]
        refine ⟨⟨toString z, ⟨Category.int, pool.count Category.int + 1⟩⟩, ?_, rfl, rfl⟩
        rw [hq]
        exact List.mem_append_right _ (List.mem_singleton_self _)
    obtain ⟨l, hl, hkey, hlabel⟩ := hpooled
    refine ⟨[.mov .quad (.data l.label) (.reg .rax)], (pool.intern Category.int (toString z)).2, ?_,
      ⟨by simp [Machine.goesOn], ?_, ?_⟩⟩
    · simp only [code, Numeral.code, hi, Bool.not_true, Bool.false_eq_true, if_false, himmediate, hz, Gen.emits_bind,
        Gen.emits_intern, Gen.emits_pure]
      exact ⟨_, _, ⟨rfl, rfl⟩, by rw [hlabel], rfl⟩
    · intro hnone
      rw [hwide] at hnone
      cases hnone
    · intro y hy
      obtain rfl : z = y := Option.some.inj (hwide.symm.trans hy)
      exact ⟨l, hl, hkey, rfl⟩

/-- Code is generated for every such expression that has a type. -/
theorem exists_emits {t : Ty} (h : e.OnIntegers target.scope.locals) (ht : e.typeOf target.scope = .ok t)
    (pool : Pool) :
    ∃ is pool', (e.code target).Emits pool (instrs is) pool' ∧ NarrowCode e is pool' := by
  induction h generalizing t pool with
  | number hi hz => exact exists_emits_number hi hz pool
  | @var line name s hx hs =>
    have hload : s.load = .ok (instrs [.movSigned s.place .rax]) := by
      rw [Symbol.load, hs]
      rfl
    refine ⟨_, pool, ?_, NarrowCode.of_narrows [] rfl (by simp) (.signed s.place)⟩
    simp only [code, Gen.emits_bind, Gen.emits_lift, Target.find_eq_ok_iff]
    exact ⟨s, pool, ⟨hx, rfl⟩, hload, rfl⟩
  | @arithmetic line op a b ho ha hb iha ihb =>
    have htype := (OnIntegers.arithmetic ho ha hb).type_eq ht
    subst htype
    have hty := Target.typeOf_eq_ok_iff.2 ht
    simp only [typeOf, bind_eq_ok_iff] at ht
    obtain ⟨ta, hta, tb, htb, ht⟩ := ht
    obtain ⟨left, q, hl, hleft⟩ := iha hta pool
    obtain ⟨right, r, hr, hright⟩ := ihb htb q
    obtain ⟨combined, hc⟩ := ArithmeticOp.integerCode_eq_ok ho
    have hcode : operandsCode (instrs left) (instrs right) ++ instrs (combined ++ [Instr.movSigned (.reg .rax) .rax]) =
        instrs ((operandInstrs left right ++ combined) ++ [Instr.movSigned (.reg .rax) .rax]) := by
      rw [operandsCode_instrs, ← instrs_append, List.append_assoc]
    refine ⟨(operandInstrs left right ++ combined) ++ [Instr.movSigned (.reg .rax) .rax], r, ?_,
      NarrowCode.of_narrows _ rfl (fun i hi => ?_) (.signed (.reg .rax))⟩
    · simp only [code, hty, Gen.emits_bind, Gen.emits_lift]
      refine ⟨_, pool, ⟨rfl, rfl⟩, _, q, hl, _, r, hr, ?_⟩
      simp only [reduceCtorEq, if_false, Gen.emits_bind, Gen.emits_lift, Gen.emits_pure]
      exact ⟨_, r, ⟨hc, rfl⟩, hcode.symm, rfl⟩
    · rcases List.mem_append.1 hi with hi | hi
      · exact goesOn_operandInstrs hleft.goesOn hright.goesOn i hi
      · exact goesOn_integerCode hc i hi
  | @unary line op e ho he ih =>
    have htype := (OnIntegers.unary ho he).type_eq ht
    subst htype
    have hty := Target.typeOf_eq_ok_iff.2 ht
    simp only [typeOf, bind_eq_ok_iff] at ht
    obtain ⟨te, hte, ht⟩ := ht
    obtain rfl := he.type_eq hte
    obtain ⟨operand, q, hoperand, hnarrow⟩ := ih hte pool
    cases op with
    | neg =>
      refine ⟨(operand ++ [Instr.neg .rax]) ++ [Instr.movSigned (.reg .rax) .rax], q, ?_,
        NarrowCode.of_narrows _ rfl (fun i hi => ?_) (.signed (.reg .rax))⟩
      · simp only [code, hty, Gen.emits_bind, Gen.emits_lift, Gen.emits_pure]
        refine ⟨_, q, hoperand, _, q, ⟨rfl, rfl⟩, ?_, rfl⟩
        rw [List.append_assoc, instrs_append]
        rfl
      · rcases List.mem_append.1 hi with hi | hi
        · exact hnarrow.goesOn i hi
        · rw [List.mem_singleton.1 hi]
          rfl
    | not => cases ht
    | other symbol => simp [UnaryOp.known] at ho

end OnIntegers

end Expr

/-- The pooled integers are in memory where their labels point, as words. -/
def Assembly.Pool.InMemory (pool : Pool) (data : Label → Word) (m : Memory) : Prop :=
  ∀ l ∈ pool.literals, l.label.category = Category.int → ∀ z, Numeral.integer? l.payload = some z →
    m.read (data l.label) 8 = (BitVec.ofInt 64 z).toNat

/-- The code of an expression on integers leaves an integer of 32 bits in `%rax`. Take an expression of integer
variables and integral literals that has the type of integers. Code is emitted for it; take any run from the start of
the code, wherever it stands, to its end. Unless the expression is a literal of more than 32 bits and nothing else,
`%rax` then holds an integer of 32 bits, the one that storing it into an integer variable and loading it again would
give. A literal of more than 32 bits that stands alone is loaded whole: `%rax` holds its value. -/
theorem integer_code_leaves_32_bits {target : Target} {e : Expr} (he : e.OnIntegers target.scope.locals)
    (ht : e.typeOf target.scope = .ok .integer) (pool : Pool) :
    ∃ code pool', (e.code target).Emits pool code pool' ∧
      ∀ before after data s s',
        RunsWithin ⟨before ++ (code ++ after), data⟩ before.length (before.length + code.length)
          ⟨before.length, s⟩ ⟨before.length + code.length, s'⟩ →
        (e.wide? = none → (-2 ^ 31 ≤ (s'.regs .rax).toInt ∧ (s'.regs .rax).toInt < 2 ^ 31) ∧
          ∀ x : Symbol, x.type = .integer → x.Reloads ⟨before ++ (code ++ after), data⟩ s') ∧
        ∀ z, e.wide? = some z → pool'.InMemory data s.mem → (s'.regs .rax).toInt = z := by
  obtain ⟨is, pool', hemits, hcode⟩ := he.exists_emits ht pool
  refine ⟨instrs is, pool', hemits, fun before after data s s' hrun => ?_⟩
  have hexec := hrun.exec_eq (placed_instrs before after is data) hcode.goesOn (by rw [length_instrs])
  refine ⟨fun hnone => ?_, fun z hz hmem => ?_⟩
  · obtain ⟨front, i, rfl, hi⟩ := hcode.narrow hnone
    have hnarrow := hi.isNarrow_of_exec hexec
    exact ⟨hnarrow, fun x hx => (Symbol.reloads_iff hx _ _).2 hnarrow⟩
  · obtain ⟨l, hl, hkey, rfl⟩ := hcode.pooled z hz
    have hcategory : l.label.category = Category.int := congrArg Prod.fst hkey
    have hpayload : l.payload = toString z := congrArg Prod.snd hkey
    have hfits := Expr.fits_of_wide hz
    have hread := hmem l hl hcategory z (by rw [hpayload]; exact Numeral.integer?_toString hfits)
    have hrax := rax_of_exec_data hexec
    have hz' := Numeral.fits_iff.1 hfits
    rw [hrax, hread, BitVec.ofNat_toNat, BitVec.setWidth_eq, toInt_ofInt hz']

namespace WideLiteral

/-- A program with a wide literal that stands alone, and one inside a product. -/
def text : List Char :=
  "(program (func f inteiro [(param inteiro n)]
    [(print 3000000000) (return (binary \"*\" (binary \"+\" 3000000000 n) (unary \"-\" n)))]))".toList

/-- What the text is read as. -/
def datum : Datum :=
  .list 1 [] [.symbol 1 "program", .list 1 [] [.symbol 1 "func", .symbol 1 "f", .symbol 1 "inteiro",
    .array 1 [.list 1 [] [.symbol 1 "param", .symbol 1 "inteiro", .symbol 1 "n"]],
    .array 2 [.list 2 [] [.symbol 2 "print", .number 2 "3000000000"],
      .list 2 [] [.symbol 2 "return", .list 2 [] [.symbol 2 "binary", .string 2 "*",
        .list 2 [] [.symbol 2 "binary", .string 2 "+", .number 2 "3000000000", .symbol 2 "n"],
        .list 2 [] [.symbol 2 "unary", .string 2 "-", .symbol 2 "n"]]]]]]

/-- The literal alone. -/
def literal : Expr := .number 1 "3000000000"

/-- The product. -/
def product : Expr :=
  .arithmetic 1 .mul (.arithmetic 1 .add literal (.var 1 "n")) (.unary 1 .neg (.var 1 "n"))

def function : Function where
  line := 1
  name := "f"
  result := .integer
  params := [⟨1, .integer, ⟨1, "n"⟩⟩]
  body := [.print 1 literal, .ret 1 (some product)]

def locals : SymbolTable := ⟨[("n", ⟨"n", .integer, 1, -4, true, none⟩)]⟩

/-- The program as it is accepted. -/
def compilation : Compilation where
  program := ⟨1, [function]⟩
  globals := ⟨[("f", ⟨"f", .function, 1, 0, false, some ⟨[.integer], .integer⟩⟩)]⟩
  functions := [⟨function, locals⟩]

/-- Where the function is compiled. -/
def target : Target := ⟨"f", ⟨locals, compilation.globals⟩⟩

/-- The label of the literal. -/
def label : Label := ⟨Category.int, 1⟩

/-- The pool that holds the literal. -/
def pool : Pool := ⟨[(Category.int, 1)], [⟨"3000000000", label⟩]⟩

/-- The literal in data, and seven in the frame. -/
def state : State where
  regs
    | .rbp => 128
    | .rsp => 96
    | _ => 0
  mem a := if a = 124 then 7 else if a = 4097 then 94 else if a = 4098 then 208 else if a = 4099 then 178 else 0

/-- The place of data. -/
def data : Label → Word := fun _ => 4096

/-- The instructions of the product. -/
def productInstrs : List Instr :=
  operandInstrs (operandInstrs [.mov .quad (.data label) (.reg .rax)] [.movSigned (.mem .rbp (-4)) .rax] ++
      [Instr.alu .add .quad (.reg .rcx) .rax, .movSigned (.reg .rax) .rax])
    [.movSigned (.mem .rbp (-4)) .rax, .neg .rax, .movSigned (.reg .rax) .rax] ++
  [Instr.alu .imul .quad (.reg .rcx) .rax, .movSigned (.reg .rax) .rax]

theorem load : Program.load text = .ok compilation.program := by
  refine Program.load_eq_ok_iff.2 ⟨datum, ?_, by rfl⟩
  apply of_literal (P := (Datum.parse · = .ok datum))
  cbv

theorem onIntegers_literal : literal.OnIntegers locals := .number (z := 3000000000) (by decide) (by decide)

theorem onIntegers_product : product.OnIntegers locals :=
  .arithmetic (by decide) (.arithmetic (by decide) onIntegers_literal (.var rfl rfl))
    (.unary (by decide) (.var rfl rfl))

theorem inMemory : pool.InMemory data state.mem := by
  intro l hl _ z hz
  rw [pool, List.mem_singleton] at hl
  subst hl
  have hvalue : Numeral.integer? "3000000000" = some 3000000000 := by decide +kernel
  obtain rfl : 3000000000 = z := Option.some.inj (hvalue.symm.trans hz)
  decide +kernel

end WideLiteral

/-- Inside a product with seven and minus seven the wide literal has wrapped around. -/
theorem wide_factor_wraps_around :
    Program.load WideLiteral.text = .ok WideLiteral.compilation.program ∧
    WideLiteral.compilation.program.analyze.2 = .ok WideLiteral.compilation ∧
    ∃ code pool s', (WideLiteral.product.code WideLiteral.target).Emits {} code pool ∧
      RunsWithin ⟨code ++ leaveCode, WideLiteral.data⟩ 0 code.length ⟨0, WideLiteral.state⟩ ⟨code.length, s'⟩ ∧
      s'.regs .rax = 474836431 ∧ (-2 ^ 31 ≤ (s'.regs .rax).toInt ∧ (s'.regs .rax).toInt < 2 ^ 31) ∧
      ∀ x : Symbol, x.type = .integer → x.Reloads ⟨code ++ leaveCode, WideLiteral.data⟩ s' := by
  have htype : WideLiteral.product.typeOf WideLiteral.target.scope = .ok .integer := by rfl
  obtain ⟨code, pool, hemits, h⟩ := integer_code_leaves_32_bits WideLiteral.onIntegers_product htype {}
  obtain rfl : code = instrs WideLiteral.productInstrs := by
    have hcode : ((WideLiteral.product.code WideLiteral.target).run {}).toOption.map Prod.fst =
        some (instrs WideLiteral.productInstrs) := by decide +kernel
    rw [hemits] at hcode
    exact Option.some.inj hcode
  have hrax : (exec ⟨instrs WideLiteral.productInstrs ++ leaveCode, WideLiteral.data⟩ WideLiteral.productInstrs
      WideLiteral.state).map (fun s' => s'.regs .rax) = some 474836431 := by decide +kernel
  obtain ⟨s', hexec, hrax⟩ := Option.map_eq_some_iff.1 hrax
  have hrun := RunsWithin.of_exec_start hexec
  have hend := h [] leaveCode WideLiteral.data WideLiteral.state s'
  rw [List.nil_append, List.length_nil, Nat.zero_add] at hend
  obtain ⟨hnarrow, hreloads⟩ := (hend hrun).1 rfl
  exact ⟨WideLiteral.load, by rfl, _, pool, s', hemits, hrun, hrax, hnarrow, hreloads⟩

/-- The wide literal alone is no integer of 32 bits, and comes back changed from an integer variable. -/
theorem pooled_literal_exceeds_32_bits :
    Program.load WideLiteral.text = .ok WideLiteral.compilation.program ∧
    WideLiteral.compilation.program.analyze.2 = .ok WideLiteral.compilation ∧
    WideLiteral.literal.OnIntegers WideLiteral.locals ∧
    WideLiteral.literal.typeOf WideLiteral.target.scope = .ok .integer ∧
    ∃ code pool s', (WideLiteral.literal.code WideLiteral.target).Emits {} code pool ∧
      pool.InMemory WideLiteral.data WideLiteral.state.mem ∧
      RunsWithin ⟨code ++ leaveCode, WideLiteral.data⟩ 0 code.length ⟨0, WideLiteral.state⟩ ⟨code.length, s'⟩ ∧
      (s'.regs .rax).toInt = 3000000000 ∧ ¬ (s'.regs .rax).toInt < 2 ^ 31 ∧
      ∀ x : Symbol, x.type = .integer → ¬ x.Reloads ⟨code ++ leaveCode, WideLiteral.data⟩ s' := by
  have hcode : (WideLiteral.literal.code WideLiteral.target).Emits {}
      (instrs [.mov .quad (.data WideLiteral.label) (.reg .rax)]) WideLiteral.pool := by rfl
  have hrax : (exec ⟨instrs [.mov .quad (.data WideLiteral.label) (.reg .rax)] ++ leaveCode, WideLiteral.data⟩
      [.mov .quad (.data WideLiteral.label) (.reg .rax)] WideLiteral.state).map
        (fun s' => (s'.regs .rax).toInt) = some 3000000000 := by decide +kernel
  obtain ⟨s', hexec, hrax⟩ := Option.map_eq_some_iff.1 hrax
  have hrun := RunsWithin.of_exec_start hexec
  have hwide : ¬ (s'.regs .rax).toInt < 2 ^ 31 := by
    rw [hrax]
    decide
  refine ⟨WideLiteral.load, by rfl, WideLiteral.onIntegers_literal, by rfl, _, _, s', hcode, WideLiteral.inMemory, hrun,
    hrax, hwide, fun x hx hreloads => ?_⟩
  exact hwide ((Symbol.reloads_iff hx _ _).1 hreloads).2

end Arvore
