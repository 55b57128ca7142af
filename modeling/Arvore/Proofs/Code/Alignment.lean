import Mathlib
import Arvore.Proofs.Code.Balance
import Arvore.Proofs.Code.Consistency

/-!
# Aligned frames

The option to align frames is asked for in one place, the line of a prologue that reserves the frame. No other line of a
listing reserves stack (`Function.exists_inner_of_emits`), so with the option and without it the listings have the same
lines, but for the amounts on these: each is rounded up to the next multiple of sixteen, and a function that reserves
nothing still reserves nothing (`Compilation.aligned_differs_in_reservations`).
-/

namespace Arvore

open Assembly

/-! ### Rounding up -/

/-- The amount `m` is `n` rounded up to a multiple of sixteen. In a word of 64 bits that is the sum with fifteen,
its four lowest bits cleared. -/
structure RoundedUp (n m : Int) : Prop where
  least : IsLeast {k : Int | 16 ∣ k ∧ n ≤ k} m
  mask : n + 15 < 2 ^ 63 → m = ((BitVec.ofInt 64 n + 15#64) &&& ~~~15#64).toInt

theorem reservation_pos_iff {align : Bool} {size : Int} : 0 < reservation align size ↔ 0 < size := by
  cases align with
  | false => rfl
  | true =>
    simp only [reservation, if_true]
    omega

private theorem and_not_fifteen (x : BitVec 64) : x &&& ~~~15#64 = (x >>> 4) <<< 4 := by
  have h15 : ∀ i : Fin 64, (15#64)[i.val] = decide (i.val < 4) := by decide
  ext i hi
  rw [BitVec.getElem_and, BitVec.getElem_not, BitVec.getElem_shiftLeft, h15 ⟨i, hi⟩]
  by_cases h : i < 4
  · simp [h]
  · have hsum : 4 + (i - 4) = i := by omega
    simp [h, hsum, BitVec.getLsbD_eq_getElem hi]

theorem roundedUp_reservation {size : Int} (h : 0 ≤ size) : RoundedUp size (reservation true size) := by
  simp only [reservation, if_true]
  constructor
  · refine ⟨⟨Int.dvd_mul_left _ _, by omega⟩, ?_⟩
    rintro _ ⟨⟨k, rfl⟩, hk⟩
    omega
  · intro hfits
    lift size to Nat using h
    have hword : ((BitVec.ofInt 64 size + 15#64) >>> 4 <<< 4).toNat = (size + 15) / 16 * 16 := by
      simp only [BitVec.toNat_shiftLeft, BitVec.toNat_ushiftRight, BitVec.toNat_add, BitVec.ofInt_natCast,
        BitVec.toNat_ofNat, Nat.shiftLeft_eq, Nat.shiftRight_eq_div_pow]
      omega
    rw [and_not_fifteen, BitVec.toInt_eq_toNat_of_lt (by omega), hword]
    push_cast
    rfl

/-! ### Lines that reserve -/

namespace Assembly

/-- The line that reserves so many bytes of the stack. -/
def reserveLine (size : Int) : Line := .instr (.alu .sub .quad (.imm size) .rsp)

/-- The number of bytes that a line reserves. -/
def Line.reserved? : Line → Option Int
  | .instr (.alu .sub .quad (.imm size) .rsp) => some size
  | _ => none

/-- What the lines of a listing reserve. -/
def reservations (code : Listing) : List Int := code.filterMap Line.reserved?

@[simp] theorem reservations_append (a b : Listing) : reservations (a ++ b) = reservations a ++ reservations b :=
  List.filterMap_append

/-- The lines with which the code of a function opens, before it reserves its frame. -/
def opening (function : String) : Listing :=
  [.global function, .entry function] ++ instrs [.push (.reg .rbp), .mov .quad (.reg .rsp) (.reg .rbp)]

/-- The line with the number `i`, behind the opening of a function, reserves so many bytes for it. -/
def ReservesAt (listing : Listing) (i : Nat) (function : String) (size : Int) : Prop :=
  ∃ before after, listing = before ++ (opening function ++ reserveLine size :: after) ∧ i = before.length + 4

/-- A listing reserves so many bytes for the frame of a function. -/
def Reserves (listing : Listing) (function : String) (size : Int) : Prop := ∃ i, ReservesAt listing i function size

theorem ReservesAt.append_left {listing : Listing} {i : Nat} {function : String} {size : Int}
    (h : ReservesAt listing i function size) (front : Listing) :
    ReservesAt (front ++ listing) (front.length + i) function size := by
  obtain ⟨before, after, rfl, rfl⟩ := h
  exact ⟨front ++ before, after, by rw [List.append_assoc], by rw [List.length_append, Nat.add_assoc]⟩

end Assembly

/-! ### Only prologues reserve -/

section Expressions

variable {target : Target} {p q : Pool} {code : Listing}

theorem Symbol.reservations_load {s : Symbol} (h : s.load = .ok code) : reservations code = [] := by
  obtain ⟨w, -, h⟩ := bind_eq_ok_iff.1 h
  cases w <;> cases h <;> rfl

theorem Symbol.reservations_storeFrom {s : Symbol} {src : Operand} (h : s.storeFrom src = .ok code) :
    reservations code = [] := by
  obtain ⟨w, -, h⟩ := bind_eq_ok_iff.1 h
  cases h
  rfl

theorem reservations_operandsCode (left right : Listing) :
    reservations (operandsCode left right) = reservations left ++ reservations right := by
  have hpush : reservations (instrs [.push (.reg .rax)]) = [] := rfl
  have hmove : reservations (instrs [.mov .quad (.reg .rax) (.reg .rcx), .pop .rax]) = [] := rfl
  simp [operandsCode, hpush, hmove]

theorem reservations_widenCode (type : Ty) : reservations (widenCode type) = [] := by
  unfold widenCode
  split <;> rfl

/-- A call moves the stack pointer back, never on. -/
theorem reservations_callCode (function : String) (n : Nat) : reservations (callCode function n) = [] := by
  have hclean : ∀ k : Int, reservations (instrs (if n = 0 then [] else [.alu .add .quad (.imm k) .rsp])) = [] := by
    intro k
    split <;> rfl
  have hpushes : reservations (instrs (repushCode n)) = [] := by
    simp [reservations, instrs, repushCode, Line.reserved?]
  have hloads : ∀ extra, reservations (instrs (registerCode n extra)) = [] := by
    intro extra
    simp [reservations, instrs, registerCode, Line.reserved?]
  have hcall : reservations (instrs [.call function]) = [] := rfl
  have happend : ∀ a b : List Instr, instrs (a ++ b) = instrs a ++ instrs b := fun _ _ => List.map_append
  simp only [callCode, happend, reservations_append, hpushes, hloads, hcall, hclean, List.append_nil]

theorem Numeral.reservations_of_emits {text : String} (h : (Numeral.code text).Emits p code q) :
    reservations code = [] := by
  unfold Numeral.code at h
  split at h
  · simp only [Gen.emits_bind, Gen.emits_lift, Gen.emits_pure] at h
    obtain ⟨_, _, -, l, _, -, rfl, -⟩ := h
    rfl
  · split at h
    · obtain ⟨rfl, -⟩ := Gen.emits_pure.1 h
      rfl
    · split at h
      · simp only [Gen.emits_bind, Gen.emits_pure] at h
        obtain ⟨l, _, -, rfl, -⟩ := h
        rfl
      · exact absurd h Gen.not_emits_throw

theorem Expr.reservations_of_argsCode {args : List Expr}
    (ih : ∀ e ∈ args, ∀ {p q code}, (e.code target).Emits p code q → reservations code = [])
    (h : (argsCode target args).Emits p code q) : reservations code = [] := by
  induction args generalizing p q code with
  | nil =>
    simp only [argsCode, Gen.emits_pure] at h
    obtain ⟨rfl, -⟩ := h
    rfl
  | cons e rest ihrest =>
    simp only [List.forall_mem_cons] at ih
    simp only [argsCode, Gen.emits_bind, Gen.emits_pure] at h
    obtain ⟨first, _, hf, others, _, ho, rfl, -⟩ := h
    have hpush : reservations (instrs [.push (.reg .rax)]) = [] := rfl
    simp [ih.1 hf, hpush, ihrest ih.2 ho]

/-- The code of an expression reserves nothing. -/
theorem Expr.reservations_of_emits {e : Expr} (h : (e.code target).Emits p code q) : reservations code = [] := by
  induction e generalizing p q code with
  | number line text => exact Numeral.reservations_of_emits (by simpa only [Expr.code] using h)
  | string line text =>
    simp only [Expr.code, Gen.emits_bind, Gen.emits_pure] at h
    obtain ⟨l, _, -, rfl, -⟩ := h
    rfl
  | boolean line word =>
    simp only [Expr.code, Gen.emits_pure] at h
    obtain ⟨rfl, -⟩ := h
    rfl
  | var line name =>
    simp only [Expr.code, Gen.emits_bind, Gen.emits_lift] at h
    obtain ⟨s, _, -, hl, -⟩ := h
    exact Symbol.reservations_load hl
  | arithmetic line op a b iha ihb =>
    simp only [Expr.code, Gen.emits_bind, Gen.emits_lift] at h
    obtain ⟨type, _, -, left, _, hl, right, _, hr, h⟩ := h
    split at h
    · simp only [Gen.emits_bind, Gen.emits_lift, Gen.emits_pure] at h
      obtain ⟨s, _, -, t, _, -, o, _, -, rfl, -⟩ := h
      have hreal : reservations (realOperandsCode ++ instrs [.real o .xmm1 .xmm0, .ofReal .xmm0 .rax]) = [] := rfl
      rw [List.append_assoc, reservations_append, hreal]
      simp [reservations_operandsCode, reservations_widenCode, iha hl, ihb hr]
    · simp only [Gen.emits_bind, Gen.emits_lift, Gen.emits_pure] at h
      obtain ⟨is, _, ⟨hop, -⟩, rfl, -⟩ := h
      have hcode : reservations (instrs (is ++ [Instr.movSigned (.reg .rax) .rax])) = [] := by
        cases op <;> cases hop <;> rfl
      simp [reservations_operandsCode, iha hl, ihb hr, hcode]
  | logical line op a b iha ihb =>
    simp only [Expr.code, Gen.emits_bind, Gen.emits_lift, Gen.emits_pure] at h
    obtain ⟨left, _, hl, right, _, hr, is, _, ⟨hop, -⟩, rfl, -⟩ := h
    have hcode : reservations (instrs is) = [] := by
      cases op <;> cases hop <;> rfl
    simp [reservations_operandsCode, iha hl, ihb hr, hcode]
  | relational line op a b iha ihb =>
    simp only [Expr.code, Gen.emits_bind, Gen.emits_lift] at h
    obtain ⟨s, _, -, t, _, -, left, _, hl, right, _, hr, h⟩ := h
    split at h
    · simp only [Gen.emits_bind, Gen.emits_lift, Gen.emits_pure] at h
      obtain ⟨is, _, ⟨hop, -⟩, rfl, -⟩ := h
      have hcode : reservations (realOperandsCode ++ instrs (is ++ [Instr.movZero (.reg .rax) .rax])) = [] := by
        cases op <;> cases hop <;> rfl
      rw [List.append_assoc, reservations_append, hcode]
      simp [reservations_operandsCode, reservations_widenCode, iha hl, ihb hr]
    · simp only [Gen.emits_bind, Gen.emits_lift, Gen.emits_pure] at h
      obtain ⟨condition, _, -, rfl, -⟩ := h
      have hcode : reservations (instrs [.alu .cmp .quad (.reg .rcx) .rax, .set condition .rax,
        .movZero (.reg .rax) .rax]) = [] := rfl
      rw [reservations_append, reservations_operandsCode, iha hl, ihb hr, hcode]
      rfl
  | unary line op e ih =>
    simp only [Expr.code, Gen.emits_bind, Gen.emits_lift, Gen.emits_pure] at h
    obtain ⟨operand, _, he, is, _, ⟨hop, -⟩, rfl, -⟩ := h
    have hcode : reservations (instrs is) = [] := by
      cases op with
      | neg =>
        obtain ⟨t, -, hop⟩ := bind_eq_ok_iff.1 hop
        split at hop <;> cases hop <;> rfl
      | not =>
        cases hop
        rfl
      | other symbol => cases hop
    rw [reservations_append, ih he, hcode]
    rfl
  | call line callee args ih =>
    simp only [Expr.code, Gen.emits_bind, Gen.emits_pure] at h
    obtain ⟨stacked, _, hs, rfl, -⟩ := h
    rw [reservations_append, reservations_of_argsCode ih hs, reservations_callCode]
    rfl
  | foreign line kind | absent => simp [Expr.code] at h

theorem Symbol.reservations_of_assignCode {s : Symbol} {e : Expr} (h : (s.assignCode target e).Emits p code q) :
    reservations code = [] := by
  unfold Symbol.assignCode at h
  split at h
  · exact Symbol.reservations_storeFrom (Gen.emits_lift.1 h).1
  · simp only [Gen.emits_bind, Gen.emits_lift, Gen.emits_pure] at h
    obtain ⟨computed, _, hc, stored, _, ⟨hs, -⟩, rfl, -⟩ := h
    rw [reservations_append, Expr.reservations_of_emits hc, Symbol.reservations_storeFrom hs]
    rfl

theorem DeclItem.reservations_of_emits {items : List DeclItem} (h : (DeclItem.codes target items).Emits p code q) :
    reservations code = [] := by
  induction items generalizing p q code with
  | nil =>
    obtain ⟨rfl, -⟩ := Gen.emits_pure.1 h
    rfl
  | cons item rest ih =>
    simp only [DeclItem.codes, Gen.emits_bind, Gen.emits_pure] at h
    obtain ⟨first, _, hf, others, _, ho, rfl, -⟩ := h
    have hfirst : reservations first = [] := by
      unfold DeclItem.code at hf
      split at hf
      · obtain ⟨rfl, -⟩ := Gen.emits_pure.1 hf
        rfl
      · simp only [Gen.emits_bind, Gen.emits_lift] at hf
        obtain ⟨s, _, -, hf⟩ := hf
        exact Symbol.reservations_of_assignCode hf
    rw [reservations_append, hfirst, ih ho]
    rfl

theorem Expr.reservations_of_printCode {e : Expr} (h : (e.printCode target).Emits p code q) :
    reservations code = [] := by
  unfold Expr.printCode at h
  split at h
  · simp only [Gen.emits_bind, Gen.emits_pure] at h
    obtain ⟨l, _, -, rfl, -⟩ := h
    rfl
  · simp only [Gen.emits_bind, Gen.emits_pure] at h
    obtain ⟨computed, _, hc, rfl, -⟩ := h
    rw [reservations_append, Expr.reservations_of_emits hc]
    rfl

end Expressions

section Statements

variable {target : Target} {p q : Pool} {code : Listing}

theorem reservations_testCode (cond : Listing) (l : Label) : reservations (testCode cond l) = reservations cond := by
  have htest : reservations (instrs [.alu .cmp .quad (.imm 0) .rax, .jumpEqual l]) = [] := rfl
  rw [testCode, reservations_append, htest, List.append_nil]

theorem Stmt.reservations_of_codes {body : List Stmt}
    (ih : ∀ s ∈ body, ∀ {p q code}, (s.code target).Emits p code q → reservations code = [])
    (h : (Stmt.codes target body).Emits p code q) : reservations code = [] := by
  induction body generalizing p q code with
  | nil =>
    simp only [Stmt.codes, Gen.emits_pure] at h
    obtain ⟨rfl, -⟩ := h
    rfl
  | cons s rest ihrest =>
    simp only [List.forall_mem_cons] at ih
    simp only [Stmt.codes, Gen.emits_bind, Gen.emits_pure] at h
    obtain ⟨first, _, hf, others, _, ho, rfl, -⟩ := h
    rw [reservations_append, ih.1 hf, ihrest ih.2 ho]
    rfl

/-- The code of a statement reserves nothing. -/
theorem Stmt.reservations_of_emits {s : Stmt} (h : (s.code target).Emits p code q) : reservations code = [] := by
  have hlabel : ∀ l, reservations [.label l] = [] := fun _ => rfl
  have hjump : ∀ l, reservations (instrs [.jump l]) = [] := fun _ => rfl
  induction s generalizing p q code with
  | declare line type items => exact DeclItem.reservations_of_emits (by simpa only [Stmt.code] using h)
  | assign line x e =>
    simp only [Stmt.code, Gen.emits_bind, Gen.emits_lift] at h
    obtain ⟨s, _, -, h⟩ := h
    exact Symbol.reservations_of_assignCode h
  | increment line op x =>
    simp only [Stmt.code, Gen.emits_bind, Gen.emits_lift, Gen.emits_pure] at h
    obtain ⟨s, _, -, loaded, _, ⟨hl, -⟩, i, _, ⟨hi, -⟩, stored, _, ⟨hs, -⟩, rfl, -⟩ := h
    have hstep : reservations (instrs [i]) = [] := by
      cases op <;> cases hi <;> rfl
    simp [Symbol.reservations_load hl, hstep, Symbol.reservations_storeFrom hs]
  | call line callee args => exact Expr.reservations_of_emits (by simpa only [Stmt.code] using h)
  | ifThen line c body ih =>
    simp only [Stmt.code, Gen.emits_bind, Gen.emits_pure] at h
    obtain ⟨done, _, -, cond, _, hcond, inner, _, hinner, rfl, -⟩ := h
    simp [reservations_testCode, Expr.reservations_of_emits hcond, reservations_of_codes ih hinner, hlabel]
  | ifElse line c body other ihb iho =>
    simp only [Stmt.code, Gen.emits_bind, Gen.emits_pure] at h
    obtain ⟨otherwise, _, -, done, _, -, cond, _, hcond, first, _, hfirst, second, _, hsecond, rfl, -⟩ := h
    simp only [reservations_append, reservations_testCode, Expr.reservations_of_emits hcond,
      reservations_of_codes ihb hfirst, reservations_of_codes iho hsecond, hlabel, hjump, List.append_nil]
  | whileDo line c body ih =>
    simp only [Stmt.code, Gen.emits_bind, Gen.emits_pure] at h
    obtain ⟨top, _, -, done, _, -, cond, _, hcond, inner, _, hinner, rfl, -⟩ := h
    simp only [reservations_append, reservations_testCode, Expr.reservations_of_emits hcond,
      reservations_of_codes ih hinner, hlabel, hjump, List.append_nil]
  | forDo line i c s body ihi ihs ih =>
    simp only [Stmt.code, Gen.emits_bind, Gen.emits_pure] at h
    obtain ⟨top, _, -, done, _, -, init, _, hinit, cond, _, hcond, inner, _, hinner, step, _, hstep, rfl, -⟩ := h
    simp only [reservations_append, reservations_testCode, Expr.reservations_of_emits hcond, ihi hinit, ihs hstep,
      reservations_of_codes ih hinner, hlabel, hjump, List.append_nil]
  | read line x =>
    simp only [Stmt.code, Gen.emits_bind, Gen.emits_lift, Gen.emits_pure] at h
    obtain ⟨s, _, -, rfl, -⟩ := h
    rfl
  | print line e => exact Expr.reservations_of_printCode (by simpa only [Stmt.code] using h)
  | ret line value =>
    cases value with
    | none =>
      simp only [Stmt.code, Gen.emits_pure] at h
      obtain ⟨rfl, -⟩ := h
      rfl
    | some e =>
      simp only [Stmt.code, Gen.emits_bind, Gen.emits_pure] at h
      obtain ⟨computed, _, hc, rfl, -⟩ := h
      rw [reservations_append, Expr.reservations_of_emits hc]
      rfl
  | foreign line kind | incomplete line kind => simp [Stmt.code] at h

end Statements

theorem Param.reservations_spillCodes {target : Target} {params : List Param} {position : Nat} {code : Listing}
    (h : Param.spillCodes target position params = .ok code) : reservations code = [] := by
  induction params generalizing position code with
  | nil =>
    cases h
    rfl
  | cons param rest ih =>
    simp only [Param.spillCodes, bind_eq_ok_iff] at h
    obtain ⟨s, -, first, hf, others, ho, h⟩ := h
    cases h
    have hfirst : reservations first = [] := by
      unfold Symbol.spillCode at hf
      split at hf
      · exact Symbol.reservations_storeFrom hf
      · obtain ⟨stored, hs, hf⟩ := bind_eq_ok_iff.1 hf
        cases hf
        rw [reservations_append, Symbol.reservations_storeFrom hs]
        rfl
    rw [reservations_append, hfirst, ih ho]
    rfl

/-- Behind its prologue, the code of a function reserves nothing and does not depend on the option to align frames. -/
theorem Function.exists_inner_of_emits {align : Bool} {scope : Scope} {f : Function} {p q : Pool} {code : Listing}
    (h : (f.code align scope).Emits p code q) : ∃ inner, reservations inner = [] ∧
      code = f.prologue align scope.locals ++ inner ∧
      ∀ align', (f.code align' scope).Emits p (f.prologue align' scope.locals ++ inner) q := by
  simp only [Function.code, Gen.emits_bind, Gen.emits_lift, Gen.emits_pure] at h
  obtain ⟨spill, _, ⟨hs, rfl⟩, body, _, hb, rfl, rfl⟩ := h
  refine ⟨spill ++ body ++ if (f.body.getLast?.map Stmt.isReturn).getD false then [] else leaveCode, ?_, ?_, ?_⟩
  · have hending : reservations (if (f.body.getLast?.map Stmt.isReturn).getD false then [] else leaveCode) = [] := by
      split <;> rfl
    rw [reservations_append, reservations_append, Param.reservations_spillCodes hs,
      Stmt.reservations_of_codes (fun s _ => Stmt.reservations_of_emits) hb, hending]
    rfl
  · simp only [prologue, List.append_assoc]
  · intro align'
    simp only [Function.code, Gen.emits_bind, Gen.emits_lift, Gen.emits_pure]
    exact ⟨spill, _, ⟨hs, rfl⟩, body, _, hb, by simp only [prologue, List.append_assoc], rfl⟩

/-! ### Listings that differ in reservations -/

/-- Two listings that are the same, but for what is reserved for the frames of some functions: in the second it is
rounded up. -/
inductive Assembly.Apart (functions : List String) : Listing → Listing → Prop
  | nil : Apart functions [] []
  | line {a b : Listing} (l : Line) (h : Apart functions a b) : Apart functions (l :: a) (l :: b)
  | reserve {a b : Listing} {f : String} {n m : Int} (hf : f ∈ functions) (hm : RoundedUp n m)
      (h : Apart functions a b) :
      Apart functions (opening f ++ reserveLine n :: a) (opening f ++ reserveLine m :: b)

namespace Assembly.Apart

variable {functions : List String} {a b c d : Listing}

theorem refl (functions : List String) (a : Listing) : Apart functions a a := by
  induction a with
  | nil => exact .nil
  | cons l rest ih => exact .line l ih

theorem append (h : Apart functions a b) (h' : Apart functions c d) : Apart functions (a ++ c) (b ++ d) := by
  induction h with
  | nil => exact h'
  | line l _ ih => exact .line l ih
  | reserve hf hm _ ih => exact .reserve hf hm ih

theorem intercalate {as bs : List Listing} (h : List.Forall₂ (Apart functions) as bs) (sep : Listing) :
    Apart functions (sep.intercalate as) (sep.intercalate bs) := by
  induction h with
  | nil => exact refl functions _
  | @cons a b as bs hab hrest ih =>
    cases hrest with
    | nil => simpa [List.intercalate] using hab
    | cons =>
      rw [List.intercalate_cons_cons, List.intercalate_cons_cons]
      exact (hab.append (refl functions sep)).append ih

theorem length_eq (h : Apart functions a b) : a.length = b.length := by
  induction h with
  | nil => rfl
  | line l _ ih => rw [List.length_cons, List.length_cons, ih]
  | reserve _ _ _ ih => simp only [List.length_append, List.length_cons, ih]

/-- Lines that differ reserve the frame of a function. -/
theorem differ (h : Apart functions a b) {i : Nat} (hi : a[i]? ≠ b[i]?) : ∃ f ∈ functions, ∃ n m, RoundedUp n m ∧
    ReservesAt a i f n ∧ ReservesAt b i f m := by
  induction h generalizing i with
  | nil => exact absurd rfl hi
  | line l _ ih =>
    cases i with
    | zero => exact absurd rfl hi
    | succ i =>
      obtain ⟨f, hf, n, m, hm, ha, hb⟩ := ih (by simpa using hi)
      rw [Nat.add_comm i 1]
      exact ⟨f, hf, n, m, hm, ha.append_left [l], hb.append_left [l]⟩
  | @reserve a b f n m hf hm _ ih =>
    by_cases hfour : i = 4
    · subst hfour
      exact ⟨f, hf, n, m, hm, ⟨[], a, rfl, rfl⟩, ⟨[], b, rfl, rfl⟩⟩
    · by_cases hless : i < 4
      · -- the lines of the opening are the same
        rw [List.getElem?_append_left hless, List.getElem?_append_left hless] at hi
        exact absurd rfl hi
      · obtain ⟨j, rfl⟩ : ∃ j, i = 5 + j := ⟨i - 5, by omega⟩
        have hshift : ∀ k (x : Listing), (opening f ++ reserveLine k :: x)[5 + j]? = x[j]? := by
          intro k x
          rw [List.append_cons, List.getElem?_append_right (Nat.le_add_right 5 j)]
          exact congrArg (x[·]?) (Nat.add_sub_cancel_left 5 j)
        rw [hshift, hshift] at hi
        obtain ⟨f', hf', n', m', hm', ha, hb⟩ := ih hi
        refine ⟨f', hf', n', m', hm', ?_, ?_⟩
        · rw [List.append_cons]
          exact ha.append_left (opening f ++ [reserveLine n])
        · rw [List.append_cons]
          exact hb.append_left (opening f ++ [reserveLine m])

end Assembly.Apart

/-- A prologue reserves something exactly if the function has variables, whether frames are aligned or not. -/
theorem Function.prologue_eq (align : Bool) (locals : SymbolTable) (f : Function) : f.prologue align locals =
    opening f.name ++ if 0 < locals.frameSize then [reserveLine (reservation align locals.frameSize)] else [] := by
  simp only [prologue, reserveCode, reservation_pos_iff]
  split <;> rfl

theorem Function.apart_prologue {functions : List String} {f : Function} (hf : f.name ∈ functions)
    (locals : SymbolTable) (inner : Listing) :
    Apart functions (f.prologue false locals ++ inner) (f.prologue true locals ++ inner) := by
  rw [prologue_eq, prologue_eq]
  split
  · rename_i hn
    rw [List.append_assoc, List.append_assoc]
    exact .reserve hf (roundedUp_reservation hn.le) (.refl functions inner)
  · exact .refl functions _

/-! ### Programs -/

namespace Compilation

/-- The codes of functions, given what follows the prologue of each. -/
def framed (align : Bool) (cs : List CheckedFunction) (inners : List Listing) : List Listing :=
  List.zipWith (fun c inner => c.function.prologue align c.locals ++ inner) cs inners

/-- The codes of functions with aligned frames and with plain ones have the same lines behind their prologues. -/
theorem exists_framed {align : Bool} {globals : SymbolTable} {cs : List CheckedFunction} {p q : Pool}
    {listings : List Listing} (h : (codes align globals cs).Emits p listings q) :
    ∃ inners, listings = framed align cs inners ∧
      ∀ align', (codes align' globals cs).Emits p (framed align' cs inners) q := by
  induction cs generalizing p listings with
  | nil =>
    simp only [codes, Gen.emits_pure] at h
    obtain ⟨rfl, rfl⟩ := h
    exact ⟨[], rfl, fun align' => by simp [codes, framed]⟩
  | cons c rest ih =>
    simp only [codes, Gen.emits_bind, Gen.emits_pure] at h
    obtain ⟨code, r, hc, others, _, ho, rfl, rfl⟩ := h
    obtain ⟨inner, -, rfl, hcode⟩ := Function.exists_inner_of_emits hc
    obtain ⟨inners, rfl, hcodes⟩ := ih ho
    refine ⟨inner :: inners, rfl, fun align' => ?_⟩
    simp only [codes, Gen.emits_bind, Gen.emits_pure]
    exact ⟨_, r, hcode align', _, _, hcodes align', rfl, rfl⟩

theorem apart_framed {functions : List String} {cs : List CheckedFunction} (hf : ∀ c ∈ cs, c.function.name ∈ functions)
    (inners : List Listing) : List.Forall₂ (Apart functions) (framed false cs inners) (framed true cs inners) := by
  induction cs generalizing inners with
  | nil => exact .nil
  | cons c rest ih =>
    rw [List.forall_mem_cons] at hf
    cases inners with
    | nil => exact .nil
    | cons inner inners => exact .cons (Function.apart_prologue hf.1 c.locals inner) (ih hf.2 inners)

/-- The listings of an accepted program are apart in what they reserve. -/
theorem apart_generate {c : Compilation} {plain : Listing} {literals : List Literal}
    (h : c.generate false = .ok (plain, literals)) : ∃ aligned, c.generate true = .ok (aligned, literals) ∧
      Apart (c.functions.map (·.function.name)) plain aligned := by
  obtain ⟨listings, data, pool, hcodes, hdata, rfl, rfl⟩ := generate_cases h
  obtain ⟨inners, rfl, hall⟩ := exists_framed hcodes
  refine ⟨assembled (framed true c.functions inners) data, ?_, ?_⟩
  · have hsection : pool.dataCode = .ok (.dataSection :: data) := bind_eq_ok_iff.2 ⟨data, hdata, rfl⟩
    exact bind_eq_ok_iff.2 ⟨_, hall true, bind_eq_ok_iff.2 ⟨_, hsection, rfl⟩⟩
  · have hfunctions : ∀ cf ∈ c.functions, cf.function.name ∈ c.functions.map (·.function.name) :=
      fun cf hm => List.mem_map_of_mem hm
    exact .line _ ((Apart.intercalate (apart_framed hfunctions inners) _).append (.refl _ _))

end Compilation

/-! ### The reservation of a function -/

namespace Assembly

/-- The function that a line makes known outside. -/
def Line.global? : Line → Option String
  | .global function => some function
  | _ => none

/-- The functions that a listing makes known outside. -/
def globals (code : Listing) : List String := code.filterMap Line.global?

theorem globals_append (a b : Listing) : globals (a ++ b) = globals a ++ globals b := List.filterMap_append

theorem globals_marks (code : Listing) : globals (marks code) = globals code := by
  induction code with
  | nil => rfl
  | cons line rest ih =>
    cases line with
    | global f => exact congrArg (f :: ·) ih
    | _ => exact ih

theorem globals_labels (ls : List Label) : globals (ls.map .label) = [] := by
  simp [globals, Line.global?]

theorem DataLines.globals_eq {ls : List Literal} {lines : Listing} (h : DataLines ls lines) : globals lines = [] := by
  induction h with
  | nil => rfl
  | string h ih | float h ih | int h ih => exact ih

/-- A listing that makes no function known twice opens the code of each in one place. -/
theorem eq_of_opening {f : String} {before before' after after' : Listing}
    (hn : (globals (before ++ (opening f ++ after))).Nodup)
    (h : before ++ (opening f ++ after) = before' ++ (opening f ++ after')) : before = before' ∧ after = after' := by
  rw [globals_append, List.nodup_append] at hn
  have hrest : (f :: globals after).Nodup := hn.2.1
  have hbefore : Line.global f ∉ before := by
    intro hm
    exact hn.2.2 f (List.mem_filterMap.2 ⟨_, hm, rfl⟩) f (List.mem_cons_self ..) rfl
  have hafter : Line.global f ∉ (opening f).tail ++ after := by
    intro hm
    refine (List.nodup_cons.1 hrest).1 (List.mem_filterMap.2 ⟨Line.global f, ?_, rfl⟩)
    simpa [opening, instrs] using hm
  have heq := (List.append_cons_inj_of_notMem hbefore hafter).1 h
  exact ⟨heq.1, List.append_cancel_left heq.2.2⟩

end Assembly

theorem Compilation.globals_of_codes {align : Bool} {globals : SymbolTable} {cs : List CheckedFunction}
    {listings : List Listing}
    (h : List.Forall₂ (fun c code => ∃ q r, (c.function.code align ⟨c.locals, globals⟩).Emits q code r) cs listings) :
    listings.flatMap Assembly.globals = cs.map (·.function.name) := by
  induction h with
  | nil => rfl
  | @cons c code cs listings hcode _ ih =>
    obtain ⟨q, r, hcode⟩ := hcode
    have hmarks := (Function.linked_of_emits hcode).lines
    rw [List.flatMap_cons, ih, ← globals_marks, hmarks]
    exact congrArg (c.function.name :: · ++ _) (globals_labels _)

/-- The listing of an accepted program reserves for every function what its frame needs, and nothing if it needs
nothing. -/
theorem Compilation.reserves_iff {align : Bool} {p : Program} {c : Compilation} (ha : p.analyze.2 = .ok c)
    {listing : Listing} {literals : List Literal} (h : c.generate align = .ok (listing, literals))
    {cf : CheckedFunction} (hm : cf ∈ c.functions) (n : Int) :
    Reserves listing cf.function.name n ↔ 0 < cf.locals.frameSize ∧ n = reservation align cf.locals.frameSize := by
  obtain ⟨listings, data, pool, hcodes, hdata, rfl, rfl⟩ := generate_cases h
  have hglobals : (Assembly.globals (assembled listings data)).Nodup := by
    have hcollect := collect_intercalate (F := Assembly.globals) rfl globals_append rfl listings
    rw [Compilation.globals_of_codes (Compilation.emits_of_codes hcodes)] at hcollect
    have hlines := (Literal.dataLines_of_listing hdata).globals_eq
    have hall : Assembly.globals (assembled listings data) = c.functions.map (·.function.name) := by
      rw [assembled, globals_append, ← List.append_nil (c.functions.map _), ← hcollect, ← hlines]
      rfl
    rw [hall]
    exact Program.nodup_names_of_analyze ha
  obtain ⟨earlier, later, hcs⟩ := List.mem_iff_append.1 hm
  rw [hcs] at hcodes
  obtain ⟨first, code, others, r, r', -, hcode, rfl⟩ := Compilation.codes_append_cons hcodes
  obtain ⟨inner, hinner, rfl, -⟩ := Function.exists_inner_of_emits hcode
  -- what follows the prologue: the rest of the function, then at least one line that is blank
  obtain ⟨after, hlisting⟩ : ∃ after,
      assembled (first ++ (cf.function.prologue align cf.locals ++ inner) :: others) data =
      (Line.textSection :: first.flatMap (· ++ [Line.blank])) ++ (opening cf.function.name ++
        ((if 0 < cf.locals.frameSize then [reserveLine (reservation align cf.locals.frameSize)] else []) ++
          (inner ++ .blank :: after))) := by
    rw [assembled, intercalate_append_cons, Function.prologue_eq]
    cases others with
    | nil => exact ⟨.dataSection :: data, by simp⟩
    | cons next others => exact ⟨next ++ others.flatMap ([Line.blank] ++ ·) ++ .blank :: .dataSection :: data, by simp⟩
  rw [hlisting] at hglobals ⊢
  constructor
  · rintro ⟨i, before', after', heq, -⟩
    obtain ⟨-, hafter⟩ := eq_of_opening hglobals heq
    split at hafter
    · rename_i hpos
      refine ⟨hpos, ?_⟩
      simp only [List.singleton_append, List.cons.injEq, reserveLine, Line.instr.injEq, Instr.alu.injEq,
        Operand.imm.injEq] at hafter
      exact hafter.1.2.2.1.symm
    · -- a line that reserves would belong to the rest of the function
      cases inner with
      | nil => simp [reserveLine] at hafter
      | cons line inner =>
        obtain ⟨rfl, -⟩ : line = reserveLine n ∧ _ := by simpa using hafter
        cases hinner
  · rintro ⟨hpos, rfl⟩
    rw [if_pos hpos]
    exact ⟨_, _, _, rfl, rfl⟩

/-! ### The text -/

namespace Assembly

/-- The lines of a text, each without its end. -/
def textLines (text : String) : List (List Char) := text.toList.splitOn '\n'

/-- The text of the line that reserves so many bytes. -/
def reserveText (size : Int) : List Char := ("    subq $" ++ toString size ++ ", %rsp").toList

/-- Two lines of text that are the same, or of which the second reserves what the first does rounded up. -/
def TextApart (a b : List Char) : Prop := a = b ∨ ∃ n m, RoundedUp n m ∧ a = reserveText n ∧ b = reserveText m

theorem textLines_render_append (a b : Listing) :
    textLines (Listing.render (a ++ b)) =
      a.flatMap (fun line => textLines line.text) ++ textLines (Listing.render b) := by
  induction a with
  | nil => rfl
  | cons line rest ih =>
    have htext : (Listing.render (line :: rest ++ b)).toList =
        line.text.toList ++ '\n' :: (Listing.render (rest ++ b)).toList := by
      simp [Listing.render, String.toList_join]
    rw [textLines, htext, List.splitOn_append_cons_self, List.flatMap_cons, List.append_assoc, ← ih]
    rfl

theorem textLines_reserveLine (size : Int) : textLines (reserveLine size).text = [reserveText size] := by
  have hnat : ∀ n : Nat, '\n' ∉ (toString n).toList := by
    intro n hm
    rw [Nat.toString_eq_ofList_toDigits, String.toList_ofList] at hm
    exact absurd (Nat.isDigit_of_mem_toDigits (by decide) (by decide) hm) (by decide)
  have hsize : '\n' ∉ (toString size).toList := by
    cases size with
    | ofNat n => exact hnat n
    | negSucc n =>
      have htext : toString (Int.negSucc n) = "-" ++ toString (n + 1) := rfl
      simpa [htext] using hnat (n + 1)
  have htext : (reserveLine size).text.toList = reserveText size := by
    simp [reserveLine, reserveText, Line.text, Instr.text, Alu.name, Width.letter, Operand.text, Register.name]
  rw [textLines, htext]
  refine List.splitOn_eq_singleton ?_
  simpa [reserveText] using hsize

theorem forall₂_textApart_append (lines : List (List Char)) {a b : List (List Char)}
    (h : List.Forall₂ TextApart a b) : List.Forall₂ TextApart (lines ++ a) (lines ++ b) :=
  List.rel_append (List.forall₂_same.2 fun _ _ => .inl rfl) h

/-- The texts of the listings have the same lines, but for those that reserve. -/
theorem Apart.text {functions : List String} {a b : Listing} (h : Apart functions a b) :
    List.Forall₂ TextApart (textLines (Listing.render a)) (textLines (Listing.render b)) := by
  induction h with
  | nil => exact List.forall₂_same.2 fun _ _ => .inl rfl
  | @line a b l _ ih =>
    have hlines : ∀ x : Listing, textLines (Listing.render (l :: x)) =
        textLines l.text ++ textLines (Listing.render x) := by
      intro x
      rw [← List.singleton_append, textLines_render_append, List.flatMap_singleton]
    rw [hlines, hlines]
    exact forall₂_textApart_append _ ih
  | @reserve a b f n m _ hm _ ih =>
    have hlines : ∀ k (x : Listing), textLines (Listing.render (opening f ++ reserveLine k :: x)) =
        (opening f).flatMap (fun line => textLines line.text) ++ reserveText k :: textLines (Listing.render x) := by
      intro k x
      rw [textLines_render_append, ← List.singleton_append, textLines_render_append, List.flatMap_singleton,
        textLines_reserveLine, List.singleton_append]
    rw [hlines, hlines]
    exact forall₂_textApart_append _ (.cons (.inr ⟨n, m, hm, rfl, rfl⟩) ih)

end Assembly

/-- How the listing of a program with aligned frames differs from the plain one. -/
structure Compilation.DiffersInReservations (c : Compilation) (plain aligned : Listing) : Prop where
  length : plain.length = aligned.length
  differ : ∀ i, plain[i]? ≠ aligned[i]? → ∃ cf ∈ c.functions, ∃ n m, RoundedUp n m ∧
    ReservesAt plain i cf.function.name n ∧ ReservesAt aligned i cf.function.name m
  amount : ∀ cf ∈ c.functions, ∀ n, Reserves plain cf.function.name n ↔ 0 < n ∧ n = cf.locals.frameSize
  both : ∀ cf ∈ c.functions,
    (∃ n, Reserves plain cf.function.name n) ↔ ∃ m, Reserves aligned cf.function.name m
  rounded : ∀ cf ∈ c.functions, ∀ n m, Reserves plain cf.function.name n → Reserves aligned cf.function.name m →
    RoundedUp n m
  text : List.Forall₂ TextApart (textLines (Listing.render plain)) (textLines (Listing.render aligned))

theorem Program.compile_of_generate {p : Program} {c : Compilation} (hanalyze : p.analyze.2 = .ok c) {align : Bool}
    {listing : Listing} {literals : List Literal} (hgen : c.generate align = .ok (listing, literals)) :
    (p.compile align).2 = .ok (Listing.render listing) := by
  rcases hp : p.analyze with ⟨events, result⟩
  obtain rfl : result = .ok c := by simpa [hp] using hanalyze
  simp only [Program.compile, hp, hgen]

/-- Aligning the frames of an accepted program changes what its functions reserve, and nothing else. -/
theorem Compilation.aligned_differs_in_reservations {text : List Char} {p : Program} {c : Compilation}
    (hload : Program.load text = .ok p) (hanalyze : p.analyze.2 = .ok c) :
    ∃ plain aligned literals, c.generate false = .ok (plain, literals) ∧ c.generate true = .ok (aligned, literals) ∧
      (p.compile false).2 = .ok (Listing.render plain) ∧ (p.compile true).2 = .ok (Listing.render aligned) ∧
      c.DiffersInReservations plain aligned := by
  obtain ⟨⟨plain, literals⟩, hplain⟩ :=
    Compilation.generate_eq_ok (Program.wellFormed_of_load hload) hanalyze false
  obtain ⟨aligned, haligned, hapart⟩ := Compilation.apart_generate hplain
  refine ⟨plain, aligned, literals, hplain, haligned, Program.compile_of_generate hanalyze hplain,
    Program.compile_of_generate hanalyze haligned, ?_⟩
  have hreserves : ∀ cf ∈ c.functions, ∀ n, _ := fun _ hm => Compilation.reserves_iff hanalyze hplain hm
  have hreserves' : ∀ cf ∈ c.functions, ∀ n, _ := fun _ hm => Compilation.reserves_iff hanalyze haligned hm
  constructor
  · exact hapart.length_eq
  · intro i hi
    obtain ⟨f, hf, n, m, hm, ha, hb⟩ := hapart.differ hi
    obtain ⟨cf, hcf, rfl⟩ := List.mem_map.1 hf
    exact ⟨cf, hcf, n, m, hm, ha, hb⟩
  · intro cf hm n
    have hplain : reservation false cf.locals.frameSize = cf.locals.frameSize := rfl
    rw [hreserves cf hm, hplain, and_congr_left_iff]
    rintro rfl
    rfl
  · intro cf hm
    simp only [hreserves cf hm, hreserves' cf hm, exists_and_left, exists_eq, and_true]
  · intro cf hm n m hn hm'
    obtain ⟨hpos, rfl⟩ := (hreserves cf hm n).1 hn
    obtain ⟨-, rfl⟩ := (hreserves' cf hm m).1 hm'
    exact roundedUp_reservation hpos.le
  · exact hapart.text

/-- A function that reserves 13 bytes, one that reserves nothing, and one whose 16 bytes need no rounding. -/
def unevenFrames : List Char :=
  "(program
    (func f real [(param real a) (param inteiro b)] [(decl logico c) (return (binary \"-\" a b))])
    (func g [] [(print \"g\")])
    (func main [] [(decl real x y) (if verdadeiro [(assign x (call f [2.5 1])) (call g [])])]))".toList

theorem unevenFrames_rounded : ∃ p c plain aligned literals, Program.load unevenFrames = .ok p ∧ p.analyze.2 = .ok c ∧
    c.generate false = .ok (plain, literals) ∧ c.generate true = .ok (aligned, literals) ∧
    reservations plain = [13, 16] ∧ reservations aligned = [16, 16] ∧
    (p.compile false).2 = .ok (Listing.render plain) ∧ (p.compile true).2 = .ok (Listing.render aligned) ∧
    c.DiffersInReservations plain aligned := by
  obtain ⟨p, hp, hreserved⟩ : ∃ p, Program.load unevenFrames = .ok p ∧ p.analyze.2.toOption.map
      (fun c => ((c.generate false).toOption.map fun out => reservations out.1,
        (c.generate true).toOption.map fun out => reservations out.1)) = some (some [13, 16], some [16, 16]) := by
    apply exists_of_literal
    decide +kernel
  obtain ⟨c, hc, hreserved⟩ := map_toOption_eq_some_iff.1 hreserved
  obtain ⟨plain, aligned, literals, hplain, haligned, hcompile, hcompile', h⟩ :=
    Compilation.aligned_differs_in_reservations hp hc
  simp only [hplain, haligned, Except.toOption, Option.map_some, Prod.mk.injEq, Option.some.injEq] at hreserved
  exact ⟨p, c, plain, aligned, literals, hp, hc, hplain, haligned, hreserved.1, hreserved.2, hcompile, hcompile', h⟩

end Arvore
