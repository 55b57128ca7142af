import Mathlib
import Arvore.Proofs.Code.Listing
import Arvore.Proofs.Code.Total

/-!
# The stack is balanced

The code of an expression takes off the stack what it has pushed, whatever lies there already, and a call takes off its
arguments with the copies it made of them. A statement starts with an empty stack and ends with one. So behind the
prologue of a function the stack never holds less than nothing, and it is empty wherever control can come from or go
to another line (`Compilation.stackDiscipline`).
-/

namespace Arvore

open Assembly

/-! ### Levels of the stack -/

namespace Assembly

/-- The number of bytes that a line adds to the stack. -/
def Line.pushed : Line → Int
  | .instr (.push _) => 8
  | .instr (.pop _) => -8
  | .instr (.alu .add .quad (.imm k) .rsp) => -k
  | _ => 0

/-- The number of bytes that some lines add to the stack. -/
def pushed (code : Listing) : Int := (code.map Line.pushed).sum

/-- Lines at which control can come from another line or go to one. -/
def Line.isCrossing : Line → Bool
  | .label _ | .instr (.jump _) | .instr (.jumpEqual _) | .instr .leave => true
  | _ => false

/-- With `h` bytes on the stack the lines are gone through with never less than nothing on it, and with nothing on it at
every crossing. They leave `h'` bytes. -/
inductive Levels : Int → Listing → Int → Prop
  | nil {h : Int} (hh : 0 ≤ h) : Levels h [] h
  | cons {h h' : Int} {line : Line} {code : Listing} (hh : 0 ≤ h) (hc : line.isCrossing = true → h = 0)
      (hr : Levels (h + line.pushed) code h') : Levels h (line :: code) h'

@[simp] theorem pushed_nil : pushed [] = 0 := rfl

@[simp] theorem pushed_cons (line : Line) (code : Listing) : pushed (line :: code) = line.pushed + pushed code := rfl

namespace Levels

variable {h k m : Int} {a b : Listing}

theorem nonneg (hl : Levels h a k) : 0 ≤ h := by
  cases hl with
  | nil hh | cons hh => exact hh

/-- The level at the end is the one at the start with what was pushed. -/
theorem eq_add_pushed (hl : Levels h a k) : k = h + pushed a := by
  induction hl with
  | nil => simp
  | cons _ _ _ ih => rw [ih, pushed_cons, Int.add_assoc]

theorem append (hl : Levels h a k) (hl' : Levels k b m) : Levels h (a ++ b) m := by
  induction hl with
  | nil => exact hl'
  | cons hh hc _ ih => exact .cons hh hc (ih hl')

theorem single {line : Line} (hh : 0 ≤ h) (hc : line.isCrossing = false) (hk : h + line.pushed = k) (h0 : 0 ≤ k) :
    Levels h [line] k := by
  subst hk
  exact .cons hh (fun h => by simp [hc] at h) (.nil h0)

/-- Levels of a listing are levels of its parts. -/
theorem split (hl : Levels h (a ++ b) m) : Levels h a (h + pushed a) ∧ Levels (h + pushed a) b m := by
  induction a generalizing h with
  | nil => simpa using ⟨.nil hl.nonneg, hl⟩
  | cons line rest ih =>
    cases hl with
    | cons hh hc hr =>
      obtain ⟨hrest, hb⟩ := ih hr
      rw [pushed_cons, ← Int.add_assoc]
      exact ⟨.cons hh hc hrest, hb⟩

end Levels

/-! ### Code that leaves the stack as it was -/

/-- The lines leave the stack as it was, whatever lies on it. -/
def Balanced (code : Listing) : Prop := ∀ h, 0 ≤ h → Levels h code h

/-- A line that does not touch the stack, and from which control goes to the next. -/
def Line.isIdle (line : Line) : Bool := line.pushed == 0 && !line.isCrossing

theorem Balanced.of_idle {code : Listing} (hi : code.all Line.isIdle = true) : Balanced code := by
  intro h hh
  induction code with
  | nil => exact .nil hh
  | cons line rest ih =>
    simp only [List.all_cons, Line.isIdle, Bool.and_eq_true, beq_iff_eq, Bool.not_eq_true'] at hi
    refine .cons hh (fun hc => by simp [hi.1.2] at hc) ?_
    rw [hi.1.1, Int.add_zero]
    exact ih hi.2

theorem Balanced.append {a b : Listing} (ha : Balanced a) (hb : Balanced b) : Balanced (a ++ b) :=
  fun h hh => (ha h hh).append (hb h hh)

theorem Balanced.levels {code : Listing} (hb : Balanced code) : Levels 0 code 0 := hb 0 le_rfl

/-- Pushing some operands. -/
theorem levels_pushes {α : Type} (f : α → Operand) (xs : List α) {h : Int} (hh : 0 ≤ h) :
    Levels h (instrs (xs.map fun x => .push (f x))) (h + 8 * xs.length) := by
  induction xs generalizing h with
  | nil => simpa [instrs] using Levels.nil hh
  | cons x rest ih =>
    refine .cons hh (by simp [Line.isCrossing]) ?_
    have hnext := ih (h := h + 8) (by omega)
    rw [List.length_cons, Nat.cast_add, Nat.cast_one]
    rwa [show h + 8 * ((rest.length : Int) + 1) = h + 8 + 8 * rest.length by omega]

end Assembly

/-! ### Expressions -/

theorem balanced_operandsCode {left right : Listing} (hl : Balanced left) (hr : Balanced right) :
    Balanced (operandsCode left right) := by
  intro h hh
  have h8 : 0 ≤ h + 8 := by omega
  have hpush : Levels h (instrs [.push (.reg .rax)]) (h + 8) := .single hh rfl rfl h8
  have hmove : Balanced [.instr (.mov .quad (.reg .rax) (.reg .rcx))] := .of_idle rfl
  have hpop : Levels (h + 8) [.instr (.pop .rax)] h := .single h8 rfl (Int.add_neg_cancel_right h 8) hh
  exact (((hl h hh).append hpush).append (hr (h + 8) h8)).append ((hmove _ h8).append hpop)

theorem balanced_widenCode (type : Ty) : Balanced (widenCode type) := by
  unfold widenCode
  split
  · exact .of_idle rfl
  · exact .of_idle rfl

theorem balanced_realOperands {left right : Listing} (hl : Balanced left) (hr : Balanced right) (s t : Ty) :
    Balanced (operandsCode (left ++ widenCode s) (right ++ widenCode t) ++ realOperandsCode) := by
  refine (balanced_operandsCode ?_ ?_).append (.of_idle rfl)
  · exact hl.append (balanced_widenCode s)
  · exact hr.append (balanced_widenCode t)

/-- A call takes its arguments off the stack, and the copies that it made of those from the seventh on. -/
theorem levels_callCode (function : String) (n : Nat) {h : Int} (hh : 0 ≤ h) :
    Levels (h + 8 * n) (callCode function n) h := by
  set extra := n - argumentRegisters.length with hextra
  have hrepush : Levels (h + 8 * n) (instrs (repushCode n)) (h + 8 * n + 8 * extra) := by
    have hpushes := levels_pushes (fun i : Nat => .mem .rsp (16 * (i : Int))) (List.range extra)
      (show 0 ≤ h + 8 * n by omega)
    rwa [List.length_range] at hpushes
  have hcall : Balanced (instrs (registerCode n extra ++ [Instr.call function])) :=
    .of_idle (by simp [registerCode, instrs, Line.isIdle, Line.pushed, Line.isCrossing])
  have hclean : Levels (h + 8 * n + 8 * extra)
      (instrs (if n = 0 then [] else [.alu .add .quad (.imm (8 * (n + extra))) .rsp])) h := by
    split
    · have hzero : h + 8 * (n : Int) + 8 * extra = h := by omega
      rw [hzero]
      exact .nil hh
    · refine .single (by omega) rfl ?_ hh
      show h + 8 * (n : Int) + 8 * extra + -(8 * ((n : Int) + extra)) = h
      omega
  have hcode := hrepush.append ((hcall _ (by omega)).append hclean)
  simpa only [callCode, instrs, List.map_append, List.append_assoc] using hcode

section Expressions

variable {target : Target} {p q : Pool} {code : Listing}

theorem Symbol.balanced_load {s : Symbol} (h : s.load = .ok code) : Balanced code := by
  obtain ⟨w, -, h⟩ := bind_eq_ok_iff.1 h
  cases w <;> cases h <;> exact .of_idle rfl

theorem Symbol.balanced_storeFrom {s : Symbol} {src : Operand} (h : s.storeFrom src = .ok code) : Balanced code := by
  obtain ⟨w, -, h⟩ := bind_eq_ok_iff.1 h
  cases h
  exact .of_idle rfl

theorem ArithmeticOp.balanced_integerCode {op : ArithmeticOp} {is : List Instr} (h : op.integerCode = .ok is) :
    Balanced (instrs (is ++ [Instr.movSigned (.reg .rax) .rax])) := by
  cases op <;> cases h <;> exact .of_idle rfl

theorem LogicalOp.balanced_code {op : LogicalOp} {is : List Instr} (h : op.code = .ok is) : Balanced (instrs is) := by
  cases op <;> cases h <;> exact .of_idle rfl

theorem RelationalOp.balanced_realCode {op : RelationalOp} {is : List Instr} (h : op.realCode = .ok is) :
    Balanced (instrs (is ++ [Instr.movZero (.reg .rax) .rax])) := by
  cases op <;> cases h <;> exact .of_idle rfl

theorem UnaryOp.balanced_code {type : Except Fault Ty} {op : UnaryOp} {is : List Instr} (h : op.code type = .ok is) :
    Balanced (instrs is) := by
  cases op with
  | neg =>
    obtain ⟨t, -, h⟩ := bind_eq_ok_iff.1 h
    split at h <;> cases h <;> exact .of_idle rfl
  | not =>
    cases h
    exact .of_idle rfl
  | other symbol => cases h

theorem Numeral.balanced_of_emits {text : String} (h : (Numeral.code text).Emits p code q) : Balanced code := by
  unfold Numeral.code at h
  split at h
  · simp only [Gen.emits_bind, Gen.emits_lift, Gen.emits_pure] at h
    obtain ⟨_, _, -, l, _, -, rfl, -⟩ := h
    exact .of_idle rfl
  · split at h
    · obtain ⟨rfl, -⟩ := Gen.emits_pure.1 h
      exact .of_idle rfl
    · split at h
      · simp only [Gen.emits_bind, Gen.emits_pure] at h
        obtain ⟨l, _, -, rfl, -⟩ := h
        exact .of_idle rfl
      · exact absurd h Gen.not_emits_throw

namespace Expr

/-- Arguments stay on the stack. -/
theorem levels_of_argsCode {args : List Expr}
    (ih : ∀ e ∈ args, ∀ {p q code}, (e.code target).Emits p code q → Balanced code)
    (h : (argsCode target args).Emits p code q) {k : Int} (hk : 0 ≤ k) : Levels k code (k + 8 * args.length) := by
  induction args generalizing p q code k with
  | nil =>
    simp only [argsCode, Gen.emits_pure] at h
    obtain ⟨rfl, -⟩ := h
    simpa using Levels.nil hk
  | cons e rest ihrest =>
    simp only [List.forall_mem_cons] at ih
    simp only [argsCode, Gen.emits_bind, Gen.emits_pure] at h
    obtain ⟨first, _, hf, others, _, ho, rfl, -⟩ := h
    have h8 : 0 ≤ k + 8 := by omega
    have hpush : Levels k (instrs [.push (.reg .rax)]) (k + 8) := .single hk rfl rfl h8
    have hothers := ihrest ih.2 ho h8
    have hlength : k + 8 * ((e :: rest).length : Int) = k + 8 + 8 * rest.length := by
      rw [List.length_cons]
      omega
    rw [hlength]
    exact ((ih.1 hf k hk).append hpush).append hothers

/-- The code of an expression leaves the stack as it was. -/
theorem balanced_of_emits {e : Expr} (h : (e.code target).Emits p code q) : Balanced code := by
  induction e generalizing p q code with
  | number line text => exact Numeral.balanced_of_emits (by simpa only [Expr.code] using h)
  | string line text =>
    simp only [Expr.code, Gen.emits_bind, Gen.emits_pure] at h
    obtain ⟨l, _, -, rfl, -⟩ := h
    exact .of_idle rfl
  | boolean line word =>
    simp only [Expr.code, Gen.emits_pure] at h
    obtain ⟨rfl, -⟩ := h
    exact .of_idle rfl
  | var line name =>
    simp only [Expr.code, Gen.emits_bind, Gen.emits_lift] at h
    obtain ⟨s, _, -, hl, -⟩ := h
    exact Symbol.balanced_load hl
  | arithmetic line op a b iha ihb =>
    simp only [Expr.code, Gen.emits_bind, Gen.emits_lift] at h
    obtain ⟨type, _, -, left, _, hl, right, _, hr, h⟩ := h
    split at h
    · simp only [Gen.emits_bind, Gen.emits_lift, Gen.emits_pure] at h
      obtain ⟨s, _, -, t, _, -, o, _, -, rfl, -⟩ := h
      exact (balanced_realOperands (iha hl) (ihb hr) s t).append (.of_idle rfl)
    · simp only [Gen.emits_bind, Gen.emits_lift, Gen.emits_pure] at h
      obtain ⟨_, _, ⟨hop, -⟩, rfl, -⟩ := h
      exact (balanced_operandsCode (iha hl) (ihb hr)).append (ArithmeticOp.balanced_integerCode hop)
  | logical line op a b iha ihb =>
    simp only [Expr.code, Gen.emits_bind, Gen.emits_lift, Gen.emits_pure] at h
    obtain ⟨left, _, hl, right, _, hr, _, _, ⟨hop, -⟩, rfl, -⟩ := h
    exact (balanced_operandsCode (iha hl) (ihb hr)).append (LogicalOp.balanced_code hop)
  | relational line op a b iha ihb =>
    simp only [Expr.code, Gen.emits_bind, Gen.emits_lift] at h
    obtain ⟨s, _, -, t, _, -, left, _, hl, right, _, hr, h⟩ := h
    split at h
    · simp only [Gen.emits_bind, Gen.emits_lift, Gen.emits_pure] at h
      obtain ⟨_, _, ⟨hop, -⟩, rfl, -⟩ := h
      exact (balanced_realOperands (iha hl) (ihb hr) s t).append (RelationalOp.balanced_realCode hop)
    · simp only [Gen.emits_bind, Gen.emits_lift, Gen.emits_pure] at h
      obtain ⟨_, _, -, rfl, -⟩ := h
      exact (balanced_operandsCode (iha hl) (ihb hr)).append (.of_idle rfl)
  | unary line op e ih =>
    simp only [Expr.code, Gen.emits_bind, Gen.emits_lift, Gen.emits_pure] at h
    obtain ⟨operand, _, he, _, _, ⟨hop, -⟩, rfl, -⟩ := h
    exact (ih he).append (UnaryOp.balanced_code hop)
  | call line callee args ih =>
    simp only [Expr.code, Gen.emits_bind, Gen.emits_pure] at h
    obtain ⟨stacked, _, hs, rfl, -⟩ := h
    exact fun k hk => (levels_of_argsCode ih hs hk).append (levels_callCode callee.name args.length hk)
  | foreign line kind | absent => simp [Expr.code] at h

end Expr

theorem Symbol.balanced_of_assignCode {s : Symbol} {e : Expr} (h : (s.assignCode target e).Emits p code q) :
    Balanced code := by
  unfold Symbol.assignCode at h
  split at h
  · exact Symbol.balanced_storeFrom (Gen.emits_lift.1 h).1
  · simp only [Gen.emits_bind, Gen.emits_lift, Gen.emits_pure] at h
    obtain ⟨computed, _, hc, stored, _, ⟨hs, -⟩, rfl, -⟩ := h
    exact (Expr.balanced_of_emits hc).append (Symbol.balanced_storeFrom hs)

theorem DeclItem.balanced_of_emits {items : List DeclItem} (h : (DeclItem.codes target items).Emits p code q) :
    Balanced code := by
  induction items generalizing p q code with
  | nil =>
    obtain ⟨rfl, -⟩ := Gen.emits_pure.1 h
    exact .of_idle rfl
  | cons item rest ih =>
    simp only [DeclItem.codes, Gen.emits_bind, Gen.emits_pure] at h
    obtain ⟨first, _, hf, others, _, ho, rfl, -⟩ := h
    have hfirst : Balanced first := by
      unfold DeclItem.code at hf
      split at hf
      · obtain ⟨rfl, -⟩ := Gen.emits_pure.1 hf
        exact .of_idle rfl
      · simp only [Gen.emits_bind, Gen.emits_lift] at hf
        obtain ⟨s, _, -, hf⟩ := hf
        exact Symbol.balanced_of_assignCode hf
    exact hfirst.append (ih ho)

theorem Expr.balanced_of_printCode {e : Expr} (h : (e.printCode target).Emits p code q) : Balanced code := by
  unfold Expr.printCode at h
  split at h
  · simp only [Gen.emits_bind, Gen.emits_pure] at h
    obtain ⟨l, _, -, rfl, -⟩ := h
    exact .of_idle rfl
  · simp only [Gen.emits_bind, Gen.emits_pure] at h
    obtain ⟨computed, _, hc, rfl, -⟩ := h
    exact (Expr.balanced_of_emits hc).append (.of_idle rfl)

end Expressions

/-! ### Statements -/

/-- A crossing that is met with nothing on the stack. -/
theorem levels_crossing (line : Line) (h : line.pushed = 0) : Levels 0 [line] 0 :=
  .cons le_rfl (fun _ => rfl) (by rw [h]; exact .nil le_rfl)

theorem levels_testCode {cond : Listing} (h : Balanced cond) (l : Label) : Levels 0 (testCode cond l) 0 := by
  have hcompare : Balanced [.instr (.alu .cmp .quad (.imm 0) .rax)] := .of_idle rfl
  exact h.levels.append (hcompare.levels.append (levels_crossing _ rfl))

theorem levels_leaveCode : Levels 0 leaveCode 0 := by
  have hret : Balanced [.instr .ret] := .of_idle rfl
  exact (levels_crossing (.instr .leave) rfl).append hret.levels

section Statements

variable {target : Target} {p q : Pool} {code : Listing}

theorem Stmt.levels_of_codes {body : List Stmt}
    (ih : ∀ s ∈ body, ∀ {p q code}, (s.code target).Emits p code q → Levels 0 code 0)
    (h : (Stmt.codes target body).Emits p code q) : Levels 0 code 0 := by
  induction body generalizing p q code with
  | nil =>
    simp only [Stmt.codes, Gen.emits_pure] at h
    obtain ⟨rfl, -⟩ := h
    exact .nil le_rfl
  | cons s rest ihrest =>
    simp only [List.forall_mem_cons] at ih
    simp only [Stmt.codes, Gen.emits_bind, Gen.emits_pure] at h
    obtain ⟨first, _, hf, others, _, ho, rfl, -⟩ := h
    exact (ih.1 hf).append (ihrest ih.2 ho)

/-- The code of a statement starts and ends with nothing on the stack. -/
theorem Stmt.levels_of_emits {s : Stmt} (h : (s.code target).Emits p code q) : Levels 0 code 0 := by
  induction s generalizing p q code with
  | declare line type items => exact (DeclItem.balanced_of_emits (by simpa only [Stmt.code] using h)).levels
  | assign line x e =>
    simp only [Stmt.code, Gen.emits_bind, Gen.emits_lift] at h
    obtain ⟨s, _, -, h⟩ := h
    exact (Symbol.balanced_of_assignCode h).levels
  | increment line op x =>
    simp only [Stmt.code, Gen.emits_bind, Gen.emits_lift, Gen.emits_pure] at h
    obtain ⟨s, _, -, loaded, _, ⟨hl, -⟩, i, _, ⟨hi, -⟩, stored, _, ⟨hs, -⟩, rfl, -⟩ := h
    have hstep : Balanced (instrs [i]) := by
      cases op <;> cases hi <;> exact .of_idle rfl
    exact (((Symbol.balanced_load hl).append hstep).append (Symbol.balanced_storeFrom hs)).levels
  | call line callee args => exact (Expr.balanced_of_emits (by simpa only [Stmt.code] using h)).levels
  | ifThen line c body ih =>
    simp only [Stmt.code, Gen.emits_bind, Gen.emits_pure] at h
    obtain ⟨done, _, -, cond, _, hcond, inner, _, hinner, rfl, -⟩ := h
    have htest := levels_testCode (Expr.balanced_of_emits hcond) done
    exact (htest.append (levels_of_codes ih hinner)).append (levels_crossing _ rfl)
  | ifElse line c body other ihb iho =>
    simp only [Stmt.code, Gen.emits_bind, Gen.emits_pure] at h
    obtain ⟨otherwise, _, -, done, _, -, cond, _, hcond, first, _, hfirst, second, _, hsecond, rfl, -⟩ := h
    have htest := levels_testCode (Expr.balanced_of_emits hcond) otherwise
    have hbody := (htest.append (levels_of_codes ihb hfirst)).append (levels_crossing (.instr (.jump done)) rfl)
    exact ((hbody.append (levels_crossing _ rfl)).append (levels_of_codes iho hsecond)).append (levels_crossing _ rfl)
  | whileDo line c body ih =>
    simp only [Stmt.code, Gen.emits_bind, Gen.emits_pure] at h
    obtain ⟨top, _, -, done, _, -, cond, _, hcond, inner, _, hinner, rfl, -⟩ := h
    have htest := (levels_crossing (.label top) rfl).append (levels_testCode (Expr.balanced_of_emits hcond) done)
    have hbody := (htest.append (levels_of_codes ih hinner)).append (levels_crossing (.instr (.jump top)) rfl)
    exact hbody.append (levels_crossing _ rfl)
  | forDo line i c s body ihi ihs ih =>
    simp only [Stmt.code, Gen.emits_bind, Gen.emits_pure] at h
    obtain ⟨top, _, -, done, _, -, init, _, hinit, cond, _, hcond, inner, _, hinner, step, _, hstep, rfl, -⟩ := h
    have hstart := (ihi hinit).append (levels_crossing (.label top) rfl)
    have htest := hstart.append (levels_testCode (Expr.balanced_of_emits hcond) done)
    have hbody := (htest.append (levels_of_codes ih hinner)).append (ihs hstep)
    exact (hbody.append (levels_crossing (.instr (.jump top)) rfl)).append (levels_crossing _ rfl)
  | read line x =>
    simp only [Stmt.code, Gen.emits_bind, Gen.emits_lift, Gen.emits_pure] at h
    obtain ⟨s, _, -, rfl, -⟩ := h
    exact (Balanced.of_idle rfl).levels
  | print line e => exact (Expr.balanced_of_printCode (by simpa only [Stmt.code] using h)).levels
  | ret line value =>
    cases value with
    | none =>
      simp only [Stmt.code, Gen.emits_pure] at h
      obtain ⟨rfl, -⟩ := h
      exact levels_leaveCode
    | some e =>
      simp only [Stmt.code, Gen.emits_bind, Gen.emits_pure] at h
      obtain ⟨computed, _, hc, rfl, -⟩ := h
      exact (Expr.balanced_of_emits hc).levels.append levels_leaveCode
  | foreign line kind | incomplete line kind => simp [Stmt.code] at h

end Statements

/-! ### Functions -/

theorem Symbol.balanced_spillCode {s : Symbol} {position : Nat} {code : Listing} (h : s.spillCode position = .ok code) :
    Balanced code := by
  unfold Symbol.spillCode at h
  split at h
  · exact Symbol.balanced_storeFrom h
  · obtain ⟨stored, hs, h⟩ := bind_eq_ok_iff.1 h
    cases h
    exact (Balanced.of_idle rfl).append (Symbol.balanced_storeFrom hs)

theorem Param.balanced_spillCodes {target : Target} {params : List Param} {position : Nat} {code : Listing}
    (h : Param.spillCodes target position params = .ok code) : Balanced code := by
  induction params generalizing position code with
  | nil =>
    cases h
    exact .of_idle rfl
  | cons p rest ih =>
    simp only [Param.spillCodes, bind_eq_ok_iff] at h
    obtain ⟨s, -, first, hf, others, ho, h⟩ := h
    cases h
    exact (Symbol.balanced_spillCode hf).append (ih ho)

/-- The lines of a function that make its frame. -/
def Function.prologue (align : Bool) (locals : SymbolTable) (f : Function) : Listing :=
  [.global f.name, .entry f.name] ++ instrs [.push (.reg .rbp), .mov .quad (.reg .rsp) (.reg .rbp)] ++
    reserveCode (reservation align locals.frameSize)

theorem Function.exists_spill_of_headCode {align : Bool} {scope : Scope} {f : Function} {head : Listing}
    (h : f.headCode align scope = .ok head) :
    ∃ spill, Param.spillCodes ⟨f.name, scope⟩ 0 f.params = .ok spill ∧
      head = f.prologue align scope.locals ++ spill := by
  obtain ⟨spill, hs, h⟩ := bind_eq_ok_iff.1 h
  cases h
  exact ⟨spill, hs, by simp only [prologue, List.append_assoc]⟩

theorem Function.levels_of_bodyCode {scope : Scope} {f : Function} {p q : Pool} {code : Listing}
    (h : (f.bodyCode scope).Emits p code q) : Levels 0 code 0 := by
  simp only [bodyCode, Gen.emits_bind, Gen.emits_pure] at h
  obtain ⟨body, _, hb, rfl, -⟩ := h
  refine (Stmt.levels_of_codes (fun s _ => Stmt.levels_of_emits) hb).append ?_
  split
  · exact .nil le_rfl
  · exact levels_leaveCode

/-- The code of a block that ends with a return ends by leaving the function. -/
theorem Stmt.exists_leave_of_codes {target : Target} {body : List Stmt} {p q : Pool} {code : Listing}
    (hr : (body.getLast?.map Stmt.isReturn).getD false = true) (h : (Stmt.codes target body).Emits p code q) :
    ∃ first, code = first ++ leaveCode := by
  induction body generalizing p code with
  | nil => simp at hr
  | cons s rest ih =>
    simp only [Stmt.codes, Gen.emits_bind, Gen.emits_pure] at h
    obtain ⟨first, _, hf, others, _, ho, rfl, rfl⟩ := h
    cases rest with
    | nil =>
      simp only [Stmt.codes, Gen.emits_pure] at ho
      obtain ⟨rfl, -⟩ := ho
      obtain ⟨line, value, rfl⟩ : ∃ line value, s = .ret line value := by
        cases s with
        | ret line value => exact ⟨line, value, rfl⟩
        | _ => simp [isReturn] at hr
      cases value with
      | none =>
        simp only [Stmt.code, Gen.emits_pure] at hf
        exact ⟨[], by simp [hf.1]⟩
      | some e =>
        simp only [Stmt.code, Gen.emits_bind, Gen.emits_pure] at hf
        obtain ⟨computed, _, -, rfl, -⟩ := hf
        exact ⟨computed, by rw [List.append_nil]⟩
    | cons s' rest =>
      obtain ⟨inner, rfl⟩ := ih (by simpa using hr) ho
      exact ⟨first ++ inner, by rw [List.append_assoc]⟩

/-- The code of a function ends by leaving it. -/
theorem Function.exists_leave_of_bodyCode {scope : Scope} {f : Function} {p q : Pool} {code : Listing}
    (h : (f.bodyCode scope).Emits p code q) : ∃ first, code = first ++ leaveCode := by
  simp only [bodyCode, Gen.emits_bind, Gen.emits_pure] at h
  obtain ⟨body, _, hb, rfl, -⟩ := h
  split
  · rename_i hr
    obtain ⟨first, rfl⟩ := Stmt.exists_leave_of_codes hr hb
    exact ⟨first, by rw [List.append_nil]⟩
  · exact ⟨body, rfl⟩

/-- How the code of a function behind its prologue, and the code of its parts, treats the stack. -/
structure StackDiscipline (target : Target) (code : Listing) : Prop where
  nonneg : ∀ first later, code = first ++ later → 0 ≤ pushed first
  crossing : ∀ first (line : Line) later, code = first ++ line :: later → line.isCrossing = true → pushed first = 0
  ends : ∃ first, code = first ++ instrs [.leave, .ret]
  expr : ∀ (e : Expr) p part q, (e.code target).Emits p part q → pushed part = 0
  stmt : ∀ (s : Stmt) p part q, (s.code target).Emits p part q → pushed part = 0

/-- The code of every function of an accepted program keeps to the stack discipline. -/
theorem Compilation.stackDiscipline {text : List Char} {p : Program} {c : Compilation}
    (hload : Program.load text = .ok p) (hanalyze : p.analyze.2 = .ok c) {cf : CheckedFunction}
    (hm : cf ∈ c.functions) (align : Bool) :
    ∃ listing literals before code after q r, c.generate align = .ok (listing, literals) ∧
      listing = before ++ (cf.function.prologue align cf.locals ++ code) ++ after ∧
      (cf.function.code align ⟨cf.locals, c.globals⟩).Emits q (cf.function.prologue align cf.locals ++ code) r ∧
      StackDiscipline ⟨cf.function.name, ⟨cf.locals, c.globals⟩⟩ code := by
  obtain ⟨⟨listing, literals⟩, hgen⟩ :=
    Compilation.generate_eq_ok (Program.wellFormed_of_load hload) hanalyze align
  obtain ⟨before, head, body, q, r, hhead, hbody, hstands⟩ := Compilation.exists_stands hanalyze hgen hm
  obtain ⟨after, hlisting⟩ := hstands.line
  obtain ⟨spill, hspill, rfl⟩ := Function.exists_spill_of_headCode hhead
  obtain ⟨first, hends⟩ := Function.exists_leave_of_bodyCode hbody
  have hcode := (Param.balanced_spillCodes hspill).levels.append (Function.levels_of_bodyCode hbody)
  refine ⟨listing, literals, before, spill ++ body, after, q, r, hgen, ?_, ?_, ?_⟩
  · rw [hlisting]
    simp only [List.append_assoc]
  · exact Function.emits_code.2 ⟨_, _, hhead, hbody, by simp only [List.append_assoc]⟩
  · constructor
    · intro first later heq
      rw [heq] at hcode
      simpa using hcode.split.2.nonneg
    · intro first line later heq hc
      rw [heq] at hcode
      cases hcode.split.2 with
      | cons _ hzero _ => simpa using hzero hc
    · exact ⟨spill ++ first, by rw [hends, List.append_assoc]; rfl⟩
    · intro e p part q h
      have hlevels := (Expr.balanced_of_emits h).levels.eq_add_pushed
      omega
    · intro s p part q h
      have hlevels := (Stmt.levels_of_emits h).eq_add_pushed
      omega

/-- A function of seven arguments that calls itself inside an argument of a call, inside an operand, in a loop. -/
def nestedCalls : List Char :=
  "(program (func f inteiro [(param inteiro a) (param inteiro b) (param inteiro c) (param inteiro d) (param inteiro e)
      (param inteiro g) (param real h)]
    [(while (relational \"<\" a b)
      [(print \"loop\") (assign a (binary \"+\" a (call f [1 2 3 4 5 (call f [a b c d e g h]) 2.5])))])
    (return (binary \"-\" a b))]))".toList

theorem nestedCalls_stackDiscipline : ∃ p c cf, Program.load nestedCalls = .ok p ∧ p.analyze.2 = .ok c ∧
    cf ∈ c.functions ∧ ∃ listing literals before code after q r, c.generate false = .ok (listing, literals) ∧
      listing = before ++ (cf.function.prologue false cf.locals ++ code) ++ after ∧
      (cf.function.code false ⟨cf.locals, c.globals⟩).Emits q (cf.function.prologue false cf.locals ++ code) r ∧
      StackDiscipline ⟨cf.function.name, ⟨cf.locals, c.globals⟩⟩ code := by
  obtain ⟨p, hp, hcount⟩ : ∃ p, Program.load nestedCalls = .ok p ∧
      p.analyze.2.toOption.map (·.functions.length) = some 1 := by
    apply exists_of_literal
    decide +kernel
  obtain ⟨c, hc, hcount⟩ := map_toOption_eq_some_iff.1 hcount
  obtain ⟨cf, hcf⟩ := List.length_eq_one_iff.1 hcount
  have hm : cf ∈ c.functions := by simp [hcf]
  exact ⟨p, c, cf, hp, hc, hm, Compilation.stackDiscipline hp hc hm false⟩

end Arvore
