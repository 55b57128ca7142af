import Mathlib
import Arvore.Proofs.Analysis.Tiling
import Arvore.Proofs.Calling.Callee
import Arvore.Proofs.Code.Balance

/-!
# Accesses to the frame

Code refers to the frame of its function by distances from `%rbp`. Every access at such a distance is one to the slot of
a variable, in the width of the variable, so that it touches no byte of another one; the only accesses above the frame
pointer are those that fetch the arguments from the seventh on (`Compilation.frameDiscipline`).
-/

namespace Arvore

open Assembly Machine

namespace Assembly

/-! ### Lines and the frame -/

/-- The operands that an instruction reads or writes, and how many bytes of each. -/
def Instr.accesses : Instr → List (Operand × Nat)
  | .push src => [(src, 8)]
  | .mov w src dst => [(src, w.bytes), (dst, w.bytes)]
  | .movSigned src _ => [(src, 4)]
  | .movZero src _ => [(src, 1)]
  | .alu _ w src _ => [(src, w.bytes)]
  | _ => []

/-- Whether an operand lies at a distance from the frame pointer. -/
def Operand.inFrame : Operand → Bool
  | .mem .rbp _ => true
  | _ => false

/-- Whether a line has nothing to do with the frame. -/
def Line.avoidsFrame : Line → Bool
  | .instr i => i.operands.all fun o => !o.inFrame
  | _ => true

theorem Instr.mem_operands_of_mem_accesses {i : Instr} {o : Operand} {n : Nat} (h : (o, n) ∈ i.accesses) :
    o ∈ i.operands := by
  cases i with
  | push | movSigned | movZero | alu =>
    simp only [accesses, List.mem_singleton, Prod.mk.injEq] at h
    simp [operands, h.1]
  | mov w src dst =>
    simp only [accesses, List.mem_cons, List.not_mem_nil, or_false, Prod.mk.injEq] at h
    rcases h with ⟨rfl, -⟩ | ⟨rfl, -⟩ <;> simp [operands]
  | _ => simp [accesses] at h

theorem Line.avoidsFrame_of_mem {code : Listing} (h : code.all Line.avoidsFrame = true) {i : Instr}
    (hi : .instr i ∈ code) (d : Int) : .mem .rbp d ∉ i.operands := by
  intro hd
  have hline : (Line.instr i).avoidsFrame = true := List.all_eq_true.1 h _ hi
  have hoperand := List.all_eq_true.1 hline _ hd
  cases hoperand

/-- A line stands in one of two parts of a listing. -/
theorem split_append {a b first later : Listing} {line : Line} (h : a ++ b = first ++ line :: later) :
    (∃ l, a = first ++ line :: l ∧ later = l ++ b) ∨ ∃ f, first = a ++ f ∧ b = f ++ line :: later := by
  rcases List.append_eq_append_iff.1 h with ⟨f, hf, hb⟩ | ⟨l, ha, hl⟩
  · exact .inr ⟨f, hf, hb⟩
  · cases l with
    | nil => exact .inr ⟨[], by simpa using ha.symm, by simpa using hl.symm⟩
    | cons x l =>
      obtain ⟨rfl, rfl⟩ := List.cons.inj hl
      exact .inl ⟨l, ha, rfl⟩

end Assembly

/-- There is a variable at a distance from the frame pointer, and it takes so many bytes. -/
def SymbolTable.Slotted (t : SymbolTable) (d : Int) (n : Nat) : Prop :=
  ∃ x s, t.find? x = some s ∧ s.offset = d ∧ s.type.size? = some n

/-- The instructions of some code access the frame only where variables are, each in its width, and take addresses only
of certain variables, to read into them. -/
structure KeepsToSlots (t : SymbolTable) (reads : Ident → Prop) (code : Listing) : Prop where
  access : ∀ i, .instr i ∈ code → ∀ d n, (.mem .rbp d, n) ∈ i.accesses → t.Slotted d n
  address : ∀ d r, .instr (.lea (.mem .rbp d) r) ∈ code →
    ∃ x s, reads x ∧ t.find? x.name = some s ∧ s.offset = d ∧ r = .rdi

namespace KeepsToSlots

variable {t : SymbolTable} {reads : Ident → Prop} {a b code : Listing}

theorem of_avoids (h : code.all Line.avoidsFrame = true) : KeepsToSlots t reads code := by
  constructor
  · intro i hi d n ha
    exact absurd (Instr.mem_operands_of_mem_accesses ha) (Line.avoidsFrame_of_mem h hi d)
  · intro d r hi
    exact absurd (by simp [Instr.operands]) (Line.avoidsFrame_of_mem h hi d)

theorem append (ha : KeepsToSlots t reads a) (hb : KeepsToSlots t reads b) : KeepsToSlots t reads (a ++ b) := by
  constructor
  · intro i hi
    rcases List.mem_append.1 hi with hi | hi
    · exact ha.access i hi
    · exact hb.access i hi
  · intro d r hi
    rcases List.mem_append.1 hi with hi | hi
    · exact ha.address d r hi
    · exact hb.address d r hi

end KeepsToSlots

/-! ### Expressions -/

section Expressions

variable {reads : Ident → Prop} {target : Target} {p q : Pool} {code : Listing}

theorem Symbol.slotted {t : SymbolTable} {x : String} {s : Symbol} {w : Width} (hx : t.find? x = some s)
    (hw : s.type.width = .ok w) : t.Slotted s.offset w.bytes := ⟨x, s, hx, rfl, Ty.size?_of_width hw⟩

theorem Symbol.keepsTo_load {t : SymbolTable} {x : String} {s : Symbol} (hx : t.find? x = some s)
    (h : s.load = .ok code) : KeepsToSlots t reads code := by
  obtain ⟨w, hw, h⟩ := bind_eq_ok_iff.1 h
  have hslot := Symbol.slotted hx hw
  constructor
  · intro i hi d n ha
    cases w <;> cases h <;>
      · simp only [instrs, List.map_cons, List.map_nil, List.mem_singleton, Line.instr.injEq] at hi
        subst hi
        simp only [Instr.accesses, Symbol.place, List.mem_cons, List.not_mem_nil, or_false, Prod.mk.injEq,
          Operand.mem.injEq, true_and, reduceCtorEq, false_and] at ha
        obtain ⟨rfl, rfl⟩ := ha
        exact hslot
  · intro d r hi
    cases w <;> cases h <;> simp [instrs] at hi

theorem Symbol.keepsTo_storeFrom {t : SymbolTable} {x : String} {s : Symbol} {src : Operand} (hx : t.find? x = some s)
    (hsrc : src.inFrame = false) (h : s.storeFrom src = .ok code) : KeepsToSlots t reads code := by
  obtain ⟨w, hw, h⟩ := bind_eq_ok_iff.1 h
  cases h
  constructor
  · intro i hi d n ha
    simp only [instrs, List.map_cons, List.map_nil, List.mem_singleton, Line.instr.injEq] at hi
    subst hi
    simp only [Instr.accesses, Symbol.place, List.mem_cons, List.not_mem_nil, or_false, Prod.mk.injEq,
      Operand.mem.injEq, true_and] at ha
    rcases ha with ⟨rfl, -⟩ | ⟨rfl, rfl⟩
    · cases hsrc
    · exact Symbol.slotted hx hw
  · intro d r hi
    simp [instrs] at hi

theorem keepsTo_operandsCode {t : SymbolTable} {left right : Listing} (hl : KeepsToSlots t reads left)
    (hr : KeepsToSlots t reads right) : KeepsToSlots t reads (operandsCode left right) :=
  ((hl.append (.of_avoids rfl)).append hr).append (.of_avoids rfl)

theorem keepsTo_widenCode {t : SymbolTable} (type : Ty) : KeepsToSlots t reads (widenCode type) := by
  unfold widenCode
  split
  · exact .of_avoids rfl
  · exact .of_avoids rfl

theorem keepsTo_realOperands {t : SymbolTable} {left right : Listing} (hl : KeepsToSlots t reads left)
    (hr : KeepsToSlots t reads right) (type type' : Ty) :
    KeepsToSlots t reads (operandsCode (left ++ widenCode type) (right ++ widenCode type') ++ realOperandsCode) := by
  refine (keepsTo_operandsCode ?_ ?_).append (.of_avoids rfl)
  · exact hl.append (keepsTo_widenCode type)
  · exact hr.append (keepsTo_widenCode type')

/-- A call finds its arguments by the stack pointer. -/
theorem avoidsFrame_callCode (function : String) (n : Nat) : (callCode function n).all Line.avoidsFrame = true := by
  have hcleanup : (instrs (if n = 0 then [] else
      [.alu .add .quad (.imm (8 * (n + (n - argumentRegisters.length : Nat)))) .rsp])).all Line.avoidsFrame = true := by
    split <;> rfl
  have hrepush : (instrs (repushCode n)).all Line.avoidsFrame = true := by
    simp [instrs, repushCode, Line.avoidsFrame, Instr.operands, Operand.inFrame]
  have hregister (extra : Nat) : (instrs (registerCode n extra)).all Line.avoidsFrame = true := by
    simp [instrs, registerCode, Line.avoidsFrame, Instr.operands, Operand.inFrame]
  rw [callCode, instrs_append, instrs_append, instrs_append, List.all_append, List.all_append, List.all_append,
    hcleanup, hrepush, hregister]
  rfl

theorem Numeral.avoidsFrame_of_emits {text : String} (h : (Numeral.code text).Emits p code q) :
    code.all Line.avoidsFrame = true := by
  unfold Numeral.code at h
  split at h
  · simp only [Gen.emits_bind, Gen.emits_lift, Gen.emits_pure] at h
    obtain ⟨_, _, -, l, _, -, rfl, -⟩ := h
    rfl
  · split at h
    · obtain ⟨rfl, -⟩ := Gen.emits_pure.1 h
      rfl
    · split at h
      · simp only [Gen.emits_bind, Gen.emits_pure] at h
        obtain ⟨l, _, -, rfl, -⟩ := h
        rfl
      · exact absurd h Gen.not_emits_throw

section Operators

variable {is : List Instr}

theorem ArithmeticOp.avoidsFrame_integerCode {op : ArithmeticOp} (h : op.integerCode = .ok is) :
    (instrs (is ++ [Instr.movSigned (.reg .rax) .rax])).all Line.avoidsFrame = true := by
  cases op <;> cases h <;> rfl

theorem LogicalOp.avoidsFrame_code {op : LogicalOp} (h : op.code = .ok is) :
    (instrs is).all Line.avoidsFrame = true := by
  cases op <;> cases h <;> rfl

theorem RelationalOp.avoidsFrame_realCode {op : RelationalOp} (h : op.realCode = .ok is) :
    (instrs (is ++ [Instr.movZero (.reg .rax) .rax])).all Line.avoidsFrame = true := by
  cases op <;> cases h <;> rfl

theorem UnaryOp.avoidsFrame_code {type : Except Fault Ty} {op : UnaryOp} (h : op.code type = .ok is) :
    (instrs is).all Line.avoidsFrame = true := by
  cases op with
  | neg =>
    obtain ⟨t, -, h⟩ := bind_eq_ok_iff.1 h
    split at h <;> cases h <;> rfl
  | not =>
    cases h
    rfl
  | other symbol => cases h

end Operators

namespace Expr

theorem keepsTo_of_argsCode {args : List Expr}
    (ih : ∀ e ∈ args, ∀ {p q code}, (e.code target).Emits p code q → KeepsToSlots target.scope.locals reads code)
    (h : (argsCode target args).Emits p code q) : KeepsToSlots target.scope.locals reads code := by
  induction args generalizing p q code with
  | nil =>
    simp only [argsCode, Gen.emits_pure] at h
    obtain ⟨rfl, -⟩ := h
    exact .of_avoids rfl
  | cons e rest ihrest =>
    simp only [List.forall_mem_cons] at ih
    simp only [argsCode, Gen.emits_bind, Gen.emits_pure] at h
    obtain ⟨first, _, hf, others, _, ho, rfl, -⟩ := h
    exact ((ih.1 hf).append (.of_avoids rfl)).append (ihrest ih.2 ho)

/-- The code of an expression reads its variables and nothing else of the frame. -/
theorem keepsTo_of_emits {e : Expr} (h : (e.code target).Emits p code q) :
    KeepsToSlots target.scope.locals reads code := by
  induction e generalizing p q code with
  | number line text => exact .of_avoids (Numeral.avoidsFrame_of_emits (by simpa only [Expr.code] using h))
  | string line text =>
    simp only [Expr.code, Gen.emits_bind, Gen.emits_pure] at h
    obtain ⟨l, _, -, rfl, -⟩ := h
    exact .of_avoids rfl
  | boolean line word =>
    simp only [Expr.code, Gen.emits_pure] at h
    obtain ⟨rfl, -⟩ := h
    exact .of_avoids rfl
  | var line name =>
    simp only [Expr.code, Gen.emits_bind, Gen.emits_lift, Target.find_eq_ok_iff] at h
    obtain ⟨s, _, ⟨hs, -⟩, hl, -⟩ := h
    exact Symbol.keepsTo_load hs hl
  | arithmetic line op a b iha ihb =>
    simp only [Expr.code, Gen.emits_bind, Gen.emits_lift] at h
    obtain ⟨type, _, -, left, _, hl, right, _, hr, h⟩ := h
    split at h
    · simp only [Gen.emits_bind, Gen.emits_lift, Gen.emits_pure] at h
      obtain ⟨s, _, -, t, _, -, o, _, -, rfl, -⟩ := h
      exact (keepsTo_realOperands (iha hl) (ihb hr) s t).append (.of_avoids rfl)
    · simp only [Gen.emits_bind, Gen.emits_lift, Gen.emits_pure] at h
      obtain ⟨_, _, ⟨hop, -⟩, rfl, -⟩ := h
      exact (keepsTo_operandsCode (iha hl) (ihb hr)).append (.of_avoids (ArithmeticOp.avoidsFrame_integerCode hop))
  | logical line op a b iha ihb =>
    simp only [Expr.code, Gen.emits_bind, Gen.emits_lift, Gen.emits_pure] at h
    obtain ⟨left, _, hl, right, _, hr, _, _, ⟨hop, -⟩, rfl, -⟩ := h
    exact (keepsTo_operandsCode (iha hl) (ihb hr)).append (.of_avoids (LogicalOp.avoidsFrame_code hop))
  | relational line op a b iha ihb =>
    simp only [Expr.code, Gen.emits_bind, Gen.emits_lift] at h
    obtain ⟨s, _, -, t, _, -, left, _, hl, right, _, hr, h⟩ := h
    split at h
    · simp only [Gen.emits_bind, Gen.emits_lift, Gen.emits_pure] at h
      obtain ⟨_, _, ⟨hop, -⟩, rfl, -⟩ := h
      exact (keepsTo_realOperands (iha hl) (ihb hr) s t).append (.of_avoids (RelationalOp.avoidsFrame_realCode hop))
    · simp only [Gen.emits_bind, Gen.emits_lift, Gen.emits_pure] at h
      obtain ⟨_, _, -, rfl, -⟩ := h
      exact (keepsTo_operandsCode (iha hl) (ihb hr)).append (.of_avoids rfl)
  | unary line op e ih =>
    simp only [Expr.code, Gen.emits_bind, Gen.emits_lift, Gen.emits_pure] at h
    obtain ⟨operand, _, he, _, _, ⟨hop, -⟩, rfl, -⟩ := h
    exact (ih he).append (.of_avoids (UnaryOp.avoidsFrame_code hop))
  | call line callee args ih =>
    simp only [Expr.code, Gen.emits_bind, Gen.emits_pure] at h
    obtain ⟨stacked, _, hs, rfl, -⟩ := h
    exact (keepsTo_of_argsCode ih hs).append (.of_avoids (avoidsFrame_callCode callee.name args.length))
  | foreign line kind | absent => simp [Expr.code] at h

end Expr

end Expressions

/-! ### Statements -/

section Statements

variable {reads : Ident → Prop} {target : Target} {p q : Pool} {code : Listing}

theorem Symbol.keepsTo_of_assignCode {x : String} {s : Symbol} {e : Expr}
    (hx : target.scope.locals.find? x = some s) (h : (s.assignCode target e).Emits p code q) :
    KeepsToSlots target.scope.locals reads code := by
  unfold Symbol.assignCode at h
  split at h
  · exact Symbol.keepsTo_storeFrom hx rfl (Gen.emits_lift.1 h).1
  · simp only [Gen.emits_bind, Gen.emits_lift, Gen.emits_pure] at h
    obtain ⟨computed, _, hc, stored, _, ⟨hs, -⟩, rfl, -⟩ := h
    exact (Expr.keepsTo_of_emits hc).append (Symbol.keepsTo_storeFrom hx rfl hs)

theorem DeclItem.keepsTo_of_codes {items : List DeclItem} (h : (DeclItem.codes target items).Emits p code q) :
    KeepsToSlots target.scope.locals reads code := by
  induction items generalizing p q code with
  | nil =>
    obtain ⟨rfl, -⟩ := Gen.emits_pure.1 h
    exact .of_avoids rfl
  | cons item rest ih =>
    simp only [DeclItem.codes, Gen.emits_bind, Gen.emits_pure] at h
    obtain ⟨first, _, hf, others, _, ho, rfl, -⟩ := h
    refine KeepsToSlots.append ?_ (ih ho)
    unfold DeclItem.code at hf
    split at hf
    · obtain ⟨rfl, -⟩ := Gen.emits_pure.1 hf
      exact .of_avoids rfl
    · simp only [Gen.emits_bind, Gen.emits_lift, Target.find_eq_ok_iff] at hf
      obtain ⟨s, _, ⟨hs, -⟩, hf⟩ := hf
      exact Symbol.keepsTo_of_assignCode hs hf

theorem Expr.keepsTo_of_printCode {e : Expr} (h : (e.printCode target).Emits p code q) :
    KeepsToSlots target.scope.locals reads code := by
  unfold Expr.printCode at h
  split at h
  · simp only [Gen.emits_bind, Gen.emits_pure] at h
    obtain ⟨l, _, -, rfl, -⟩ := h
    exact .of_avoids rfl
  · simp only [Gen.emits_bind, Gen.emits_pure] at h
    obtain ⟨computed, _, hc, rfl, -⟩ := h
    exact (Expr.keepsTo_of_emits hc).append (.of_avoids rfl)

namespace Stmt

theorem keepsTo_of_codes {body : List Stmt}
    (ih : ∀ s ∈ body, ∀ {p q code}, (s.code target).Emits p code q → KeepsToSlots target.scope.locals reads code)
    (h : (codes target body).Emits p code q) : KeepsToSlots target.scope.locals reads code := by
  induction body generalizing p q code with
  | nil =>
    simp only [codes, Gen.emits_pure] at h
    obtain ⟨rfl, -⟩ := h
    exact .of_avoids rfl
  | cons s rest ihrest =>
    simp only [List.forall_mem_cons] at ih
    simp only [codes, Gen.emits_bind, Gen.emits_pure] at h
    obtain ⟨first, _, hf, others, _, ho, rfl, -⟩ := h
    exact (ih.1 hf).append (ihrest ih.2 ho)

/-- The code of an accepted statement reads and writes variables, and takes the addresses of those that it reads
into. -/
theorem keepsTo_of_emits {place : Place} {s : Stmt} (ha : s.Accepted place)
    (hr : ∀ line x, .read line x ∈ s.nested → reads x) (h : (s.code target).Emits p code q) :
    KeepsToSlots target.scope.locals reads code := by
  have block {p q : Pool} {code : Listing} {body : List Stmt}
      (ih : ∀ s ∈ body, ∀ {p q code}, s.Accepted place → (∀ line x, .read line x ∈ s.nested → reads x) →
        (s.code target).Emits p code q → KeepsToSlots target.scope.locals reads code)
      (hb : ∀ s ∈ body, s.Accepted place) (hr : ∀ line x, .read line x ∈ nestedAll body → reads x)
      (h : (codes target body).Emits p code q) : KeepsToSlots target.scope.locals reads code := by
    refine keepsTo_of_codes (fun s hs {_ _ _} => ih s hs (hb s hs) fun line x hx => hr line x ?_) h
    rw [nestedAll_eq_flatMap]
    exact List.mem_flatMap.2 ⟨s, hs, hx⟩
  have test {p q : Pool} {c : Expr} {cond : Listing} (h : (c.code target).Emits p cond q) (l : Label) :
      KeepsToSlots target.scope.locals reads (testCode cond l) := (Expr.keepsTo_of_emits h).append (.of_avoids rfl)
  induction s generalizing p q code with
  | declare line type items => exact DeclItem.keepsTo_of_codes (by simpa only [Stmt.code] using h)
  | assign line x e =>
    simp only [Stmt.code, Gen.emits_bind, Gen.emits_lift, Target.find_eq_ok_iff] at h
    obtain ⟨s, _, ⟨hs, -⟩, h⟩ := h
    exact Symbol.keepsTo_of_assignCode hs h
  | increment line op x =>
    simp only [Stmt.code, Gen.emits_bind, Gen.emits_lift, Gen.emits_pure, Target.find_eq_ok_iff] at h
    obtain ⟨s, _, ⟨hs, -⟩, loaded, _, ⟨hl, -⟩, i, _, ⟨hi, -⟩, stored, _, ⟨hst, -⟩, rfl, -⟩ := h
    have hstep : (instrs [i]).all Line.avoidsFrame = true := by
      cases op <;> cases hi <;> rfl
    exact ((Symbol.keepsTo_load hs hl).append (.of_avoids hstep)).append (Symbol.keepsTo_storeFrom hs rfl hst)
  | call line callee args => exact Expr.keepsTo_of_emits (by simpa only [Stmt.code] using h)
  | ifThen line c body ih =>
    cases ha with
    | ifThen _ hb =>
      simp only [Stmt.code, Gen.emits_bind, Gen.emits_pure] at h
      obtain ⟨done, _, -, cond, _, hcond, inner, _, hinner, rfl, -⟩ := h
      have htest := test hcond done
      have hbody := block ih hb (fun line x hx => hr line x (by rw [nested]; exact .tail _ hx)) hinner
      exact (htest.append hbody).append (.of_avoids rfl)
  | ifElse line c body other ihb iho =>
    cases ha with
    | ifElse _ hb ho =>
      simp only [Stmt.code, Gen.emits_bind, Gen.emits_pure] at h
      obtain ⟨otherwise, _, -, done, _, -, cond, _, hcond, first, _, hfirst, second, _, hsecond, rfl, -⟩ := h
      have htest := test hcond otherwise
      have hbody := block ihb hb (fun line x hx => hr line x (by simp [nested, hx])) hfirst
      have hother := block iho ho (fun line x hx => hr line x (by simp [nested, hx])) hsecond
      exact ((((htest.append hbody).append (.of_avoids rfl)).append (.of_avoids rfl)).append hother).append
        (.of_avoids rfl)
  | whileDo line c body ih =>
    cases ha with
    | whileDo _ hb =>
      simp only [Stmt.code, Gen.emits_bind, Gen.emits_pure] at h
      obtain ⟨top, _, -, done, _, -, cond, _, hcond, inner, _, hinner, rfl, -⟩ := h
      have htest := test hcond done
      have hbody := block ih hb (fun line x hx => hr line x (by rw [nested]; exact .tail _ hx)) hinner
      have htop : KeepsToSlots target.scope.locals reads [.label top] := .of_avoids rfl
      exact (((htop.append htest).append hbody).append (.of_avoids rfl)).append (.of_avoids rfl)
  | forDo line i c s body ihi ihs ih =>
    cases ha with
    | forDo hi hi' _ hs hs' hb =>
      simp only [Stmt.code, Gen.emits_bind, Gen.emits_pure] at h
      obtain ⟨top, _, -, done, _, -, init, _, hinit, cond, _, hcond, inner, _, hinner, step, _, hstep, rfl, -⟩ := h
      -- the head of the loop holds no statement that reads
      have hstart := ihi hi (fun line x hx => by cases i <;> simp [kind, nested] at hi' hx) hinit
      have hend := ihs hs (fun line x hx => by cases s <;> simp [kind, nested] at hs' hx) hstep
      have htest := test hcond done
      have hbody := block ih hb (fun line x hx => hr line x (by rw [nested]; exact .tail _ hx)) hinner
      exact (((((hstart.append (.of_avoids rfl)).append htest).append hbody).append hend).append
        (.of_avoids rfl)).append (.of_avoids rfl)
  | read line x =>
    simp only [Stmt.code, Gen.emits_bind, Gen.emits_lift, Gen.emits_pure, Target.find_eq_ok_iff] at h
    obtain ⟨s, _, ⟨hs, -⟩, rfl, -⟩ := h
    constructor
    · intro i hi d n hacc
      simp only [instrs, List.map_cons, List.map_nil, List.mem_cons, List.not_mem_nil, or_false,
        Line.instr.injEq] at hi
      rcases hi with rfl | rfl <;> simp [Instr.accesses] at hacc
    · intro d r hi
      simp only [instrs, Symbol.place, List.map_cons, List.map_nil, List.mem_cons, List.not_mem_nil, or_false,
        Line.instr.injEq, Instr.lea.injEq, Operand.mem.injEq, true_and, reduceCtorEq] at hi
      obtain ⟨rfl, rfl⟩ := hi
      exact ⟨x, s, hr line x (by simp [nested]), hs, rfl, rfl⟩
  | print line e => exact Expr.keepsTo_of_printCode (by simpa only [Stmt.code] using h)
  | ret line value =>
    cases value with
    | none =>
      simp only [Stmt.code, Gen.emits_pure] at h
      obtain ⟨rfl, -⟩ := h
      exact .of_avoids rfl
    | some e =>
      simp only [Stmt.code, Gen.emits_bind, Gen.emits_pure] at h
      obtain ⟨computed, _, hc, rfl, -⟩ := h
      exact (Expr.keepsTo_of_emits hc).append (.of_avoids rfl)
  | foreign line kind | incomplete line kind => simp [Stmt.code] at h

end Stmt

end Statements

/-! ### Arguments -/

section Arguments

variable {target : Target} {position : Nat} {first later code : Listing} {i : Instr} {d : Int} {n : Nat}

/-- An argument is copied into the slot of its parameter, and fetched from above the frame pointer if it came on the
stack. -/
theorem Symbol.access_of_spillCode {x : String} {s : Symbol} (hx : target.scope.locals.find? x = some s)
    (h : s.spillCode position = .ok (first ++ .instr i :: later)) (ha : (.mem .rbp d, n) ∈ i.accesses) :
    target.scope.locals.Slotted d n ∨
      6 ≤ position ∧ d = 16 + 8 * (position - 6 : Nat) ∧ i = .mov .quad (.mem .rbp d) (.reg .rax) ∧ first = [] ∧
        ∃ w, s.type.width = .ok w ∧ later = [.instr (.mov w (.reg .rax) s.place)] := by
  unfold Symbol.spillCode at h
  split at h
  · left
    have hstored : KeepsToSlots target.scope.locals (fun _ => False) (first ++ .instr i :: later) :=
      Symbol.keepsTo_storeFrom hx rfl h
    exact hstored.access i (by simp) d n ha
  · rename_i hnone
    have hposition : 6 ≤ position := by simpa [argumentRegisters] using hnone
    obtain ⟨stored, hs, h⟩ := bind_eq_ok_iff.1 h
    have hstored : KeepsToSlots target.scope.locals (fun _ => False) stored := Symbol.keepsTo_storeFrom hx rfl hs
    obtain ⟨w, hw, hs⟩ := bind_eq_ok_iff.1 hs
    cases hs
    rcases split_append (Except.ok.inj h) with ⟨l, hl, rfl⟩ | ⟨f, -, hf⟩
    · -- the line that fetches the argument
      right
      obtain ⟨rfl, hl⟩ | ⟨f, rfl, hf⟩ := List.cons_eq_append_iff.1 hl
      · obtain ⟨hi, rfl⟩ := List.cons.inj hl
        obtain rfl := Line.instr.inj hi
        simp only [Instr.accesses, List.mem_cons, List.not_mem_nil, or_false, Prod.mk.injEq, Operand.mem.injEq,
          true_and, reduceCtorEq, false_and] at ha
        obtain ⟨rfl, -⟩ := ha
        exact ⟨hposition, rfl, rfl, rfl, w, hw, rfl⟩
      · simp at hf
    · left
      exact hstored.access i (by rw [hf]; simp) d n ha

/-- The arguments are copied one after the other. -/
theorem Param.access_of_spillCodes {params : List Param}
    (h : spillCodes target position params = .ok (first ++ .instr i :: later)) (ha : (.mem .rbp d, n) ∈ i.accesses) :
    target.scope.locals.Slotted d n ∨
      ∃ j param s w rest, params[j]? = some param ∧ 6 ≤ position + j ∧ d = 16 + 8 * (position + j - 6 : Nat) ∧
        i = .mov .quad (.mem .rbp d) (.reg .rax) ∧ target.scope.locals.find? param.target.name = some s ∧
        s.type.width = .ok w ∧ later = .instr (.mov w (.reg .rax) s.place) :: rest ∧
        spillCodes target position (params.take j) = .ok first := by
  induction params generalizing position first with
  | nil => simp [spillCodes] at h
  | cons param params ih =>
    simp only [spillCodes, bind_eq_ok_iff, Target.find_eq_ok_iff] at h
    obtain ⟨s, hs, copied, hc, others, ho, h⟩ := h
    rcases split_append (Except.ok.inj h) with ⟨l, rfl, rfl⟩ | ⟨f, rfl, rfl⟩
    · rcases Symbol.access_of_spillCode hs hc ha with hslot | ⟨hp, hd, hi, rfl, w, hw, rfl⟩
      · exact .inl hslot
      · exact .inr ⟨0, param, s, w, others, rfl, hp, hd, hi, hs, hw, rfl, rfl⟩
    · rcases ih ho with hslot | ⟨j, param', s', w, rest, hj, hp, hd, hi, hs', hw, hl, hf⟩
      · exact .inl hslot
      · refine .inr ⟨j + 1, param', s', w, rest, by simpa using hj, by omega, ?_, hi, hs', hw, hl, ?_⟩
        · rw [hd, Nat.add_right_comm, Nat.add_assoc]
        · rw [List.take_succ_cons]
          simp only [spillCodes, bind_eq_ok_iff, Target.find_eq_ok_iff]
          exact ⟨s, hs, copied, hc, f, hf, rfl⟩

/-- No address is taken while arguments are copied. -/
theorem Param.lea_not_mem_spillCodes {params : List Param} (h : spillCodes target position params = .ok code)
    (src : Operand) (r : Register) : .instr (.lea src r) ∉ code := by
  induction params generalizing position code with
  | nil =>
    cases h
    exact List.not_mem_nil
  | cons param params ih =>
    simp only [spillCodes, bind_eq_ok_iff] at h
    obtain ⟨s, -, copied, hc, others, ho, h⟩ := h
    cases h
    have hcopied : .instr (.lea src r) ∉ copied := by
      unfold Symbol.spillCode Symbol.store Symbol.storeFrom at hc
      split at hc
      · obtain ⟨w, -, hc⟩ := bind_eq_ok_iff.1 hc
        cases hc
        simp [instrs]
      · simp only [bind_eq_ok_iff] at hc
        obtain ⟨_, ⟨w, -, hs⟩, hc⟩ := hc
        cases hs
        cases hc
        simp [instrs]
    intro hm
    rcases List.mem_append.1 hm with hm | hm
    · exact hcopied hm
    · exact ih ho hm

end Arguments

/-! ### Slots that tile the frame -/

/-- The symbols of a table lie within so many bytes below the frame pointer, and share none. -/
structure SymbolTable.Tiled (t : SymbolTable) (size : Nat) : Prop where
  sized : ∀ x s, t.find? x = some s → ∃ n, s.type.size? = some n
  within : ∀ s ∈ t.symbols, s.range ⊆ Set.Ico (-(size : Int)) 0
  disjoint : ∀ s ∈ t.symbols, ∀ u ∈ t.symbols, s ≠ u → Disjoint s.range u.range

theorem Function.tiled_of_locals {source : List UInt8} (hsize : source.length < 2 ^ 63) {p : Program}
    (hload : Program.load (Text.Utf8.decode source) = .ok p) {f : Function} (hf : f ∈ p.functions)
    {globals table : SymbolTable} (h : f.locals globals = .ok table) :
    ∃ size : Nat, size < 9223372036854775808 ∧ table.Tiled size := by
  have hd := Function.declared_of_locals h
  have hfits := Function.total_lt_of_load hsize hload hf hd.nodup_names
  have hsymbols : table.symbols = Variable.slots 0 f.variables := by
    rw [SymbolTable.symbols, hd.entries_eq hfits]
    rfl
  have hcover := Variable.iUnion_range_slots 0 f.variables
  rw [Nat.zero_add, Nat.cast_zero, neg_zero] at hcover
  refine ⟨Variable.total f.variables, hfits, fun x s hs => ?_, fun s hs z hz => ?_, fun s hs u hu hne => ?_⟩
  · exact Option.isSome_iff_exists.1 ((Ty.isVariable_iff_size?_isSome _).1 (hd.isVariable hs))
  · rw [hsymbols] at hs
    rw [← hcover]
    exact Set.mem_iUnion₂.2 ⟨s, hs, hz⟩
  · rw [hsymbols] at hs hu
    have hsymm : Std.Symm fun a b : Symbol => Disjoint a.range b.range := ⟨fun _ _ h => h.symm⟩
    exact (Variable.pairwise_disjoint_slots 0 f.variables).forall hs hu hne

section Slots

variable {t : SymbolTable} {d : Int} {n size : Nat} {s u : Symbol}

theorem SymbolTable.mem_symbols_of_find? {x : String} (h : t.find? x = some s) : s ∈ t.symbols := by
  obtain ⟨l, l', hl, -⟩ := List.lookup_eq_some_iff.1 h
  rw [SymbolTable.symbols, hl]
  simp

theorem Symbol.range_eq (h : s.type.size? = some n) : s.range = Set.Ico s.offset (s.offset + n) := by
  rw [Symbol.range, Symbol.bytes, h, Option.getD_some]

theorem SymbolTable.Tiled.offset_neg (ht : t.Tiled size) (hs : s ∈ t.symbols) (h : s.type.size? = some n) :
    -(size : Int) ≤ s.offset ∧ s.offset + n ≤ 0 := by
  have hpos := Ty.size?_pos h
  have hrange := Symbol.range_eq h
  have hfirst : s.offset ∈ s.range := by
    rw [hrange]
    exact ⟨le_rfl, by omega⟩
  have hlast : s.offset + n - 1 ∈ s.range := by
    rw [hrange]
    exact ⟨by omega, by omega⟩
  have hlow := (ht.within s hs hfirst).1
  have hhigh := (ht.within s hs hlast).2
  omega

/-- A store into a slot, in its width, leaves every byte of another slot as it is. -/
theorem SymbolTable.Tiled.store_keeps (ht : t.Tiled size) (hsize : size < 9223372036854775808) {w : Width}
    (hs : s ∈ t.symbols) (hw : s.type.size? = some w.bytes) (hu : u ∈ t.symbols) (hne : u ≠ s) {img : Image}
    {src : Operand} {σ σ' : State} (hact : act img σ (.mov w src (.mem .rbp s.offset)) = some σ') {z : Int}
    (hz : z ∈ u.range) : σ'.mem (σ.regs .rbp + BitVec.ofInt 64 z) = σ.mem (σ.regs .rbp + BitVec.ofInt 64 z) := by
  have hmem : ∃ v, σ'.mem = σ.mem.write (σ.regs .rbp + BitVec.ofInt 64 s.offset) w.bytes v := by
    simp only [act] at hact
    split at hact
    · cases hact
    · obtain ⟨v, -, hv⟩ := Option.bind_eq_some_iff.1 hact
      cases hv
      exact ⟨v, rfl⟩
  obtain ⟨v, hv⟩ := hmem
  have hslot := ht.offset_neg hs hw
  have hwithin := ht.within u hu hz
  -- the byte is none of those that are written
  have hapart : s.offset + w.bytes ≤ z ∨ z + (1 : Nat) ≤ s.offset := by
    have hnot : z ∉ s.range := Set.disjoint_left.1 (ht.disjoint u hu s hs hne) hz
    rw [Symbol.range_eq hw, Set.mem_Ico] at hnot
    omega
  have hbyte : -(size : Int) ≤ z ∧ z + (1 : Nat) ≤ 0 := ⟨hwithin.1, by have := hwithin.2; omega⟩
  have hread : (σ.mem.write (σ.regs .rbp + BitVec.ofInt 64 s.offset) w.bytes v).read
      (σ.regs .rbp + BitVec.ofInt 64 z) 1 = σ.mem.read (σ.regs .rbp + BitVec.ofInt 64 z) 1 :=
    read_write_slot hsize hslot hbyte hapart
  rw [hv]
  apply BitVec.eq_of_toNat_eq
  simpa [Memory.read] using hread

end Slots

/-! ### Functions -/

/-- The line between `first` and `later` fetches the argument at position `6 + k` from the stack: those before it make
the frame and copy the arguments before it, and the next one stores it into the slot of its parameter. -/
structure Function.Fetches (align : Bool) (scope : Scope) (f : Function) (k : Nat) (first : Listing) (i : Instr)
    (later : Listing) : Prop where
  load : i = .mov .quad (.mem .rbp (16 + 8 * k)) (.reg .rax)
  store : ∃ param s w rest, f.params[6 + k]? = some param ∧ scope.locals.find? param.target.name = some s ∧
    s.type.width = .ok w ∧ later = .instr (.mov w (.reg .rax) s.place) :: rest
  earlier : ∃ copied, Param.spillCodes ⟨f.name, scope⟩ 0 (f.params.take (6 + k)) = .ok copied ∧
    first = f.prologue align scope.locals ++ copied

/-- How the code of a function refers to its frame. -/
structure FrameDiscipline (align : Bool) (scope : Scope) (f : Function) (code : Listing) : Prop where
  /-- an access hits one slot in its width, or fetches an argument -/
  access : ∀ first i later d n, code = first ++ .instr i :: later → (.mem .rbp d, n) ∈ i.accesses →
    (d < 0 ∧ ∃ s ∈ scope.locals.symbols, s.offset = d ∧ s.type.size? = some n ∧ s.range = Set.Ico d (d + n) ∧
      ∀ u ∈ scope.locals.symbols, u ≠ s → Disjoint u.range s.range) ∨
    ∃ k : Nat, d = 16 + 8 * k ∧ n = 8 ∧ f.Fetches align scope k first i later
  /-- a store changes no byte of another slot -/
  store : ∀ w src d, .instr (.mov w src (.mem .rbp d)) ∈ code → ∃ s ∈ scope.locals.symbols, s.offset = d ∧
    ∀ img σ σ', act img σ (.mov w src (.mem .rbp d)) = some σ' → ∀ u ∈ scope.locals.symbols, u ≠ s → ∀ z ∈ u.range,
      σ'.mem (σ.regs .rbp + BitVec.ofInt 64 z) = σ.mem (σ.regs .rbp + BitVec.ofInt 64 z)
  /-- an address that is taken is that of a variable that is read into -/
  address : ∀ d r, .instr (.lea (.mem .rbp d) r) ∈ code → d < 0 ∧ r = .rdi ∧
    ∃ line x s, .read line x ∈ Stmt.nestedAll f.body ∧ scope.locals.find? x.name = some s ∧ s.offset = d
  /-- the code of each such statement takes the address of its own variable -/
  read : ∀ line x p part q, ((Stmt.read line x).code ⟨f.name, scope⟩).Emits p part q →
    ∃ s, scope.locals.find? x.name = some s ∧ part = instrs [.lea (.mem .rbp s.offset) .rdi, .call readFunction]

theorem Function.avoidsFrame_prologue (align : Bool) (locals : SymbolTable) (f : Function) :
    (f.prologue align locals).all Line.avoidsFrame = true := by
  have hreserve : (reserveCode (reservation align locals.frameSize)).all Line.avoidsFrame = true := by
    unfold reserveCode
    split <;> rfl
  rw [Function.prologue, List.all_append, hreserve]
  rfl

theorem Function.keepsTo_of_bodyCode {scope : Scope} {f : Function} {p q : Pool} {code : Listing}
    (ha : ∀ s ∈ f.body, s.Accepted (f.place scope)) (h : (f.bodyCode scope).Emits p code q) :
    KeepsToSlots scope.locals (fun x => ∃ line, .read line x ∈ Stmt.nestedAll f.body) code := by
  simp only [bodyCode, Gen.emits_bind, Gen.emits_pure] at h
  obtain ⟨body, _, hb, rfl, -⟩ := h
  refine KeepsToSlots.append (Stmt.keepsTo_of_codes (fun s hs {_ _ _} => ?_) hb) ?_
  · refine Stmt.keepsTo_of_emits (ha s hs) fun line x hx => ⟨line, ?_⟩
    rw [Stmt.nestedAll_eq_flatMap]
    exact List.mem_flatMap.2 ⟨s, hs, hx⟩
  · split
    · exact .of_avoids rfl
    · exact .of_avoids rfl

/-- An access in the code of a function is one to a slot, or fetches an argument. -/
theorem Function.access_of_code {align : Bool} {scope : Scope} {f : Function} {reads : Ident → Prop}
    {copied body first later : Listing} {i : Instr} {d : Int} {n : Nat}
    (hcopied : Param.spillCodes ⟨f.name, scope⟩ 0 f.params = .ok copied) (hbody : KeepsToSlots scope.locals reads body)
    (hcode : f.prologue align scope.locals ++ copied ++ body = first ++ .instr i :: later)
    (ha : (.mem .rbp d, n) ∈ i.accesses) :
    scope.locals.Slotted d n ∨ ∃ k : Nat, d = 16 + 8 * k ∧ n = 8 ∧ f.Fetches align scope k first i later := by
  rcases split_append hcode with ⟨l, hl, rfl⟩ | ⟨_, -, hb⟩
  · rcases split_append hl with ⟨l', hp, -⟩ | ⟨earlier, rfl, rfl⟩
    · have hi : .instr i ∈ f.prologue align scope.locals := by simp [hp]
      have hnot := Line.avoidsFrame_of_mem (f.avoidsFrame_prologue align scope.locals) hi d
      exact absurd (Instr.mem_operands_of_mem_accesses ha) hnot
    · rcases Param.access_of_spillCodes hcopied ha with hslot | ⟨j, param, s, w, rest, hj, hp, hd, hi, hs, hw, rfl, hf⟩
      · exact .inl hslot
      · right
        obtain ⟨k, rfl⟩ : ∃ k, j = 6 + k := ⟨j - 6, by omega⟩
        have hdistance : d = 16 + 8 * (k : Int) := by omega
        subst hdistance
        refine ⟨k, rfl, ?_, hi, ⟨param, s, w, rest ++ body, hj, hs, hw, rfl⟩, earlier, hf, rfl⟩
        subst hi
        simpa [Instr.accesses, Width.bytes] using ha
  · exact .inl (hbody.access i (by simp [hb]) d n ha)

/-- Code that keeps to slots, behind a head, refers to the frame as it should if the slots tile it. -/
theorem Function.frameDiscipline_of_code {align : Bool} {scope : Scope} {f : Function} {copied body : Listing}
    {size : Nat} (hcopied : Param.spillCodes ⟨f.name, scope⟩ 0 f.params = .ok copied)
    (hbody : KeepsToSlots scope.locals (fun x => ∃ line, .read line x ∈ Stmt.nestedAll f.body) body)
    (ht : scope.locals.Tiled size) (hsize : size < 9223372036854775808) :
    FrameDiscipline align scope f (f.prologue align scope.locals ++ copied ++ body) := by
  constructor
  · intro first i later d n hcode ha
    rcases Function.access_of_code hcopied hbody hcode ha with ⟨x, s, hx, rfl, hn⟩ | hfetches
    · left
      have hs := SymbolTable.mem_symbols_of_find? hx
      have hpos := Ty.size?_pos hn
      have hbounds := ht.offset_neg hs hn
      exact ⟨by omega, s, hs, rfl, hn, Symbol.range_eq hn, fun u hu hne => ht.disjoint u hu s hs hne⟩
    · exact .inr hfetches
  · intro w src d hm
    obtain ⟨first, later, hcode⟩ := List.mem_iff_append.1 hm
    have ha : (.mem .rbp d, w.bytes) ∈ (Instr.mov w src (.mem .rbp d)).accesses := by simp [Instr.accesses]
    rcases Function.access_of_code hcopied hbody hcode ha with ⟨x, s, hx, rfl, hn⟩ | ⟨k, -, -, hfetches⟩
    · have hs := SymbolTable.mem_symbols_of_find? hx
      exact ⟨s, hs, rfl, fun img σ σ' hact u hu hne z hz => ht.store_keeps hsize hs hn hu hne hact hz⟩
    · -- fetching an argument writes to a register
      cases hfetches.load
  · intro d r hm
    rcases List.mem_append.1 hm with hm | hm
    · rcases List.mem_append.1 hm with hm | hm
      · have hnot := Line.avoidsFrame_of_mem (f.avoidsFrame_prologue align scope.locals) hm d
        exact absurd (List.mem_singleton_self _) hnot
      · exact absurd hm (Param.lea_not_mem_spillCodes hcopied _ r)
    · obtain ⟨x, s, ⟨line, hx⟩, hs, rfl, rfl⟩ := hbody.address d r hm
      obtain ⟨n, hn⟩ := ht.sized x.name s hs
      have hpos := Ty.size?_pos hn
      have hbounds := ht.offset_neg (SymbolTable.mem_symbols_of_find? hs) hn
      exact ⟨by omega, rfl, line, x, s, hx, hs, rfl⟩
  · intro line x p part q h
    simp only [Stmt.code, Gen.emits_bind, Gen.emits_lift, Gen.emits_pure, Target.find_eq_ok_iff] at h
    obtain ⟨s, _, ⟨hs, -⟩, rfl, -⟩ := h
    exact ⟨s, hs, rfl⟩

/-- The code of every function of an accepted program keeps to its frame. -/
theorem Compilation.frameDiscipline {source : List UInt8} (hsize : source.length < 2 ^ 63) {p : Program}
    (hload : Program.load (Text.Utf8.decode source) = .ok p) {c : Compilation} (hanalyze : p.analyze.2 = .ok c)
    {cf : CheckedFunction} (hm : cf ∈ c.functions) (align : Bool) :
    ∃ listing literals before code after q r, c.generate align = .ok (listing, literals) ∧
      listing = before ++ (code ++ after) ∧
      (cf.function.code align ⟨cf.locals, c.globals⟩).Emits q code r ∧
      FrameDiscipline align ⟨cf.locals, c.globals⟩ cf.function code := by
  obtain ⟨⟨listing, literals⟩, hgen⟩ :=
    Compilation.generate_eq_ok (Program.wellFormed_of_load hload) hanalyze align
  obtain ⟨before, head, body, q, r, hhead, hbody, hstands⟩ := Compilation.exists_stands hanalyze hgen hm
  obtain ⟨after, hlisting⟩ := hstands.line
  obtain ⟨copied, hcopied, rfl⟩ := Function.exists_spill_of_headCode hhead
  obtain ⟨hf, hfunction⟩ := Program.analyze_of_mem hanalyze hm
  obtain ⟨size, hfits, htiled⟩ :=
    Function.tiled_of_locals hsize hload hf (Function.analyze_eq_ok hfunction).2.1
  have hkeeps := Function.keepsTo_of_bodyCode (Function.accepted_of_analyze hfunction) hbody
  refine ⟨listing, literals, before, _, after, q, r, hgen, hlisting, ?_,
    Function.frameDiscipline_of_code hcopied hkeeps htiled hfits⟩
  exact Function.emits_code.2 ⟨_, _, hhead, hbody, rfl⟩

/-- A function with parameters of all types, two of them on the stack, that reads, loads and stores all of them. -/
def crowded : List UInt8 :=
  "(program (func f inteiro [(param inteiro a) (param logico b) (param real c) (param caracter d) (param logico e)
      (param real g) (param logico h) (param real i)]
    [(decl inteiro (init j 5)) (assign b verdadeiro) (assign c i) (assign e h) (increment \"++\" a)
     (while b [(read g) (read d)]) (assign d \"x\") (return (binary \"+\" a j))]))".toList.map fun c => c.toNat.toUInt8

theorem crowded_frameDiscipline : ∃ p c cf, Program.load (Text.Utf8.decode crowded) = .ok p ∧ p.analyze.2 = .ok c ∧
    cf ∈ c.functions ∧ cf.locals.symbols.map (·.offset) = [-4, -5, -13, -14, -15, -23, -24, -32, -36] ∧
    ∃ listing literals before code after q r, c.generate true = .ok (listing, literals) ∧
      listing = before ++ (code ++ after) ∧
      (cf.function.code true ⟨cf.locals, c.globals⟩).Emits q code r ∧
      FrameDiscipline true ⟨cf.locals, c.globals⟩ cf.function code := by
  obtain ⟨p, hp, hoffsets⟩ : ∃ p, Program.load (Text.Utf8.decode crowded) = .ok p ∧ p.analyze.2.toOption.map
      (fun c => c.functions.map fun cf => cf.locals.symbols.map (·.offset)) =
        some [[-4, -5, -13, -14, -15, -23, -24, -32, -36]] := by
    apply exists_of_literal (g := fun text => Program.load (Text.Utf8.decode (text.map fun c => c.toNat.toUInt8)))
    decide +kernel
  have hsize : crowded.length < 2 ^ 63 := by
    apply of_literal (P := fun text => (text.map fun c => c.toNat.toUInt8).length < 2 ^ 63)
    decide +kernel
  obtain ⟨c, hc, hoffsets⟩ := map_toOption_eq_some_iff.1 hoffsets
  obtain ⟨cf, hcf, hoffsets⟩ := List.map_eq_singleton_iff.1 hoffsets
  have hm : cf ∈ c.functions := by simp [hcf]
  exact ⟨p, c, cf, hp, hc, hm, hoffsets, Compilation.frameDiscipline hsize hp hc hm true⟩

end Arvore
