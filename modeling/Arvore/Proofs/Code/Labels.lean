import Mathlib
import Arvore.Compilation
import Arvore.Proofs.Code.Pool
import Arvore.Proofs.Induction

/-!
# Labels in generated code

What code generation asks a pool for can be read off a program: which labels its statements draw (`Stmt.drawn`) and
which literals it needs (`Stmt.pooled`). Every label that is put in front of a line was drawn for that line, and
every label that was drawn is put in front of one. The code of a statement jumps to its own labels alone, and the
data that it refers to are its literals, in the order in which it needs them (`Stmt.linked_of_emits`).
-/

namespace Arvore

open Assembly

/-! ### What lines define and refer to -/

namespace Assembly

/-- The lines of a listing that are no instructions. -/
def marks (code : Listing) : Listing :=
  code.filter fun
    | .instr _ => false
    | _ => true

/-- The label that a line defines. -/
def Line.label? : Line → Option Label
  | .label l => some l
  | _ => none

/-- The label that an instruction jumps to. -/
def Instr.target? : Instr → Option Label
  | .jump l | .jumpEqual l => some l
  | _ => none

/-- The operands of an instruction that may lie in memory. -/
def Instr.operands : Instr → List Operand
  | .push src | .movSigned src _ | .movZero src _ | .lea src _ | .alu _ _ src _ => [src]
  | .mov _ src dst => [src, dst]
  | _ => []

/-- The label of the data that an operand refers to. -/
def Operand.label? : Operand → Option Label
  | .data l => some l
  | _ => none

/-- The labels of the data that an instruction refers to. -/
def Instr.uses (i : Instr) : List Label := i.operands.filterMap Operand.label?

/-- The label that a line jumps to. -/
def Line.target? : Line → Option Label
  | .instr i => i.target?
  | _ => none

/-- The labels of the data that a line refers to. -/
def Line.uses : Line → List Label
  | .instr i => i.uses
  | _ => []

/-- The labels that a listing defines. -/
def labels (code : Listing) : List Label := code.filterMap Line.label?

/-- The labels that a listing jumps to. -/
def targets (code : Listing) : List Label := code.filterMap Line.target?

/-- The labels of the data that a listing refers to. -/
def uses (code : Listing) : List Label := code.flatMap Line.uses

section

variable (a b : Listing) (code : List Instr) (l : Label)

@[simp] theorem marks_nil : marks [] = [] := rfl

@[simp] theorem marks_append : marks (a ++ b) = marks a ++ marks b := List.filter_append a b

@[simp] theorem marks_instrs : marks (instrs code) = [] := by simp [marks, instrs]

@[simp] theorem marks_label : marks (.label l :: a) = .label l :: marks a := rfl

@[simp, grind =] theorem labels_nil : labels [] = [] := rfl

@[simp, grind =] theorem labels_append : labels (a ++ b) = labels a ++ labels b := List.filterMap_append

@[simp, grind =] theorem labels_instrs : labels (instrs code) = [] := by simp [labels, instrs, Line.label?]

@[simp, grind =] theorem labels_label : labels (.label l :: a) = l :: labels a := rfl

@[simp, grind =] theorem targets_nil : targets [] = [] := rfl

@[simp, grind =] theorem targets_append : targets (a ++ b) = targets a ++ targets b := List.filterMap_append

@[simp] theorem targets_instrs : targets (instrs code) = code.filterMap Instr.target? := by
  simp [targets, instrs, Line.target?, List.filterMap_map, Function.comp_def]

@[simp, grind =] theorem targets_label : targets (.label l :: a) = targets a := rfl

@[simp, grind =] theorem uses_nil : uses [] = [] := rfl

@[simp, grind =] theorem uses_append : uses (a ++ b) = uses a ++ uses b := List.flatMap_append

@[simp] theorem uses_instrs : uses (instrs code) = code.flatMap Instr.uses := by
  simp [uses, instrs, Line.uses, List.flatMap_map]

@[simp, grind =] theorem uses_label : uses (.label l :: a) = uses a := rfl

end

@[simp, grind =] theorem targets_jump (l : Label) : targets (instrs [.jump l]) = [l] := rfl

@[simp] theorem Instr.uses_jump (l : Label) : (Instr.jump l).uses = [] := rfl

/-- Instructions that refer to no label. -/
def Line.isLocal : Line → Bool
  | .instr i => i.target?.isNone && i.uses.isEmpty
  | _ => false

theorem labels_of_local {code : Listing} (h : code.all Line.isLocal = true) :
    labels code = [] ∧ targets code = [] ∧ uses code = [] ∧ marks code = [] := by
  induction code with
  | nil => exact ⟨rfl, rfl, rfl, rfl⟩
  | cons line rest ih =>
    rw [List.all_cons, Bool.and_eq_true] at h
    obtain ⟨hl, ht, hu, hm⟩ := ih h.2
    cases line with
    | instr i =>
      obtain ⟨hi, hrest⟩ := h
      simp only [Line.isLocal, Bool.and_eq_true, Option.isNone_iff_eq_none, List.isEmpty_iff] at hi
      refine ⟨hl, ?_, ?_, hm⟩
      · have htarget : (Line.instr i).target? = none := hi.1
        rw [targets, List.filterMap_cons_none htarget]
        exact ht
      · rw [uses, List.flatMap_cons, Line.uses, hi.2]
        exact hu
    | _ => simp [Line.isLocal] at h

end Assembly

/-! ### What a program asks for -/

/-- The literal that a number is pooled as, if it is: a real, or an integer that is too wide for an operand. -/
def Numeral.pooled (text : String) : List (String × String) :=
  if isIntegral text then
    match immediate? text, integer? text with
    | none, some value => [(Category.int, toString value)]
    | _, _ => []
  else
    match realPayload text with
    | .ok payload => [(Category.float, payload)]
    | .error _ => []

namespace Expr

mutual

/-- The literals that an expression needs, each as often as it stands there. -/
def pooled : Expr → List (String × String)
  | number _ text => Numeral.pooled text
  | string _ text => [(Category.string, text)]
  | arithmetic _ _ a b | logical _ _ a b | relational _ _ a b => pooled a ++ pooled b
  | unary _ _ e => pooled e
  | call _ _ args => pooledAll args
  | boolean .. | var .. | foreign .. | absent => []

/-- The literals that several expressions need. -/
def pooledAll : List Expr → List (String × String)
  | [] => []
  | e :: rest => pooled e ++ pooledAll rest

end

end Expr

/-- The literals that the initial value of a variable needs. -/
def DeclItem.pooled (item : DeclItem) : List (String × String) := (item.init.map Expr.pooled).getD []

namespace Stmt

mutual

/-- The categories of the labels that a statement draws. -/
def drawn : Stmt → List String
  | ifThen _ _ body => Category.endBranch :: drawnAll body
  | ifElse _ _ body other => Category.otherwise :: Category.endBranch :: (drawnAll body ++ drawnAll other)
  | whileDo _ _ body => Category.whileLoop :: Category.endWhile :: drawnAll body
  | forDo _ i _ s body => Category.forLoop :: Category.endFor :: (drawn i ++ (drawnAll body ++ drawn s))
  | _ => []

/-- The categories of the labels that the statements of a block draw. -/
def drawnAll : List Stmt → List String
  | [] => []
  | s :: rest => drawn s ++ drawnAll rest

end

mutual

/-- The literals that a statement needs, each as often as it stands there. -/
def pooled : Stmt → List (String × String)
  | declare _ _ items => items.flatMap DeclItem.pooled
  | assign _ _ e | print _ e => e.pooled
  | call _ _ args => Expr.pooledAll args
  | ifThen _ c body | whileDo _ c body => c.pooled ++ pooledAll body
  | ifElse _ c body other => c.pooled ++ (pooledAll body ++ pooledAll other)
  | forDo _ i c s body => pooled i ++ (c.pooled ++ (pooledAll body ++ pooled s))
  | ret _ value => (value.map Expr.pooled).getD []
  | increment .. | read .. | foreign .. | incomplete .. => []

/-- The literals that the statements of a block need. -/
def pooledAll : List Stmt → List (String × String)
  | [] => []
  | s :: rest => pooled s ++ pooledAll rest

end

end Stmt

/-! ### Code with its labels -/

/-- The code was generated while the pool went from `p` to `q`. It defines the labels of the categories `cs` that were
drawn, and the data it refers to are the literals with the keys `ks`. Jumps in it lead to its own labels. -/
structure Linked (p : Pool) (cs : List String) (ks : List (String × String)) (code : Listing) (q : Pool) : Prop
    extends Supplies p cs (labels code) ks (uses code) q where
  jumps : targets code ⊆ labels code
  lines : marks code = (labels code).map .label

namespace Linked

variable {p q r : Pool} {cs cs' : List String} {ks ks' : List (String × String)} {a b : Listing}

theorem of_local (p : Pool) (h : a.all Line.isLocal = true) : Linked p [] [] a p := by
  obtain ⟨hl, ht, hu, hm⟩ := labels_of_local h
  refine ⟨?_, by simp [ht], by simp [hl, hm]⟩
  rw [hl, hu]
  exact .nil p

theorem nil (p : Pool) : Linked p [] [] [] p := of_local p rfl

theorem append (h : Linked p cs ks a q) (h' : Linked q cs' ks' b r) : Linked p (cs ++ cs') (ks ++ ks') (a ++ b) r := by
  refine ⟨?_, ?_, by simp [h.lines, h'.lines]⟩
  · rw [labels_append, uses_append]
    exact h.toSupplies.append h'.toSupplies
  · rw [targets_append, labels_append]
    exact List.append_subset.2 ⟨List.subset_append_of_subset_left _ h.jumps,
      List.subset_append_of_subset_right _ h'.jumps⟩

/-- Code with the labels that were drawn for it, each on one line. -/
theorem of_supplies {ls us : List Label} (h : Supplies p cs ls ks us q) (hl : ∀ l, ls.count l = (labels a).count l)
    (hu : us = uses a) (hj : targets a ⊆ labels a) (hm : marks a = (labels a).map .label) : Linked p cs ks a q :=
  ⟨hu ▸ h.perm (List.perm_iff_count.2 hl), hj, hm⟩

theorem append_local (h : Linked p cs ks a q) (hb : b.all Line.isLocal = true) : Linked p cs ks (a ++ b) q := by
  simpa using h.append (of_local q hb)

/-- Straight code that refers to one literal. -/
theorem of_intern {category payload : String} (hc : category ∈ Category.literals) {l : Label}
    (h : (Gen.intern category payload).Emits p l q) {code : List Instr} (ht : code.filterMap Instr.target? = [])
    (hu : code.flatMap Instr.uses = [l]) : Linked p [] [(category, payload)] (instrs code) q := by
  refine ⟨?_, by simp [ht], by simp⟩
  rw [labels_instrs, uses_instrs, hu]
  exact .intern hc h

/-- Every line that is no instruction is a label between the counts of the pool. -/
theorem exists_label (h : Linked p cs ks a q) {line : Line} (hm : line ∈ marks a) :
    ∃ l, line = .label l ∧ p.count l.category < l.number ∧ l.number ≤ q.count l.category := by
  rw [h.lines] at hm
  obtain ⟨l, hl, rfl⟩ := List.mem_map.1 hm
  exact ⟨l, rfl, ((h.draws.mem_iff l).1 hl).2⟩

theorem nodup_marks (h : Linked p cs ks a q) : (marks a).Nodup := by
  rw [h.lines]
  exact h.draws.nodup.map fun _ _ heq => by simpa using heq

end Linked

/-! ### Expressions -/

section Expressions

variable {target : Target} {p q r : Pool} {code : Listing}

attribute [local simp] Line.isLocal Instr.uses Instr.operands Instr.target?

theorem Symbol.local_load {s : Symbol} (h : s.load = .ok code) : code.all Line.isLocal = true := by
  obtain ⟨w, -, h⟩ := bind_eq_ok_iff.1 h
  cases w <;> cases h <;> rfl

/-- Storing refers to no label if the source does not. -/
theorem Symbol.local_storeFrom {s : Symbol} {src : Operand} (hs : src.label? = none) (h : s.storeFrom src = .ok code) :
    code.all Line.isLocal = true := by
  obtain ⟨w, -, h⟩ := bind_eq_ok_iff.1 h
  cases h
  have hplace : s.place.label? = none := rfl
  simp [instrs, hs, hplace]

theorem local_widenCode (type : Ty) : (widenCode type).all Line.isLocal = true := by
  unfold widenCode
  split <;> rfl

theorem local_callCode (function : String) (n : Nat) : (callCode function n).all Line.isLocal = true := by
  have hrepush : (instrs (repushCode n)).all Line.isLocal = true := by
    simp [instrs, repushCode, Operand.label?]
  have hregisters : (instrs (registerCode n (n - argumentRegisters.length))).all Line.isLocal = true := by
    simp [instrs, registerCode, Operand.label?]
  unfold instrs at hrepush hregisters
  simp only [callCode, instrs, List.map_append, List.all_append, hrepush, hregisters, Bool.true_and]
  split <;> rfl

theorem ArithmeticOp.local_integerCode {op : ArithmeticOp} {is : List Instr} (h : op.integerCode = .ok is) :
    (instrs is).all Line.isLocal = true := by
  cases op <;> cases h <;> rfl

theorem LogicalOp.local_code {op : LogicalOp} {is : List Instr} (h : op.code = .ok is) :
    (instrs is).all Line.isLocal = true := by
  cases op <;> cases h <;> rfl

theorem RelationalOp.local_realCode {op : RelationalOp} {is : List Instr} (h : op.realCode = .ok is) :
    (instrs is).all Line.isLocal = true := by
  cases op <;> cases h <;> rfl

theorem UnaryOp.local_code {type : Except Fault Ty} {op : UnaryOp} {is : List Instr} (h : op.code type = .ok is) :
    (instrs is).all Line.isLocal = true := by
  cases op with
  | neg =>
    obtain ⟨t, -, h⟩ := bind_eq_ok_iff.1 h
    split at h <;> cases h <;> rfl
  | not =>
    cases h
    rfl
  | other => cases h

theorem Linked.operands {ks ks' : List (String × String)} {left right : Listing} (h : Linked p [] ks left q)
    (h' : Linked q [] ks' right r) : Linked p [] (ks ++ ks') (operandsCode left right) r :=
  ((h.append_local rfl).append h').append_local rfl

theorem Linked.realOperands {ks ks' : List (String × String)} {left right : Listing} (h : Linked p [] ks left q)
    (h' : Linked q [] ks' right r) (s t : Ty) :
    Linked p [] (ks ++ ks') (operandsCode (left ++ widenCode s) (right ++ widenCode t) ++ realOperandsCode) r :=
  ((h.append_local (local_widenCode s)).operands (h'.append_local (local_widenCode t))).append_local rfl

theorem Numeral.linked_of_emits {text : String} (h : (Numeral.code text).Emits p code q) :
    Linked p [] (pooled text) code q := by
  unfold Numeral.code at h
  unfold pooled
  split at h
  · rename_i hi
    simp only [Gen.emits_bind, Gen.emits_lift, Gen.emits_pure] at h
    obtain ⟨payload, _, ⟨hp, rfl⟩, l, _, hl, rfl, rfl⟩ := h
    simp only [Bool.not_eq_true'] at hi
    simp only [hi, hp, Bool.false_eq_true, if_false]
    exact .of_intern (by simp [Category.literals]) hl rfl rfl
  · rename_i hi
    simp only [Bool.not_eq_true', Bool.not_eq_false] at hi
    rw [if_pos hi]
    split at h
    · rename_i hz
      obtain ⟨rfl, rfl⟩ := Gen.emits_pure.1 h
      simp only [hz]
      exact .of_local _ rfl
    · rename_i hz
      split at h
      · rename_i hv
        simp only [Gen.emits_bind, Gen.emits_pure] at h
        obtain ⟨l, _, hl, rfl, rfl⟩ := h
        simp only [hz, hv]
        exact .of_intern (by simp [Category.literals]) hl rfl rfl
      · exact absurd h Gen.not_emits_throw

namespace Expr

theorem linked_of_argsCode {args : List Expr}
    (ih : ∀ e ∈ args, ∀ {p q code}, (e.code target).Emits p code q → Linked p [] e.pooled code q)
    (h : (argsCode target args).Emits p code q) : Linked p [] (pooledAll args) code q := by
  induction args generalizing p q code with
  | nil =>
    simp only [argsCode, Gen.emits_pure] at h
    obtain ⟨rfl, rfl⟩ := h
    exact .nil _
  | cons e rest ihrest =>
    simp only [List.forall_mem_cons] at ih
    simp only [argsCode, Gen.emits_bind, Gen.emits_pure] at h
    obtain ⟨first, _, hf, others, _, ho, rfl, rfl⟩ := h
    exact ((ih.1 hf).append_local rfl).append (ihrest ih.2 ho)

/-- The code of an expression defines no labels and refers to the literals of the expression. -/
theorem linked_of_emits {e : Expr} (h : (e.code target).Emits p code q) : Linked p [] e.pooled code q := by
  induction e generalizing p q code with
  | number line text => exact Numeral.linked_of_emits (by simpa only [Expr.code] using h)
  | string line text =>
    simp only [Expr.code, Gen.emits_bind, Gen.emits_pure] at h
    obtain ⟨l, _, hl, rfl, rfl⟩ := h
    exact .of_intern (by simp [Category.literals]) hl rfl rfl
  | boolean line word =>
    simp only [Expr.code, Gen.emits_pure] at h
    obtain ⟨rfl, rfl⟩ := h
    exact .of_local _ rfl
  | var line name =>
    simp only [Expr.code, Gen.emits_bind, Gen.emits_lift] at h
    obtain ⟨s, _, ⟨-, rfl⟩, hl, rfl⟩ := h
    exact .of_local _ (Symbol.local_load hl)
  | arithmetic line op a b iha ihb =>
    simp only [Expr.code, Gen.emits_bind, Gen.emits_lift] at h
    obtain ⟨type, _, ⟨-, rfl⟩, left, _, hl, right, _, hr, h⟩ := h
    split at h
    · simp only [Gen.emits_bind, Gen.emits_lift, Gen.emits_pure] at h
      obtain ⟨_, _, ⟨-, rfl⟩, _, _, ⟨-, rfl⟩, _, _, ⟨-, rfl⟩, rfl, rfl⟩ := h
      exact ((iha hl).realOperands (ihb hr) _ _).append_local rfl
    · simp only [Gen.emits_bind, Gen.emits_lift, Gen.emits_pure] at h
      obtain ⟨is, _, ⟨hi, rfl⟩, rfl, rfl⟩ := h
      refine ((iha hl).operands (ihb hr)).append_local ?_
      have hi := ArithmeticOp.local_integerCode hi
      simp only [instrs, List.map_append, List.all_append, Bool.and_eq_true] at hi ⊢
      exact ⟨hi, rfl⟩
  | logical line op a b iha ihb =>
    simp only [Expr.code, Gen.emits_bind, Gen.emits_lift, Gen.emits_pure] at h
    obtain ⟨left, _, hl, right, _, hr, _, _, ⟨ho, rfl⟩, rfl, rfl⟩ := h
    exact ((iha hl).operands (ihb hr)).append_local (LogicalOp.local_code ho)
  | relational line op a b iha ihb =>
    simp only [Expr.code, Gen.emits_bind, Gen.emits_lift] at h
    obtain ⟨_, _, ⟨-, rfl⟩, _, _, ⟨-, rfl⟩, left, _, hl, right, _, hr, h⟩ := h
    split at h
    · simp only [Gen.emits_bind, Gen.emits_lift, Gen.emits_pure] at h
      obtain ⟨is, _, ⟨hi, rfl⟩, rfl, rfl⟩ := h
      refine ((iha hl).realOperands (ihb hr) _ _).append_local ?_
      have hi := RelationalOp.local_realCode hi
      simp only [instrs, List.map_append, List.all_append, Bool.and_eq_true] at hi ⊢
      exact ⟨hi, rfl⟩
    · simp only [Gen.emits_bind, Gen.emits_lift, Gen.emits_pure] at h
      obtain ⟨_, _, ⟨-, rfl⟩, rfl, rfl⟩ := h
      exact ((iha hl).operands (ihb hr)).append_local rfl
  | unary line op e ih =>
    simp only [Expr.code, Gen.emits_bind, Gen.emits_lift, Gen.emits_pure] at h
    obtain ⟨operand, _, he, _, _, ⟨ho, rfl⟩, rfl, rfl⟩ := h
    exact (ih he).append_local (UnaryOp.local_code ho)
  | call line callee args ih =>
    simp only [Expr.code, Gen.emits_bind, Gen.emits_pure] at h
    obtain ⟨stacked, _, hs, rfl, rfl⟩ := h
    exact (linked_of_argsCode ih hs).append_local (local_callCode _ _)
  | foreign line kind | absent => simp [Expr.code] at h

/-- A value that needs no code needs no literal. -/
theorem pooled_of_immediate {e : Expr} {n : Int} (h : e.immediate? = some n) : e.pooled = [] := by
  cases e with
  | number line text =>
    have hz : Numeral.immediate? text = some n := h
    have hi : Numeral.isIntegral text = true := by
      by_contra hi
      simp [Numeral.immediate?, hi] at hz
    simp [pooled, Numeral.pooled, hi, hz]
  | boolean => rfl
  | _ => cases h

end Expr

theorem Symbol.linked_of_assignCode {s : Symbol} {e : Expr} (h : (s.assignCode target e).Emits p code q) :
    Linked p [] e.pooled code q := by
  unfold Symbol.assignCode at h
  split at h
  · rename_i hn
    obtain ⟨hs, rfl⟩ := Gen.emits_lift.1 h
    rw [Expr.pooled_of_immediate hn]
    exact .of_local _ (Symbol.local_storeFrom rfl hs)
  · simp only [Gen.emits_bind, Gen.emits_lift, Gen.emits_pure] at h
    obtain ⟨computed, _, hc, stored, _, ⟨hs, rfl⟩, rfl, rfl⟩ := h
    exact (Expr.linked_of_emits hc).append_local (Symbol.local_storeFrom rfl hs)

theorem DeclItem.linked_of_emits {item : DeclItem} (h : (item.code target).Emits p code q) :
    Linked p [] item.pooled code q := by
  obtain ⟨x, init⟩ := item
  cases init with
  | none =>
    obtain ⟨rfl, rfl⟩ := Gen.emits_pure.1 h
    exact .nil _
  | some e =>
    simp only [DeclItem.code, Gen.emits_bind, Gen.emits_lift] at h
    obtain ⟨s, _, ⟨-, rfl⟩, h⟩ := h
    exact Symbol.linked_of_assignCode h

theorem DeclItem.linked_of_codes {items : List DeclItem} (h : (DeclItem.codes target items).Emits p code q) :
    Linked p [] (items.flatMap DeclItem.pooled) code q := by
  induction items generalizing p q code with
  | nil =>
    obtain ⟨rfl, rfl⟩ := Gen.emits_pure.1 h
    exact .nil _
  | cons item rest ih =>
    simp only [DeclItem.codes, Gen.emits_bind, Gen.emits_pure] at h
    obtain ⟨first, _, hf, others, _, ho, rfl, rfl⟩ := h
    exact (DeclItem.linked_of_emits hf).append (ih ho)

theorem Expr.linked_of_printCode {e : Expr} (h : (e.printCode target).Emits p code q) :
    Linked p [] e.pooled code q := by
  unfold Expr.printCode at h
  split at h
  · simp only [Gen.emits_bind, Gen.emits_pure] at h
    obtain ⟨l, _, hl, rfl, rfl⟩ := h
    exact .of_intern (by simp [Category.literals]) hl rfl rfl
  · simp only [Gen.emits_bind, Gen.emits_pure] at h
    obtain ⟨computed, _, hc, rfl, rfl⟩ := h
    exact (Expr.linked_of_emits hc).append_local rfl

end Expressions

/-! ### Statements -/

section Statements

variable {target : Target} {p q : Pool} {code : Listing}

section

variable (cond : Listing) (l : Label)

@[simp] theorem marks_testCode : marks (testCode cond l) = marks cond := by simp [testCode]

@[simp, grind =] theorem labels_testCode : labels (testCode cond l) = labels cond := by simp [testCode]

@[simp, grind =] theorem targets_testCode : targets (testCode cond l) = targets cond ++ [l] := by
  rw [testCode, targets_append]
  rfl

@[simp, grind =] theorem uses_testCode : uses (testCode cond l) = uses cond := by
  rw [testCode, uses_append]
  exact List.append_nil _

end

theorem Stmt.linked_of_codes {body : List Stmt}
    (ih : ∀ s ∈ body, ∀ {p q code}, (s.code target).Emits p code q → Linked p s.drawn s.pooled code q)
    (h : (Stmt.codes target body).Emits p code q) : Linked p (drawnAll body) (pooledAll body) code q := by
  induction body generalizing p q code with
  | nil =>
    simp only [Stmt.codes, Gen.emits_pure] at h
    obtain ⟨rfl, rfl⟩ := h
    exact .nil _
  | cons s rest ihrest =>
    simp only [List.forall_mem_cons] at ih
    simp only [Stmt.codes, Gen.emits_bind, Gen.emits_pure] at h
    obtain ⟨first, _, hf, others, _, ho, rfl, rfl⟩ := h
    exact (ih.1 hf).append (ihrest ih.2 ho)

/-- The code of a statement defines the labels that it draws, jumps to no others and refers to the literals that it
needs. -/
theorem Stmt.linked_of_emits {s : Stmt} (h : (s.code target).Emits p code q) : Linked p s.drawn s.pooled code q := by
  -- branches and loops draw their labels before the code between them: the pool gives them out in another order than
  -- that of the lines
  induction s generalizing p q code with
  | declare line type items => exact DeclItem.linked_of_codes (by simpa only [Stmt.code] using h)
  | assign line x e =>
    simp only [Stmt.code, Gen.emits_bind, Gen.emits_lift] at h
    obtain ⟨s, _, ⟨-, rfl⟩, h⟩ := h
    exact Symbol.linked_of_assignCode h
  | increment line op x =>
    simp only [Stmt.code, Gen.emits_bind, Gen.emits_lift, Gen.emits_pure] at h
    obtain ⟨s, _, ⟨-, rfl⟩, loaded, _, ⟨hl, rfl⟩, i, _, ⟨hi, rfl⟩, stored, _, ⟨hs, rfl⟩, rfl, rfl⟩ := h
    have hstep : (instrs [i]).all Line.isLocal = true := by cases op <;> cases hi <;> rfl
    exact ((Linked.of_local _ (Symbol.local_load hl)).append_local hstep).append_local (Symbol.local_storeFrom rfl hs)
  | call line callee args =>
    exact Expr.linked_of_emits (e := .call line callee args) (by simpa only [Stmt.code] using h)
  | ifThen line c body ih =>
    simp only [Stmt.code, Gen.emits_bind, Gen.emits_pure] at h
    obtain ⟨done, _, hdone, cond, _, hcond, inner, _, hinner, rfl, rfl⟩ := h
    have hc := Expr.linked_of_emits hcond
    have hb := linked_of_codes ih hinner
    have hs := (Supplies.fresh (by simp [Category.control]) hdone).append (hc.toSupplies.append hb.toSupplies)
    refine .of_supplies hs (by grind) (by simp) ?_ (by simp [hc.lines, hb.lines])
    grind [hc.jumps, hb.jumps]
  | ifElse line c body other ihb iho =>
    simp only [Stmt.code, Gen.emits_bind, Gen.emits_pure] at h
    obtain ⟨otherwise, _, hother, done, _, hdone, cond, _, hcond, first, _, hfirst, second, _, hsecond, rfl, rfl⟩ := h
    have hc := Expr.linked_of_emits hcond
    have hb := linked_of_codes ihb hfirst
    have ho := linked_of_codes iho hsecond
    have hs := (Supplies.fresh (by simp [Category.control]) hother).append
      ((Supplies.fresh (by simp [Category.control]) hdone).append
        (hc.toSupplies.append (hb.toSupplies.append ho.toSupplies)))
    refine .of_supplies hs (by grind) (by simp) ?_ (by simp [hc.lines, hb.lines, ho.lines])
    simp only [targets_append, targets_testCode, targets_jump, targets_label, targets_nil, labels_append,
      labels_testCode, labels_instrs, labels_label, labels_nil]
    grind [hc.jumps, hb.jumps, ho.jumps]
  | whileDo line c body ih =>
    simp only [Stmt.code, Gen.emits_bind, Gen.emits_pure] at h
    obtain ⟨top, _, htop, done, _, hdone, cond, _, hcond, inner, _, hinner, rfl, rfl⟩ := h
    have hc := Expr.linked_of_emits hcond
    have hb := linked_of_codes ih hinner
    have hs := (Supplies.fresh (by simp [Category.control]) htop).append
      ((Supplies.fresh (by simp [Category.control]) hdone).append (hc.toSupplies.append hb.toSupplies))
    refine .of_supplies hs (by grind) (by simp) ?_ (by simp [hc.lines, hb.lines])
    grind [hc.jumps, hb.jumps]
  | forDo line i c s body ihi ihs ih =>
    simp only [Stmt.code, Gen.emits_bind, Gen.emits_pure] at h
    obtain ⟨top, _, htop, done, _, hdone, init, _, hinit, cond, _, hcond, inner, _, hinner, step, _, hstep, rfl, rfl⟩ :=
      h
    have hi := ihi hinit
    have hc := Expr.linked_of_emits hcond
    have hb := linked_of_codes ih hinner
    have hn := ihs hstep
    have hs := (Supplies.fresh (by simp [Category.control]) htop).append
      ((Supplies.fresh (by simp [Category.control]) hdone).append
        (hi.toSupplies.append (hc.toSupplies.append (hb.toSupplies.append hn.toSupplies))))
    refine .of_supplies hs (by grind) (by simp) ?_ (by simp [hi.lines, hc.lines, hb.lines, hn.lines])
    simp only [targets_append, targets_testCode, targets_jump, targets_label, targets_nil, labels_append,
      labels_testCode, labels_instrs, labels_label, labels_nil]
    grind [hi.jumps, hc.jumps, hb.jumps, hn.jumps]
  | read line x =>
    simp only [Stmt.code, Gen.emits_bind, Gen.emits_lift, Gen.emits_pure] at h
    obtain ⟨s, _, ⟨-, rfl⟩, rfl, rfl⟩ := h
    exact .of_local _ rfl
  | print line e => exact Expr.linked_of_printCode (by simpa only [Stmt.code] using h)
  | ret line value =>
    cases value with
    | none =>
      simp only [Stmt.code, Gen.emits_pure] at h
      obtain ⟨rfl, rfl⟩ := h
      exact .of_local _ rfl
    | some e =>
      simp only [Stmt.code, Gen.emits_bind, Gen.emits_pure] at h
      obtain ⟨computed, _, hc, rfl, rfl⟩ := h
      exact (Expr.linked_of_emits hc).append_local rfl
  | foreign line kind | incomplete line kind => simp [Stmt.code] at h

end Statements

end Arvore
