import Mathlib
import Arvore.Proofs.Simulation.Expr

/-!
# The shape of code

The code of statements on integers and truth values, by what it is for. The relation `Task.Code` gives the shape of the
code without the generation around it, with whatever labels were drawn; the loop of a `while` and of a `for` is one
shape. What is generated for an accepted statement has its shape (`Stmt.code_of_emits`).
-/

namespace Arvore

open Assembly Machine

/-! ### How deep statements compute -/

namespace Stmt

mutual

/-- The number of words that the expressions of a statement need on the stack. -/
def depth : Stmt → Nat
  | declare _ _ items => (items.map fun item => (item.init.map Expr.depth).getD 0).foldr max 0
  | assign _ _ e => e.depth
  | ifThen _ c body => max c.depth (depthAll body)
  | ifElse _ c body other => max c.depth (max (depthAll body) (depthAll other))
  | whileDo _ c body => max c.depth (depthAll body)
  | forDo _ i c s body => max (max (depth i) c.depth) (max (depth s) (depthAll body))
  | ret _ value => (value.map Expr.depth).getD 0
  | _ => 0

/-- The number of words that the statements of a block need. -/
def depthAll : List Stmt → Nat
  | [] => 0
  | s :: rest => max (depth s) (depthAll rest)

end

end Stmt

/-! ### The shape of code -/

/-- Stores the value of an expression into the slot of a variable: a number directly, another value from `%rax`. -/
inductive AssignCode (scope : Scope) (words : Nat) (x : String) (e : Expr) : List Instr → Prop
  | direct {symbol w z} (hx : scope.locals.find? x = some symbol) (hw : symbol.type.width = .ok w)
      (he : Compiles scope e symbol.type [.mov .quad (.imm z) (.reg .rax)]) (hz : e.immediate? = some z) :
      AssignCode scope words x e [.mov w (.imm z) symbol.place]
  | computed {symbol w code} (hx : scope.locals.find? x = some symbol) (hw : symbol.type.width = .ok w)
      (he : Compiles scope e symbol.type code) (hd : e.depth ≤ words) :
      AssignCode scope words x e (code ++ [Instr.mov w (.reg .rax) symbol.place])

/-- The instructions for the initial values of a declaration. -/
inductive ItemsCode (scope : Scope) (words : Nat) : List DeclItem → List Instr → Prop
  | nil : ItemsCode scope words [] []
  | skip {item rest code} (hi : item.init = none) (hr : ItemsCode scope words rest code) :
      ItemsCode scope words (item :: rest) code
  | init {item rest e first code} (hi : item.init = some e) (he : AssignCode scope words item.target.name e first)
      (hr : ItemsCode scope words rest code) : ItemsCode scope words (item :: rest) (first ++ code)

/-- The instructions that count a variable on. -/
def incrementInstrs (op : StepOp) (symbol : Symbol) : List Instr :=
  [.movSigned symbol.place .rax, .alu (if op = .down then .sub else .add) .quad (.imm 1) .rax,
    .mov .long (.reg .rax) symbol.place]

/-- Code by the task that it is for. -/
inductive Task.Code (scope : Scope) (words : Nat) : Task → Listing → Prop
  | declare {line type items code} (h : ItemsCode scope words items code) :
      Code scope words (.stmt (.declare line type items)) (instrs code)
  | assign {line x e code} (h : AssignCode scope words x.name e code) :
      Code scope words (.stmt (.assign line x e)) (instrs code)
  | increment {line op x symbol} (hx : scope.locals.find? x.name = some symbol) (ht : symbol.type = .integer) :
      Code scope words (.stmt (.increment line op x)) (instrs (incrementInstrs op symbol))
  | ifThen {line c body cond block done} (hc : Compiles scope c .logical cond) (hd : c.depth ≤ words)
      (hb : Code scope words (.block body) block) :
      Code scope words (.stmt (.ifThen line c body)) (testCode (instrs cond) done ++ (block ++ [Line.label done]))
  | ifElse {line c body other cond block second otherwise done} (hc : Compiles scope c .logical cond)
      (hd : c.depth ≤ words) (hb : Code scope words (.block body) block)
      (ho : Code scope words (.block other) second) :
      Code scope words (.stmt (.ifElse line c body other)) (testCode (instrs cond) otherwise ++
        (block ++ (instrs [.jump done] ++ ([Line.label otherwise] ++ (second ++ [Line.label done])))))
  | whileDo {line c body code} (h : Code scope words (.loop c body []) code) :
      Code scope words (.stmt (.whileDo line c body)) code
  | forDo {line i c s body init code} (hi : Code scope words (.stmt i) init)
      (h : Code scope words (.loop c body [s]) code) :
      Code scope words (.stmt (.forDo line i c s body)) (init ++ code)
  | leave {line} : Code scope words (.stmt (.ret line none)) leaveCode
  | result {line e t code} (he : Compiles scope e t code) (hd : e.depth ≤ words) :
      Code scope words (.stmt (.ret line (some e))) (instrs code ++ leaveCode)
  | nil : Code scope words (.block []) []
  | cons {s rest first others} (h : Code scope words (.stmt s) first) (hr : Code scope words (.block rest) others) :
      Code scope words (.block (s :: rest)) (first ++ others)
  | loop {c body step cond block after top done} (hc : Compiles scope c .logical cond) (hd : c.depth ≤ words)
      (hb : Code scope words (.block body) block) (hs : Code scope words (.block step) after) :
      Code scope words (.loop c body step) ([.label top] ++ (testCode (instrs cond) done ++
        (block ++ (after ++ (instrs [.jump top] ++ [.label done])))))

/-! ### Generated code has its shape -/

section Emits

variable {target : Target} {p q : Pool} {code : Listing} {words : Nat}

theorem Expr.compiles_of_immediate {scope : Scope} {e : Expr} {t : Ty} {z : Int} (hz : e.immediate? = some z)
    (ht : e.typeOf scope = .ok t) : Compiles scope e t [.mov .quad (.imm z) (.reg .rax)] := by
  cases e with
  | number line text =>
    have hz : Numeral.immediate? text = some z := hz
    rw [typeOf, Numeral.type, if_pos (Numeral.immediate?_eq_some hz).1] at ht
    cases ht
    exact .number hz
  | boolean line word =>
    rw [typeOf] at ht
    cases ht
    cases hz
    exact .boolean
  | _ => cases hz

theorem Symbol.storeFrom_cases {s : Symbol} {src : Operand} {code : Listing} (h : s.storeFrom src = .ok code) :
    ∃ w, s.type.width = .ok w ∧ code = instrs [.mov w src s.place] := by
  obtain ⟨w, hw, h⟩ := bind_eq_ok_iff.1 h
  cases h
  exact ⟨w, hw, rfl⟩

theorem Symbol.assignCode_of_emits {symbol : Symbol} {x : String} {e : Expr} (hs : target.scope.Scalar)
    (hx : target.scope.locals.find? x = some symbol) (he : e.isScalar = true)
    (ht : e.typeOf target.scope = .ok symbol.type) (hd : e.depth ≤ words)
    (h : (symbol.assignCode target e).Emits p code q) :
    ∃ is, code = instrs is ∧ AssignCode target.scope words x e is := by
  unfold Symbol.assignCode at h
  split at h
  · rename_i z hz
    obtain ⟨h, -⟩ := Gen.emits_lift.1 h
    obtain ⟨w, hw, rfl⟩ := Symbol.storeFrom_cases h
    exact ⟨_, rfl, .direct hx hw (Expr.compiles_of_immediate hz ht) hz⟩
  · simp only [Gen.emits_bind, Gen.emits_lift, Gen.emits_pure] at h
    obtain ⟨computed, _, hc, stored, _, ⟨hst, -⟩, rfl, -⟩ := h
    obtain ⟨-, is, rfl, hcompiles⟩ := Expr.compiles_of_emits hs he ht hc
    obtain ⟨w, hw, rfl⟩ := Symbol.storeFrom_cases hst
    exact ⟨_, (instrs_append _ _).symm, .computed hx hw hcompiles hd⟩

theorem DeclItem.codes_of_emits {items : List DeclItem} {type : Ty} (hs : target.scope.Scalar)
    (ha : ∀ item ∈ items, item.Accepted target.scope type)
    (hi : ∀ item ∈ items, ∀ e, item.init = some e → e.isScalar = true ∧ e.depth ≤ words)
    (h : (DeclItem.codes target items).Emits p code q) :
    ∃ is, code = instrs is ∧ ItemsCode target.scope words items is := by
  induction items generalizing p q code with
  | nil =>
    obtain ⟨rfl, -⟩ := Gen.emits_pure.1 h
    exact ⟨[], rfl, .nil⟩
  | cons item rest ih =>
    simp only [List.forall_mem_cons] at ha hi
    simp only [DeclItem.codes, Gen.emits_bind, Gen.emits_pure] at h
    obtain ⟨first, r, hf, others, r', ho, rfl, -⟩ := h
    obtain ⟨code, rfl, hrest⟩ := ih ha.2 hi.2 ho
    unfold DeclItem.code at hf
    split at hf
    · rename_i hnone
      obtain ⟨rfl, -⟩ := Gen.emits_pure.1 hf
      exact ⟨code, rfl, .skip hnone hrest⟩
    · rename_i e hsome
      simp only [Gen.emits_bind, Gen.emits_lift, Target.find_eq_ok_iff] at hf
      obtain ⟨symbol, _, ⟨hx, rfl⟩, hf⟩ := hf
      obtain ⟨symbol', hx', htype⟩ := ha.1.target
      rw [hx] at hx'
      cases hx'
      obtain ⟨hscalar, hd⟩ := hi.1 e hsome
      have ht := ha.1.init e hsome
      rw [← htype] at ht
      obtain ⟨is, rfl, hassign⟩ := Symbol.assignCode_of_emits hs hx hscalar ht hd hf
      exact ⟨_, (instrs_append _ _).symm, .init hsome hassign hrest⟩

theorem Stmt.incrementCode_of_emits {line : Int} {op : StepOp} {x : Ident}
    (hx : target.scope.Declares x.name .integer) (h : ((Stmt.increment line op x).code target).Emits p code q) :
    ∃ symbol, target.scope.locals.find? x.name = some symbol ∧ symbol.type = .integer ∧
      code = instrs (incrementInstrs op symbol) := by
  obtain ⟨symbol, hf, ht⟩ := hx
  simp only [Stmt.code, Gen.emits_bind, Gen.emits_lift, Target.find_eq_ok_iff, hf, Gen.emits_pure] at h
  obtain ⟨_, _, ⟨h, rfl⟩, loaded, _, ⟨hl, rfl⟩, i, _, ⟨hi, rfl⟩, stored, _, ⟨hst, rfl⟩, rfl, -⟩ := h
  cases h
  refine ⟨symbol, hf, ht, ?_⟩
  simp only [Symbol.load, ht, Ty.width, bind_eq_ok_iff] at hl
  obtain ⟨_, hw, hl⟩ := hl
  cases hw
  cases hl
  obtain ⟨w, hw, rfl⟩ := Symbol.storeFrom_cases hst
  rw [ht] at hw
  cases hw
  cases op <;> cases hi <;> rfl

theorem Stmt.blockCode_of_emits {body : List Stmt}
    (ih : ∀ s ∈ body, ∀ {p q code}, (s.code target).Emits p code q → Task.Code target.scope words (.stmt s) code)
    (h : (Stmt.codes target body).Emits p code q) : Task.Code target.scope words (.block body) code := by
  induction body generalizing p q code with
  | nil =>
    simp only [Stmt.codes, Gen.emits_pure] at h
    obtain ⟨rfl, -⟩ := h
    exact .nil
  | cons s rest ihrest =>
    simp only [List.forall_mem_cons] at ih
    simp only [Stmt.codes, Gen.emits_bind, Gen.emits_pure] at h
    obtain ⟨first, _, hf, others, _, ho, rfl, -⟩ := h
    exact .cons (ih.1 hf) (ihrest ih.2 ho)

theorem Stmt.depth_le_depthAll {body : List Stmt} {s : Stmt} (h : s ∈ body) : s.depth ≤ depthAll body := by
  induction body with
  | nil => cases h
  | cons s' rest ih =>
    rw [depthAll]
    rcases List.mem_cons.1 h with rfl | h
    · exact le_max_left _ _
    · exact (ih h).trans (le_max_right _ _)

theorem Stmt.depth_init_le {line : Int} {type : Ty} {items : List DeclItem} {item : DeclItem} {e : Expr}
    (hm : item ∈ items) (hi : item.init = some e) : e.depth ≤ (Stmt.declare line type items).depth := by
  rw [depth]
  induction items with
  | nil => cases hm
  | cons item' rest ih =>
    rw [List.map_cons, List.foldr_cons]
    rcases List.mem_cons.1 hm with rfl | hm
    · rw [hi]
      exact le_max_left _ _
    · exact (ih hm).trans (le_max_right _ _)

/-- The code that is generated for an accepted statement on integers and truth values. -/
theorem Stmt.code_of_emits (place : Place) {s : Stmt} (hp : place.scope = target.scope) (hs : target.scope.Scalar)
    (ha : s.Accepted place) (hsc : s.isScalar = true) (hd : s.depth ≤ words) (h : (s.code target).Emits p code q) :
    Task.Code target.scope words (.stmt s) code := by
  have block {body : List Stmt}
      (ih : ∀ s ∈ body, ∀ {p q code}, s.Accepted place → s.isScalar = true → s.depth ≤ words →
        (s.code target).Emits p code q → Task.Code target.scope words (.stmt s) code)
      (ha : ∀ s ∈ body, s.Accepted place) (hsc : allScalar body = true) (hd : depthAll body ≤ words) {p q code}
      (h : (codes target body).Emits p code q) : Task.Code target.scope words (.block body) code :=
    blockCode_of_emits (fun s hm _ _ _ => ih s hm (ha s hm) (allScalar_iff.1 hsc s hm)
      ((depth_le_depthAll hm).trans hd)) h
  induction s generalizing p q code with
  | declare line type items =>
    cases ha with
    | declare ha =>
      rw [hp] at ha
      simp only [isScalar, List.all_eq_true, Option.all_eq_true] at hsc
      obtain ⟨is, rfl, hi⟩ := DeclItem.codes_of_emits hs ha
        (fun item hm e he => ⟨hsc item hm e he, (depth_init_le hm he).trans hd⟩) (by simpa only [Stmt.code] using h)
      exact .declare hi
  | assign line x e =>
    cases ha with
    | assign hx he =>
      obtain ⟨symbol, hf, rfl⟩ := hx
      rw [hp] at hf he
      simp only [Stmt.code, Gen.emits_bind, Gen.emits_lift, Target.find_eq_ok_iff, hf] at h
      obtain ⟨_, _, ⟨h, rfl⟩, h'⟩ := h
      cases h
      obtain ⟨is, rfl, hassign⟩ := Symbol.assignCode_of_emits hs hf hsc he hd h'
      exact .assign hassign
  | increment line op x =>
    cases ha with
    | increment hx =>
      rw [hp] at hx
      obtain ⟨symbol, hf, ht, rfl⟩ := incrementCode_of_emits hx h
      exact .increment hf ht
  | ifThen line c body ih =>
    cases ha with
    | ifThen hc hb =>
      rw [hp] at hc
      simp only [isScalar, Bool.and_eq_true] at hsc
      simp only [depth, max_le_iff] at hd
      simp only [Stmt.code, Gen.emits_bind, Gen.emits_fresh, Gen.emits_pure] at h
      obtain ⟨done, _, -, cond, _, hcond, inner, _, hinner, rfl, -⟩ := h
      obtain ⟨-, is, rfl, hcompiles⟩ := Expr.compiles_of_emits hs hsc.1 hc hcond
      rw [List.append_assoc]
      exact .ifThen hcompiles hd.1 (block ih hb hsc.2 hd.2 hinner)
  | ifElse line c body other ihb iho =>
    cases ha with
    | ifElse hc hb ho =>
      rw [hp] at hc
      simp only [isScalar, Bool.and_eq_true] at hsc
      simp only [depth, max_le_iff] at hd
      simp only [Stmt.code, Gen.emits_bind, Gen.emits_fresh, Gen.emits_pure] at h
      obtain ⟨otherwise, _, -, done, _, -, cond, _, hcond, first, _, hfirst, second, _, hsecond, rfl, -⟩ := h
      obtain ⟨-, is, rfl, hcompiles⟩ := Expr.compiles_of_emits hs hsc.1.1 hc hcond
      simp only [List.append_assoc]
      exact .ifElse hcompiles hd.1 (block ihb hb hsc.1.2 hd.2.1 hfirst) (block iho ho hsc.2 hd.2.2 hsecond)
  | whileDo line c body ih =>
    cases ha with
    | whileDo hc hb =>
      rw [hp] at hc
      simp only [isScalar, Bool.and_eq_true] at hsc
      simp only [depth, max_le_iff] at hd
      simp only [Stmt.code, Gen.emits_bind, Gen.emits_fresh, Gen.emits_pure] at h
      obtain ⟨top, _, -, done, _, -, cond, _, hcond, inner, _, hinner, rfl, -⟩ := h
      obtain ⟨-, is, rfl, hcompiles⟩ := Expr.compiles_of_emits hs hsc.1 hc hcond
      simp only [List.append_assoc]
      exact .whileDo (.loop hcompiles hd.1 (block ih hb hsc.2 hd.2 hinner) .nil)
  | forDo line i c s body ihi ihs ih =>
    cases ha with
    | forDo hi _ hc hst _ hb =>
      rw [hp] at hc
      simp only [isScalar, Bool.and_eq_true] at hsc
      simp only [depth, max_le_iff] at hd
      simp only [Stmt.code, Gen.emits_bind, Gen.emits_fresh, Gen.emits_pure] at h
      obtain ⟨top, _, -, done, _, -, init, _, hinit, cond, _, hcond, inner, _, hinner, step, _, hstep, rfl, -⟩ := h
      obtain ⟨-, is, rfl, hcompiles⟩ := Expr.compiles_of_emits hs hsc.1.1.2 hc hcond
      have hstep := Task.Code.cons (ihs hst hsc.1.2 hd.2.1 hstep) .nil
      rw [List.append_nil] at hstep
      simp only [List.append_assoc]
      exact .forDo (ihi hi hsc.1.1.1 hd.1.1 hinit) (.loop hcompiles hd.1.2 (block ih hb hsc.2 hd.2.2 hinner) hstep)
  | ret line value =>
    cases ha with
    | leave =>
      simp only [Stmt.code, Gen.emits_pure] at h
      obtain ⟨rfl, -⟩ := h
      exact .leave
    | result he =>
      rw [hp] at he
      simp only [Stmt.code, Gen.emits_bind, Gen.emits_pure] at h
      obtain ⟨computed, _, hc, rfl, -⟩ := h
      obtain ⟨-, is, rfl, hcompiles⟩ := Expr.compiles_of_emits hs (by simpa [isScalar] using hsc) he hc
      exact .result hcompiles hd
  | call | read | print | foreign | incomplete => simp [isScalar] at hsc

end Emits

end Arvore
