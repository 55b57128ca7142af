import Mathlib
import Arvore.Proofs.Code.Listing
import Arvore.Proofs.Simulation.Stmt
import Arvore.Proofs.Size

/-!
# Functions do what they say

The code of a function on integers and truth values, run in the listing of its program from the frame that its head has
made, follows the run of its body on the store that the frame holds (`compiled_body_follows_run`).
-/

namespace Arvore

open Assembly Machine

/-! ### Leaving a function -/

/-- Takes the frame off and goes on at the return address, which lies above the frame pointer that was saved. -/
theorem runs_leave {img : Image} {k : Nat} (h : Placed img k leaveCode) (s : State) :
    ∃ s', Runs img ⟨k, s⟩ ⟨s.mem.read (off (s.regs .rbp) 8) 8, s'⟩ ∧ s'.mem = s.mem ∧
      s'.regs .rsp = off (s.regs .rbp) 16 ∧ s'.regs .rbp = BitVec.ofNat 64 (s.mem.read (s.regs .rbp) 8) ∧
      s'.regs .rax = s.regs .rax := by
  let u : State := ({ s with regs := Function.update s.regs .rsp (s.regs .rbp) } : State).drop.set .rbp
    (BitVec.ofNat 64 (s.mem.read (s.regs .rbp) 8))
  have hsp : u.regs .rsp = off (s.regs .rbp) 8 := by simp [u, off]
  have hleave : step img ⟨k, s⟩ = some ⟨k + 1, u⟩ := step_of_act h.head rfl
  have htop : u.top.toNat = s.mem.read (off (s.regs .rbp) 8) 8 := by
    rw [State.top, hsp, BitVec.toNat_ofNat]
    exact Nat.mod_eq_of_lt (Memory.read_lt _ _ 8)
  have hret : step img ⟨k + 1, u⟩ = some ⟨s.mem.read (off (s.regs .rbp) 8) 8, u.drop⟩ := by
    simp only [step, h.tail.head, htop]
  refine ⟨u.drop, (Runs.of_step hleave).trans (.of_step hret), rfl, ?_, ?_, ?_⟩
  · rw [State.drop_rsp, hsp]
    exact off_off (s.regs .rbp) 8 8
  · simp [u]
  · simp [u]

/-- A block whose last statement leaves the function does not end behind it. -/
theorem Exec.not_isReturn {body : List Stmt} {σ σ' : Store} (h : Exec σ (.block body) (.next σ')) :
    (body.getLast?.map Stmt.isReturn).getD false = false := by
  induction body generalizing σ with
  | nil => rfl
  | cons s rest ih =>
    cases h with
    | cons hs hr =>
      cases rest with
      | nil =>
        cases s with
        | ret line value => cases hs
        | _ => rfl
      | cons s' rest =>
        rw [List.getLast?_cons_cons]
        exact ih hr

/-! ### The store in a frame -/

/-- The values of the variables in a frame. -/
def Machine.State.store (locals : SymbolTable) (s : State) : Store := fun x =>
  match locals.find? x with
  | none => .truth false
  | some symbol =>
    if symbol.type = .integer then .int (BitVec.ofNat 32 (s.mem.read (s.regs .rbp + BitVec.ofInt 64 symbol.offset) 4))
    else .truth (s.mem.read (s.regs .rbp + BitVec.ofInt 64 symbol.offset) 1 = 1)

theorem Machine.State.holds_store {scope : Scope} (hscalar : scope.Scalar) {s : State}
    (hbits : ∀ x symbol, scope.locals.find? x = some symbol → symbol.type = .logical →
      s.mem.read (s.regs .rbp + BitVec.ofInt 64 symbol.offset) 1 ≤ 1) {x : String} {symbol : Symbol}
    (hx : scope.locals.find? x = some symbol) : symbol.Holds s.mem (s.regs .rbp) (s.store scope.locals x) := by
  have htype := hscalar x symbol hx
  rw [Ty.isScalar, Bool.or_eq_true, decide_eq_true_eq, decide_eq_true_eq] at htype
  simp only [store, hx]
  rcases htype with ht | ht
  · rw [if_pos ht]
    refine ⟨ht.symm, ?_⟩
    have hlt := s.mem.read_lt (s.regs .rbp + BitVec.ofInt 64 symbol.offset) 4
    simp only [Value.bits, Value.size, BitVec.toNat_ofNat]
    exact (Nat.mod_eq_of_lt hlt).symm
  · rw [if_neg (by simp [ht])]
    refine ⟨ht.symm, ?_⟩
    have hle := hbits x symbol hx ht
    simp only [Value.bits, Value.size]
    generalize s.mem.read _ 1 = n at hle
    interval_cases n <;> rfl

/-! ### Room for the frame -/

theorem reservation_eq (align : Bool) (size : Nat) :
    ∃ r : Nat, reservation align size = r ∧ size ≤ r ∧ r < size + 16 := by
  unfold reservation
  split
  · exact ⟨(size + 15) / 16 * 16, by norm_cast, by omega, by omega⟩
  · exact ⟨size, rfl, le_rfl, by omega⟩

/-- An accepted function on integers and truth values has a scope of them. -/
theorem Function.scalar_of_locals {globals table : SymbolTable} {f : Function} (h : f.locals globals = .ok table)
    (hv : ∀ v ∈ f.variables, v.type.isScalar = true) : Scope.Scalar ⟨table, globals⟩ := by
  intro x s hs
  obtain ⟨v, hm, -, ht, -⟩ := (Function.declared_of_locals h).exists_variable hs
  rw [ht]
  exact hv v hm

/-- The code of a body has the shape of its statements, and the instructions that leave the function behind it if they
can end there. -/
theorem Function.bodyCode_cases {globals : SymbolTable} {f : Function} {c : CheckedFunction}
    (ha : f.analyze globals = .ok c) (hs : Scope.Scalar ⟨c.locals, globals⟩) (hb : Stmt.allScalar f.body = true)
    {p q : Pool} {code : Listing} (h : (f.bodyCode ⟨c.locals, globals⟩).Emits p code q) :
    ∃ body ending, code = body ++ ending ∧ Task.Code ⟨c.locals, globals⟩ f.depth (.block f.body) body ∧
      ((f.body.getLast?.map Stmt.isReturn).getD false = false → ending = leaveCode) := by
  simp only [bodyCode, Gen.emits_bind, Gen.emits_pure] at h
  obtain ⟨body, _, hbody, rfl, -⟩ := h
  refine ⟨body, _, rfl, ?_, fun h => by rw [h]; rfl⟩
  refine Stmt.blockCode_of_emits (fun s hm _ _ _ => ?_) hbody
  exact Stmt.code_of_emits (f.place ⟨c.locals, globals⟩) rfl hs (Function.accepted_of_analyze ha s hm)
    (Stmt.allScalar_iff.1 hb s hm) (Stmt.depth_le_depthAll hm)

/-- A run from a state of a function goes on at the return address: the frame is taken off, its slots hold the values of
a store, and memory from the frame pointer up is as it was. -/
structure Returns (img : Image) (locals : SymbolTable) (k : Nat) (s s' : State) (σ : Store) : Prop where
  runs : Runs img ⟨k, s⟩ ⟨s.mem.read (off (s.regs .rbp) 8) 8, s'⟩
  rsp : s'.regs .rsp = off (s.regs .rbp) 16
  rbp : s'.regs .rbp = BitVec.ofNat 64 (s.mem.read (s.regs .rbp) 8)
  mem : ∀ j < 9223372036854775808, s'.mem (off (s.regs .rbp) j) = s.mem (off (s.regs .rbp) j)
  holds : ∀ x symbol, locals.find? x = some symbol → symbol.Holds s'.mem (s.regs .rbp) (σ x)

/-- Wherever a run leaves the function, the frame pointer and what lies above it are as they were. -/
theorem Returns.of_steady {img : Image} {locals : SymbolTable} {reach words k m : Nat} {σ σ' : Store} {s u : State}
    (hs : Represents locals reach words σ s) (hrun : Runs img ⟨k, s⟩ ⟨m, u⟩) (hm : Placed img m leaveCode)
    (hu : Represents locals reach words σ' u) (hst : Steady reach words s u) :
    ∃ s', Returns img locals k s s' σ' ∧ s'.regs .rax = u.regs .rax := by
  have habove : ∀ j < 9223372036854775808, u.mem (off (s.regs .rbp) j) = s.mem (off (s.regs .rbp) j) := by
    intro j hj
    have hroom := hs.room
    rw [hs.rbp, off_off]
    exact hst.mem _ (by omega) (by omega)
  obtain ⟨s', hleave, hmem, hsp, hbp, hax⟩ := runs_leave hm u
  rw [hst.rbp] at hleave hsp hbp
  have hreturn : u.mem.read (off (s.regs .rbp) 8) 8 = s.mem.read (off (s.regs .rbp) 8) 8 := by
    refine Memory.read_congr fun i hi => ?_
    rw [off_off]
    exact habove _ (by omega)
  have hsaved : u.mem.read (s.regs .rbp) 8 = s.mem.read (s.regs .rbp) 8 :=
    Memory.read_congr fun i hi => habove i (by omega)
  rw [hreturn] at hleave
  rw [hsaved] at hbp
  refine ⟨s', ⟨hrun.trans hleave, hsp, hbp, fun j hj => by rw [hmem, habove j hj], fun x symbol hx => ?_⟩, hax⟩
  rw [hmem, ← hst.rbp]
  exact hu.holds x symbol hx

/-- The code of a body that stands in a listing, run from a state that represents a store, leaves the function with what
the run of the body on that store ends with. -/
theorem Exec.returns {img : Image} {scope : Scope} {size reach words : Nat} {body : List Stmt} {σ : Store}
    {o : Outcome} (h : Exec σ (.block body) o) (hp : scope.locals.Packed size) (hsize : size ≤ reach)
    {code ending : Listing} (hc : Task.Code scope words (.block body) code)
    (he : (body.getLast?.map Stmt.isReturn).getD false = false → ending = leaveCode) {k : Nat}
    (hpl : Placed img k (code ++ ending)) {s : State} (hs : Represents scope.locals reach words σ s) :
    ∃ s', Returns img scope.locals k s s' o.store ∧ ∀ v, o.result = some v → s'.regs .rax = v.word := by
  obtain ⟨hcode, hend⟩ := placed_append.1 hpl
  have hends := h.ends hp hsize hc ⟨hcode, rfl⟩ hs
  cases o with
  | next σ' =>
    obtain ⟨u, hrun, hrep, hst⟩ := hends
    rw [he h.not_isReturn] at hend
    obtain ⟨s', hreturns, -⟩ := Returns.of_steady hs hrun hend hrep hst
    exact ⟨s', hreturns, by simp [Outcome.result]⟩
  | done σ' result =>
    obtain ⟨m, u, hrun, hm, hrep, hst, hres⟩ := hends
    obtain ⟨s', hreturns, hax⟩ := Returns.of_steady hs hrun hm hrep hst
    exact ⟨s', hreturns, fun v hv => by rw [hax, hres v hv]⟩

/-! ### Compiled functions -/

/-- The frame of a function is large enough for its variables, and leaves room for its expressions. -/
theorem Function.frame_of_load {text : List Char} (hlength : text.length < 2 ^ 59) {p : Program}
    (hload : Program.load text = .ok p) {f : Function} (hm : f ∈ p.functions) {globals locals : SymbolTable}
    (hl : f.locals globals = .ok locals) (align : Bool) :
    ∃ size reach : Nat, locals.Packed size ∧ size ≤ reach ∧ reservation align locals.frameSize = reach ∧
      reach + 8 * f.depth < 9223372036854775808 := by
  obtain ⟨hdepth, hcount⟩ := Program.size_le_of_load hload f hm
  have htotal := Variable.total_le f.variables
  have hd := Function.declared_of_locals hl
  obtain ⟨reach, hr, hlow, hhigh⟩ := reservation_eq align (Variable.total f.variables)
  refine ⟨_, reach, hd.packed (by omega), hlow, ?_, by omega⟩
  rw [hd.frameSize_eq (by omega), hr]

/-- The compiled body of a function on integers and truth values does what the function says. Take any function of a
program that was loaded and accepted, with variables and literals of 32 bits and truth values only, and without calls,
reading and writing. In the listing of the program, its code is a head that makes the frame and copies the arguments,
and a body. From every frame whose truth values are zero or one, whenever the run of the statements on the values in
the frame ends without a division by zero, the run of the body comes to its return: the slots hold the final values,
`%rax` holds the result, the frame is taken off and memory above it is untouched. -/
theorem compiled_body_follows_run {text : List Char} (hlength : text.length < 2 ^ 59) {p : Program}
    (hload : Program.load text = .ok p) {c : Compilation} (hanalyze : p.analyze.2 = .ok c) {cf : CheckedFunction}
    (hm : cf ∈ c.functions) (hvars : ∀ v ∈ cf.function.variables, v.type.isScalar = true)
    (hbody : Stmt.allScalar cf.function.body = true) (align : Bool) :
    ∃ listing literals before head body after q r, c.generate align = .ok (listing, literals) ∧
      listing = before ++ (head ++ body ++ after) ∧
      (cf.function.code align ⟨cf.locals, c.globals⟩).Emits q (head ++ body) r ∧
      cf.function.headCode align ⟨cf.locals, c.globals⟩ = .ok head ∧
      ∀ (data : Label → Word) (s : State) (o : Outcome),
        s.regs .rsp = s.regs .rbp - BitVec.ofInt 64 (reservation align cf.locals.frameSize) →
        (∀ x symbol, cf.locals.find? x = some symbol → symbol.type = .logical →
          s.mem.read (s.regs .rbp + BitVec.ofInt 64 symbol.offset) 1 ≤ 1) →
        Exec (s.store cf.locals) (.block cf.function.body) o →
        ∃ s', Returns ⟨listing, data⟩ cf.locals (before.length + head.length) s s' o.store ∧
          ∀ v, o.result = some v → s'.regs .rax = v.word := by
  obtain ⟨hf, ha⟩ := Program.analyze_of_mem hanalyze hm
  obtain ⟨-, hlocals, -⟩ := Function.analyze_eq_ok ha
  have hscalar := Function.scalar_of_locals hlocals hvars
  obtain ⟨size, reach, hpacked, hsize, hreach, hroom⟩ := Function.frame_of_load hlength hload hf hlocals align
  obtain ⟨⟨listing, literals⟩, hgen⟩ :=
    Compilation.generate_eq_ok (Program.wellFormed_of_load hload) hanalyze align
  obtain ⟨before, head, body, q, r, hhead, hcode, hstands⟩ := Compilation.exists_stands hanalyze hgen hm
  obtain ⟨after, hlisting⟩ := hstands.line
  obtain ⟨stmts, ending, rfl, hshape, hending⟩ := Function.bodyCode_cases ha hscalar hbody hcode
  refine ⟨listing, literals, before, head, stmts ++ ending, after, q, r, hgen, hlisting,
    Function.emits_code.2 ⟨_, _, hhead, hcode, rfl⟩, hhead, fun data s o hsp hbits hrun => ?_⟩
  refine hrun.returns hpacked hsize hshape hending (placed_append.1 (hstands.placed data)).2 ⟨?_, hroom, ?_⟩
  · rw [hsp, hreach, BitVec.ofInt_natCast, off, BitVec.sub_add_cancel]
  · exact fun x symbol hx => State.holds_store hscalar hbits hx

namespace Triangular

/-- A program with a function that adds up the numbers from its argument down to one. -/
def text : List Char :=
  "(program (func f inteiro [(param inteiro n)] [(decl inteiro (init s 0))
    (while (relational \">\" n 0) [(assign s (binary \"+\" s n)) (increment \"--\" n)]) (return s)]))".toList

/-- What the text is read as. -/
def datum : Datum :=
  .list 1 [] [.symbol 1 "program", .list 1 [] [.symbol 1 "func", .symbol 1 "f", .symbol 1 "inteiro",
    .array 1 [.list 1 [] [.symbol 1 "param", .symbol 1 "inteiro", .symbol 1 "n"]],
    .array 1 [.list 1 [] [.symbol 1 "decl", .symbol 1 "inteiro", .list 1 [] [.symbol 1 "init", .symbol 1 "s",
        .number 1 "0"]],
      .list 2 [] [.symbol 2 "while", .list 2 [] [.symbol 2 "relational", .string 2 ">", .symbol 2 "n", .number 2 "0"],
        .array 2 [.list 2 [] [.symbol 2 "assign", .symbol 2 "s", .list 2 [] [.symbol 2 "binary", .string 2 "+",
          .symbol 2 "s", .symbol 2 "n"]], .list 2 [] [.symbol 2 "increment", .string 2 "--", .symbol 2 "n"]]],
      .list 2 [] [.symbol 2 "return", .symbol 2 "s"]]]]

/-- The function. -/
def function : Function where
  line := 1
  name := "f"
  result := .integer
  params := [⟨1, .integer, ⟨1, "n"⟩⟩]
  body := [.declare 1 .integer [⟨⟨1, "s"⟩, some (.number 1 "0")⟩],
    .whileDo 1 (.relational 1 .gt (.var 1 "n") (.number 1 "0"))
      [.assign 1 ⟨1, "s"⟩ (.arithmetic 1 .add (.var 1 "s") (.var 1 "n")), .increment 1 .down ⟨1, "n"⟩],
    .ret 1 (some (.var 1 "s"))]

/-- Its frame: the argument in the upper four bytes, the sum in the lower four. -/
def locals : SymbolTable :=
  ⟨[("n", ⟨"n", .integer, 1, -4, true, none⟩), ("s", ⟨"s", .integer, 1, -8, true, none⟩)]⟩

/-- The program as it is accepted. -/
def compilation : Compilation where
  program := ⟨1, [function]⟩
  globals := ⟨[("f", ⟨"f", .function, 1, 0, false, some ⟨[.integer], .integer⟩⟩)]⟩
  functions := [⟨function, locals⟩]

/-- A frame with the argument two. -/
def frame : State where
  regs
    | .rbp => 64
    | .rsp => 56
    | _ => 0
  mem a := if a = 60 then 2 else 0

/-- The sum and the argument after so many rounds. -/
def store (sum argument : BitVec 32) : Store :=
  ((frame.store locals).set "s" (.int sum)).set "n" (.int argument)

theorem store_set_sum (a b c : BitVec 32) : (store a b).set "s" (.int c) = store c b := by
  rw [store, Store.set, Store.set, Function.update_comm (by decide), Store.set, Function.update_idem]
  rfl

theorem store_set_argument (a b c : BitVec 32) : (store a b).set "n" (.int c) = store a c := by
  rw [store, Store.set, Store.set, Function.update_idem]
  rfl

/-- One round of the loop. -/
theorem round (a b : BitVec 32) :
    Exec (store a b) (.block [.assign 1 ⟨1, "s"⟩ (.arithmetic 1 .add (.var 1 "s") (.var 1 "n")),
      .increment 1 .down ⟨1, "n"⟩]) (.next (store (a + b) (b - 1))) := by
  have hsum : (Expr.arithmetic 1 .add (.var 1 "s") (.var 1 "n")).eval (store a b) = some (.int (a + b)) := by
    have h : BitVec.ofInt 32 (a.toInt + b.toInt) = a + b := by simp [BitVec.ofInt_add]
    exact congrArg (fun n => some (Value.int n)) h
  have hstep : Value.ofInt ((store (a + b) b "n").number + StepOp.amount .down) = .int (b - 1) := by
    have h : BitVec.ofInt 32 (b.toInt + -1) = b - 1 := by simp [BitVec.ofInt_add, BitVec.sub_eq_add_neg]
    exact congrArg Value.int h
  refine .cons (.assign hsum) (.cons .increment ?_)
  rw [store_set_sum, hstep, store_set_argument]
  exact .nil

theorem exec : Exec (frame.store locals) (.block function.body) (.done (store 3 0) (some (.int 3))) := by
  have hstart : (frame.store locals).set "s" (.int 0) = store 0 2 := by
    rw [store, Store.set, Store.set]
    exact (Function.update_eq_self "n" _).symm
  have hdeclare : [⟨⟨1, "s"⟩, some (.number 1 "0")⟩].foldlM DeclItem.exec (frame.store locals) = some (store 0 2) := by
    rw [← hstart]
    rfl
  refine .cons (.declare hdeclare) (.cons (.whileDo ?_) (.consDone (.result rfl)))
  refine .loopNext (v := .truth true) (by decide) rfl (round 0 2) .nil ?_
  refine .loopNext (v := .truth true) (by decide) rfl (round 2 1) .nil ?_
  exact .loopEnd (v := .truth false) (by decide) rfl

set_option maxRecDepth 4000 in
theorem load : Program.load text = .ok compilation.program := by
  refine Program.load_eq_ok_iff.2 ⟨datum, ?_, by rfl⟩
  apply of_literal (P := (Datum.parse · = .ok datum))
  cbv

theorem length_text : text.length < 2 ^ 59 := by
  apply of_literal (P := (·.length < 2 ^ 59))
  decide +kernel

end Triangular

set_option maxRecDepth 4000 in
/-- With the argument two the function returns three. -/
theorem compiled_triangular_follows_run :
    ∃ listing literals k s', Triangular.compilation.generate false = .ok (listing, literals) ∧
      Returns ⟨listing, fun _ => 0⟩ Triangular.locals k Triangular.frame s' (Triangular.store 3 0) ∧
      s'.regs .rax = 3 := by
  obtain ⟨listing, literals, before, head, body, after, q, r, hgen, -, -, -, h⟩ :=
    compiled_body_follows_run Triangular.length_text Triangular.load (by rfl : _ = Except.ok Triangular.compilation)
      (List.mem_singleton_self _) (by decide) (by rfl) false
  have hbits : ∀ x symbol, Triangular.locals.find? x = some symbol → symbol.type ≠ .logical := by
    intro x symbol hx
    simp only [SymbolTable.find?, Triangular.locals, List.lookup_cons, List.lookup_nil] at hx
    split at hx
    · cases hx
      decide
    · split at hx <;> cases hx
      decide
  obtain ⟨s', hreturns, hresult⟩ := h (fun _ => 0) Triangular.frame _ (by decide)
    (fun x symbol hx ht => absurd ht (hbits x symbol hx)) Triangular.exec
  exact ⟨listing, literals, _, s', hgen, hreturns, hresult _ rfl⟩

end Arvore
