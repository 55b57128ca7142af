import Mathlib
import Arvore.Proofs.Calling.Callee
import Arvore.Proofs.Simulation.Function

/-!
# Caller and callee agree

A call of a function with as many arguments as it has parameters first leaves the values of the arguments on the
stack. Run from there up to the body of the function, it leaves each of them in the slot of its parameter. When the
function returns, the caller finds its stack as it was (`call_passes_arguments`). The values of arguments on integers
and truth values are computed by the model itself (`arguments_of_scalar`).
-/

namespace Arvore

open Assembly Machine

/-! ### The head of a function -/

theorem leads_reserveCode (img : Image) (size : Nat) :
    ∃ is, reserveCode size = instrs is ∧ ∀ s : State, Leads img is s fun s' =>
      s'.regs .rsp = s.regs .rsp - BitVec.ofNat 64 size ∧ s'.mem = s.mem ∧ ∀ r, r ≠ .rsp → s'.regs r = s.regs r := by
  unfold reserveCode
  split
  · refine ⟨_, rfl, fun s => .single (act_alu_imm s .rsp _ _) ⟨?_, rfl, fun r hr => State.set_regs_of_ne _ _ hr⟩⟩
    simp only [combine, State.set_regs_self, BitVec.ofInt_natCast]
  · obtain rfl : size = 0 := by omega
    exact ⟨[], rfl, fun s => .nil ⟨by simp, rfl, fun _ _ => rfl⟩⟩

/-- The state of a function whose head has been run, compared with the state before the call: the frame pointer points
to the frame pointer of the caller, the return address lies above it, then the arguments. -/
structure Entered (values : List Word) (back : Word) (size : Nat) (s u : State) : Prop where
  words : u.mem.Words (u.regs .rbp) [s.regs .rbp, back]
  caller : off (u.regs .rbp) (16 + 8 * (values.length + (values.length - argumentRegisters.length))) = s.regs .rsp
  rsp : u.regs .rsp = u.regs .rbp - BitVec.ofNat 64 size

/-- Where a function looks for its arguments once the frame pointer is set. -/
theorem argument_of_words {u : State} {values : List Word} {saved back : Word}
    (hregs : ∀ (i : Nat) r v, argumentRegisters[i]? = some r → values[i]? = some v → u.regs r = v)
    (hwords : u.mem.Words (u.regs .rbp) (saved :: back :: (values.drop argumentRegisters.length ++ values.reverse)))
    {i : Nat} {v : Word} (hv : values[i]? = some v) : u.argument i = v := by
  unfold State.argument
  split
  · rename_i r hr
    exact hregs i r v hr hv
  · rename_i hr
    have hi : argumentRegisters.length ≤ i := List.getElem?_eq_none_iff.1 hr
    obtain ⟨hlt, -⟩ := List.getElem?_eq_some_iff.1 hv
    have hfind : (saved :: back :: (values.drop argumentRegisters.length ++ values.reverse))[
        i - argumentRegisters.length + 2]? = some v := by
      rw [List.getElem?_cons_succ, List.getElem?_cons_succ,
        List.getElem?_append_left (by rw [List.length_drop]; omega), List.getElem?_drop, Nat.add_sub_cancel' hi, hv]
    have hread := hwords _ v hfind
    rw [show 16 + 8 * (i - argumentRegisters.length) = 8 * (i - argumentRegisters.length + 2) by omega, hread]
    simp

/-- The head of a function, run from its entry, copies all arguments into its frame. -/
theorem runs_head {img : Image} {align : Bool} {scope : Scope} {f : Function} {size reach : Nat}
    (hp : scope.locals.Packed size) (hsize : size < 9223372036854775808)
    (hreach : reservation align scope.locals.frameSize = reach) (hnames : (f.params.map (·.target.name)).Nodup)
    (hcount : 8 * f.params.length < 2305843009213693952) {head : Listing} (hh : f.headCode align scope = .ok head)
    {k j : Nat} (hpl : Spans img k head j) {values : List Word} (hlen : values.length = f.params.length) {back : Word}
    {s u : State} (hc : Called values back s u) :
    ∃ u', Runs img ⟨k + 1, u⟩ ⟨j, u'⟩ ∧ Entered values back reach s u' ∧
      List.Forall₂ (fun p v => ∃ symbol, scope.locals.find? p.target.name = some symbol ∧
        symbol.Spilled u'.mem (u'.regs .rbp) v) f.params values := by
  obtain ⟨spill, hspill, hh⟩ := bind_eq_ok_iff.1 hh
  cases hh
  rw [hreach] at hpl
  obtain ⟨is, hreserve, hlower⟩ := leads_reserveCode img reach
  obtain ⟨js, rfl, hcopy⟩ := leads_spillCodes img hp hsize hnames (by omega) hspill
  rw [hreserve] at hpl
  obtain ⟨m, hmarks, hpl⟩ := spans_append.1 hpl
  obtain ⟨_, hframe, hpl⟩ := spans_append.1 hpl
  obtain ⟨_, hlow, hspan⟩ := spans_append.1 hpl
  have hentry : Runs img ⟨k + 1, u⟩ ⟨m, u⟩ := by
    rw [← hmarks.last]
    exact .of_step (by simp [step, hmarks.placed.tail.head])
  -- the frame pointer of the caller is pushed
  have hpushed := hc.pushed.push (u.regs .rbp) (by simp; omega)
  rw [hc.pushed.rbp] at hpushed
  have hexec : exec img [.push (.reg .rbp), .mov .quad (.reg .rsp) (.reg .rbp)] u =
      some ((u.push (s.regs .rbp)).set .rbp ((u.push (s.regs .rbp)).regs .rsp)) := by
    rw [← hc.pushed.rbp]
    simp [exec]
  -- then the frame is reserved below it
  obtain ⟨u3, he3, hsp3, hmem3, hregs3⟩ := hlower ((u.push (s.regs .rbp)).set .rbp ((u.push (s.regs .rbp)).regs .rsp))
  have hbp3 : u3.regs .rbp = (u.push (s.regs .rbp)).regs .rsp := by rw [hregs3 _ (by decide), State.set_regs_self]
  have hwords3 : u3.mem.Words (u3.regs .rbp)
      (s.regs .rbp :: back :: (values.drop argumentRegisters.length ++ values.reverse)) := by
    rw [hmem3, hbp3]
    exact hpushed.words
  have hregs : ∀ (i : Nat) r v, argumentRegisters[i]? = some r → values[i]? = some v → u3.regs r = v := by
    intro i r v hr hv
    obtain ⟨hsp, hbp⟩ := (by decide : ∀ r ∈ argumentRegisters, r ≠ .rsp ∧ r ≠ .rbp) r (List.mem_of_getElem? hr)
    rw [hregs3 r hsp, State.set_regs_of_ne _ _ hbp, State.push_regs_of_ne _ _ hsp]
    exact hc.registers i r v hr hv
  obtain ⟨u4, he4, hcopying, -, hspilled⟩ := hcopy u3 values hlen fun i v hv => by
    rw [Nat.zero_add]
    exact argument_of_words hregs hwords3 hv
  have hbp4 : u4.regs .rbp = u3.regs .rbp := hcopying.regs _ (by decide)
  refine ⟨u4, hentry.trans ((hframe.runs hexec).trans ((hlow.runs he3).trans (hspan.runs he4))), ⟨?_, ?_, ?_⟩, ?_⟩
  · rw [hbp4]
    have hsaved : u3.mem.Words (u3.regs .rbp) [s.regs .rbp, back] := Memory.Words.left hwords3
    refine hsaved.congr fun i hi => hcopying.mem i ?_
    simp at hi
    omega
  · rw [hbp4, hbp3, ← hpushed.rsp]
    congr 1
    simp only [List.length_cons, List.length_append, List.length_drop, List.length_reverse]
    omega
  · rw [hcopying.regs _ (by decide), hsp3, hbp4, hbp3, State.set_regs_of_ne _ _ (by decide)]
  · rw [hbp4]
    exact hspilled

/-- A function that leaves from its own frame returns to the caller, which takes the arguments off its stack. -/
theorem Entered.returns {img : Image} {values : List Word} {size back : Nat} {s u : State}
    (h : Entered values (BitVec.ofNat 64 back) size s u) (hback : back < 18446744073709551616) {j : Nat}
    (hclean : Spans img back (instrs (cleanupCode values.length)) j) {m : Nat} (hm : Placed img m leaveCode)
    {u' : State} (hbp : u'.regs .rbp = u.regs .rbp)
    (hmem : ∀ i < 16, u'.mem (off (u.regs .rbp) i) = u.mem (off (u.regs .rbp) i)) :
    ∃ s', Runs img ⟨m, u'⟩ ⟨j, s'⟩ ∧ s'.regs .rsp = s.regs .rsp ∧ s'.regs .rbp = s.regs .rbp ∧
      s'.regs .rax = u'.regs .rax := by
  have hwords : u'.mem.Words (u.regs .rbp) [s.regs .rbp, BitVec.ofNat 64 back] :=
    h.words.congr fun i hi => hmem i (by simpa using hi)
  have hsaved : u'.mem.read (u.regs .rbp) 8 = (s.regs .rbp).toNat := hwords.head
  have hreturn : u'.mem.read (off (u.regs .rbp) 8) 8 = back := by
    rw [hwords 1 (BitVec.ofNat 64 back) rfl, BitVec.toNat_ofNat]
    exact Nat.mod_eq_of_lt hback
  obtain ⟨w, hleave, -, hsp, hbp', hax⟩ := runs_leave hm u'
  rw [hbp] at hleave hsp hbp'
  rw [hreturn] at hleave
  have htop : off (w.regs .rsp) (8 * (values.length + (values.length - argumentRegisters.length))) = s.regs .rsp := by
    rw [hsp, off_off, h.caller]
  obtain ⟨s', hrun, hsp', -, hregs⟩ := runs_cleanup hclean htop
  refine ⟨s', hleave.trans hrun, hsp', ?_, ?_⟩
  · rw [hregs _ (by decide), hbp', hsaved]
    simp
  · rw [hregs _ (by decide), hax]

/-! ### Calls -/

/-- The names of the parameters of an accepted function differ. -/
theorem Function.nodup_params {globals table : SymbolTable} {f : Function} (h : f.locals globals = .ok table) :
    (f.params.map (·.target.name)).Nodup := by
  have hn := (Function.declared_of_locals h).nodup_names
  rw [Function.variables, List.map_append, List.map_map] at hn
  exact hn.of_append_left

/-- Caller and callee agree on every argument. Take any function of a program that was loaded and accepted, the
code of any call of it with as many arguments as it has parameters, wherever that code stands in the listing of the
program, and any values that fit the types of the parameters. A machine that computes these values for the arguments,
one after the other, leaves them on the stack. It need not be the model: it may know instructions on reals, for
example, as long as it does what the model does. However the values came there, the model runs on from them to the
body of the function, and there loading the slot of each parameter gives its argument. And once the function leaves,
having kept its frame pointer and the two words that it points to, the call ends with the stack and the frame of the
caller as they were before the first argument was pushed. -/
theorem call_passes_arguments {text : List Char} (hlength : text.length < 2 ^ 58) {p : Program}
    (hload : Program.load text = .ok p) {c : Compilation} (hanalyze : p.analyze.2 = .ok c) {align : Bool}
    {listing : Listing} {literals : List Literal} (hgen : c.generate align = .ok (listing, literals))
    (hlines : listing.length < 2 ^ 64) {cf : CheckedFunction} (hm : cf ∈ c.functions) {target : Target} {line : Int}
    {callee : Ident} (hname : callee.name = cf.function.name) {args : List Expr}
    (hcount : args.length = cf.function.params.length) {q r : Pool} {code : Listing}
    (hcode : ((Expr.call line callee args).code target).Emits q code r) {data : Label → Word} {k j : Nat}
    (hpl : Spans ⟨listing, data⟩ k code j) {values : List Word}
    (hfit : List.Forall₂ (fun p v => p.type.Carries v) cf.function.params values) :
    ∃ stacked before head body after, (Expr.argsCode target args).Emits q stacked r ∧
      listing = before ++ (head ++ body ++ after) ∧
      cf.function.headCode align ⟨cf.locals, c.globals⟩ = .ok head ∧
      (∀ goes s, Extends ⟨listing, data⟩ goes → Arguments target goes 0 q args ⟨k, s⟩ values →
        ∃ s', goes ⟨k, s⟩ ⟨k + stacked.length, s'⟩ ∧ Pushed values.reverse s s') ∧
      ∀ s s', Pushed values.reverse s s' → ∃ u,
        Runs ⟨listing, data⟩ ⟨k + stacked.length, s'⟩ ⟨before.length + head.length, u⟩ ∧
        List.Forall₂ (fun p v => ∃ symbol is, cf.locals.find? p.target.name = some symbol ∧
          symbol.load = .ok (instrs is) ∧ Leads ⟨listing, data⟩ is u fun u' => u'.regs .rax = v)
          cf.function.params values ∧
        ∀ m u', Placed ⟨listing, data⟩ m leaveCode → u'.regs .rbp = u.regs .rbp →
          (∀ i < 16, u'.mem (off (u.regs .rbp) i) = u.mem (off (u.regs .rbp) i)) →
          ∃ s'', Runs ⟨listing, data⟩ ⟨m, u'⟩ ⟨j, s''⟩ ∧ s''.regs .rsp = s.regs .rsp ∧
            s''.regs .rbp = s.regs .rbp ∧ s''.regs .rax = u'.regs .rax := by
  obtain ⟨hf, ha⟩ := Program.analyze_of_mem hanalyze hm
  obtain ⟨-, hlocals, -⟩ := Function.analyze_eq_ok ha
  obtain ⟨size, reach, hpacked, hsize, hreach, hroom⟩ :=
    Function.frame_of_load (by omega) hload hf hlocals align
  have hparams : cf.function.params.length ≤ text.length := by
    have := (Program.size_le_of_load hload _ hf).2
    rw [Function.variables, List.length_append, List.length_map] at this
    omega
  have hlen := hfit.length_eq
  obtain ⟨before, head, body, _, _, hhead, -, hstands⟩ := Compilation.exists_stands hanalyze hgen hm
  obtain ⟨after, hlisting⟩ := hstands.line
  simp only [Expr.code, Gen.emits_bind, Gen.emits_pure] at hcode
  obtain ⟨stacked, _, hstacked, rfl, rfl⟩ := hcode
  obtain ⟨m, hargs, hcall⟩ := spans_append.1 hpl
  obtain rfl : k + stacked.length = m := hargs.last
  refine ⟨stacked, before, head, body, after, hstacked, hlisting, hhead, fun goes s hgoes h => ?_, fun s s' hs => ?_⟩
  · obtain ⟨s', hgo, hpushed⟩ := goes_args hgoes h rfl (by omega) hstacked hargs (.refl s)
    exact ⟨s', hgo, by simpa using hpushed⟩
  rw [hcount, hlen] at hcall
  obtain ⟨back, u, hrun, hcalled, hback, hclean⟩ :=
    runs_callCode (by omega) hcall (by rw [hname]; exact hstands.entry) hs
  obtain ⟨hplaced, -⟩ := placed_append.1 (hstands.placed data)
  obtain ⟨u', hrun', hentered, hspilled⟩ := runs_head hpacked (by omega) hreach (Function.nodup_params hlocals)
    (by omega) hhead ⟨hplaced, rfl⟩ hlen.symm hcalled
  have hback : back < 18446744073709551616 := hback.trans_lt hlines
  refine ⟨u', hrun.trans hrun', ?_, fun m w hm hbp hmem => hentered.returns hback hclean hm hbp hmem⟩
  -- each slot is that of a parameter, so it is loaded in the width of the type that the argument fits
  have hfound : List.Forall₂ (fun p v => p ∈ cf.function.params ∧ p.type.Carries v) cf.function.params values :=
    forall₂_imp_of_mem (fun p hp v hv => ⟨hp, hv⟩) hfit
  refine hfound.mp ?_ hspilled
  rintro p v ⟨hp, hv⟩ ⟨symbol, hx, hspilled⟩
  obtain ⟨_, hx', ht⟩ := (Function.tabulated_of_locals hlocals).params p hp
  cases hx.symm.trans hx'
  obtain ⟨loaded, hl⟩ := Symbol.load_eq_ok (Function.stored_of_locals hlocals _ _ hx)
  obtain ⟨is, rfl, hleads⟩ := hspilled.loads (by rw [ht]; exact hv) hl
  exact ⟨symbol, is, hx, hl, hleads⟩

/-- Arguments on integers and truth values are computed by the model itself, with the frame of the caller as it is
before the call. -/
theorem arguments_of_scalar {target : Target} {img : Image} {size words : Nat} {σ : Store}
    (hs : target.scope.Scalar) (hp : target.scope.locals.Packed size) {args : List Expr} {values : List Value}
    (h : List.Forall₂ (fun e v => e.isScalar = true ∧ (∃ t, e.typeOf target.scope = .ok t) ∧ e.depth ≤ words ∧
      e.eval σ = some v) args values) {n reach : Nat} (hsize : size ≤ reach) (hn : 8 * n ≤ reach) {s : State}
    (hrep : Represents target.scope.locals reach (words + args.length) σ s) {p q : Pool} {code : Listing}
    (hcode : (Expr.argsCode target args).Emits p code q) {k j : Nat} (hpl : Spans img k code j) :
    Arguments target (Runs img) n p args ⟨k, s⟩ (values.map Value.word) := by
  induction h generalizing n reach s p q code k j with
  | nil => exact .nil
  | @cons e v args values he _ ih =>
    obtain ⟨hscalar, ⟨t, ht⟩, hd, hv⟩ := he
    obtain ⟨_, _, _, hf, hpf, -, ho, hpo⟩ := hpl.argsCode_cons hcode
    obtain ⟨-, is, rfl, hcompiles⟩ := Expr.compiles_of_emits hs hscalar ht hf
    rw [List.length_cons] at hrep
    have hroom := hrep.room
    obtain ⟨u, hexec, hax, hk⟩ := (hcompiles.computes img hp hsize (hrep.mono (by omega)) hv).mono hd
    rw [List.map_cons, ← hax]
    refine .cons hf (hpf.runs hexec) ⟨hk.rsp, hk.rbp, fun i hi => hk.mem i (by omega)⟩ ?_
    -- the value is pushed below what was there, so the frame is a word further from the top of the stack
    have hu := hrep.keeps hp hsize (hk.mono (Nat.le_add_right _ _))
    have hrbp : (u.push (u.regs .rax)).regs .rbp = off ((u.push (u.regs .rax)).regs .rsp) (reach + 8 * 1) := by
      rw [State.push_regs_of_ne _ _ (by decide), hu.rbp, State.push_rsp, Nat.add_comm, off_sub_eight]
    have hpushed := hu.congr 1 hp hsize (by simp) hrbp (by omega) fun i hi => push_mem_off u _ (by omega)
    exact ih (by omega) (by omega) hpushed ho hpo

namespace Eight

/-- A program that calls a function with eight arguments, two of which go over the stack. -/
def text : List Char :=
  "(program (func f [(param inteiro a) (param logico b) (param real c) (param real d) (param inteiro e)
    (param inteiro g) (param inteiro h) (param logico i)] [])
    (func m [] [(call f [1 verdadeiro 1.5 2.5 5 6 -7 falso])]))".toList

/-- What the text is read as. -/
def datum : Datum :=
  .list 1 [] [.symbol 1 "program",
    .list 1 [] [.symbol 1 "func", .symbol 1 "f", .array 1 [
      .list 1 [] [.symbol 1 "param", .symbol 1 "inteiro", .symbol 1 "a"],
      .list 1 [] [.symbol 1 "param", .symbol 1 "logico", .symbol 1 "b"],
      .list 1 [] [.symbol 1 "param", .symbol 1 "real", .symbol 1 "c"],
      .list 1 [] [.symbol 1 "param", .symbol 1 "real", .symbol 1 "d"],
      .list 1 [] [.symbol 1 "param", .symbol 1 "inteiro", .symbol 1 "e"],
      .list 2 [] [.symbol 2 "param", .symbol 2 "inteiro", .symbol 2 "g"],
      .list 2 [] [.symbol 2 "param", .symbol 2 "inteiro", .symbol 2 "h"],
      .list 2 [] [.symbol 2 "param", .symbol 2 "logico", .symbol 2 "i"]], .array 2 []],
    .list 3 [] [.symbol 3 "func", .symbol 3 "m", .array 3 [], .array 3 [
      .list 3 [] [.symbol 3 "call", .symbol 3 "f", .array 3 [.number 3 "1", .symbol 3 "verdadeiro", .number 3 "1.5",
        .number 3 "2.5", .number 3 "5", .number 3 "6", .number 3 "-7", .symbol 3 "falso"]]]]]

/-- The function that is called. -/
def callee : Function where
  line := 1
  name := "f"
  result := .void
  params := [⟨1, .integer, ⟨1, "a"⟩⟩, ⟨1, .logical, ⟨1, "b"⟩⟩, ⟨1, .real, ⟨1, "c"⟩⟩, ⟨1, .real, ⟨1, "d"⟩⟩,
    ⟨1, .integer, ⟨1, "e"⟩⟩, ⟨1, .integer, ⟨1, "g"⟩⟩, ⟨1, .integer, ⟨1, "h"⟩⟩, ⟨1, .logical, ⟨1, "i"⟩⟩]
  body := []

/-- The arguments. -/
def args : List Expr :=
  [.number 1 "1", .boolean 1 "verdadeiro", .number 1 "1.5", .number 1 "2.5", .number 1 "5", .number 1 "6",
    .number 1 "-7", .boolean 1 "falso"]

/-- The function that calls it. -/
def caller : Function where
  line := 1
  name := "m"
  result := .void
  params := []
  body := [.call 1 ⟨1, "f"⟩ args]

/-- The frame of the function that is called. -/
def locals : SymbolTable :=
  ⟨[("a", ⟨"a", .integer, 1, -4, true, none⟩), ("b", ⟨"b", .logical, 1, -5, true, none⟩),
    ("c", ⟨"c", .real, 1, -13, true, none⟩), ("d", ⟨"d", .real, 1, -21, true, none⟩),
    ("e", ⟨"e", .integer, 1, -25, true, none⟩), ("g", ⟨"g", .integer, 1, -29, true, none⟩),
    ("h", ⟨"h", .integer, 1, -33, true, none⟩), ("i", ⟨"i", .logical, 1, -34, true, none⟩)]⟩

/-- The program as it is accepted. -/
def compilation : Compilation where
  program := ⟨1, [callee, caller]⟩
  globals := ⟨[("f", ⟨"f", .function, 1, 0, false, some ⟨callee.params.map (·.type), .void⟩⟩),
    ("m", ⟨"m", .function, 1, 0, false, some ⟨[], .void⟩⟩)]⟩
  functions := [⟨callee, locals⟩, ⟨caller, {}⟩]

/-- The code of the program, with the two reals at addresses of their own. -/
def image : Image where
  code := match compilation.generate false with
    | .ok (listing, _) => listing
    | .error _ => []
  data := fun l => if l = ⟨"float", 1⟩ then 8192 else 8200

/-- The values of the arguments, those of the reals as they lie in memory. -/
def values : List Word := [1, 1, 0x3FF8000000000000, 0x4004000000000000, 5, 6, -7, 0]

/-- A state with an empty frame, in which the reals lie above the stack. -/
def state : State where
  regs := fun _ => 4096
  mem := (Memory.write (fun _ => 0) 8192 8 0x3FF8000000000000).write 8200 8 0x4004000000000000

/-- The code of the call. -/
def code : Listing :=
  instrs ([.imm 1, .imm 1, .data ⟨"float", 1⟩, .data ⟨"float", 2⟩, .imm 5, .imm 6, .imm (-7), .imm 0].flatMap
    fun src => [.mov .quad src (.reg .rax), .push (.reg .rax)]) ++ callCode "f" args.length

set_option maxRecDepth 4000 in
theorem load : Program.load text = .ok compilation.program := by
  refine Program.load_eq_ok_iff.2 ⟨datum, ?_, by rfl⟩
  apply of_literal (P := (Datum.parse · = .ok datum))
  cbv

theorem length_text : text.length < 2 ^ 58 := by
  apply of_literal (P := (·.length < 2 ^ 58))
  decide +kernel

theorem spans_code : Spans image 23 code 49 := by
  refine ⟨⟨by decide +kernel, fun i l h => ?_⟩, by decide⟩
  rw [code, callCode, ← instrs_append, instrs, List.getElem?_map, Option.map_eq_some_iff] at h
  obtain ⟨_, _, h⟩ := h
  cases h

/-- The arguments are computed one after the other. -/
theorem arguments : Arguments ⟨"m", {}, compilation.globals⟩ (Runs image) 0 {} args ⟨23, state⟩ values := by
  have hline (i : Nat) (hi : i < code.length) : image.code[23 + i]? = code[i]? := spans_code.placed.line i hi
  refine .load rfl (hline 0 (by decide)) (by rfl) ?_
  refine .load rfl (hline 2 (by decide)) (by rfl) ?_
  refine .load rfl (hline 4 (by decide)) (by decide +kernel) ?_
  refine .load rfl (hline 6 (by decide)) (by decide +kernel) ?_
  refine .load rfl (hline 8 (by decide)) (by rfl) ?_
  refine .load rfl (hline 10 (by decide)) (by rfl) ?_
  refine .load rfl (hline 12 (by decide)) (by rfl) ?_
  refine .load rfl (hline 14 (by decide)) (by rfl) ?_
  exact .nil

end Eight

/-- All eight arguments arrive, and the two reals are not confused. -/
theorem eight_arguments_arrive : ∃ j u, Runs Eight.image ⟨23, Eight.state⟩ ⟨j, u⟩ ∧
    List.Forall₂ (fun p v => ∃ symbol is, Eight.locals.find? p.target.name = some symbol ∧
      symbol.load = .ok (instrs is) ∧ Leads Eight.image is u fun u' => u'.regs .rax = v)
      Eight.callee.params Eight.values := by
  have hanalyze : Eight.compilation.program.analyze.2 = .ok Eight.compilation := by rfl
  obtain ⟨literals, hgen⟩ : ∃ literals, Eight.compilation.generate false = .ok (Eight.image.code, literals) :=
    ⟨_, by rfl⟩
  obtain ⟨_, hcode⟩ : ∃ q, ((Expr.call 1 ⟨1, "f"⟩ Eight.args).code
      ⟨"m", {}, Eight.compilation.globals⟩).Emits {} Eight.code q := ⟨_, by rfl⟩
  have hfit : List.Forall₂ (fun p v => p.type.Carries v) Eight.callee.params Eight.values := by decide
  obtain ⟨_, _, _, _, _, -, -, -, hstack, harrive⟩ := call_passes_arguments Eight.length_text Eight.load hanalyze hgen
    (by decide +kernel) List.mem_cons_self rfl rfl hcode Eight.spans_code hfit
  obtain ⟨s', hrun, hpushed⟩ := hstack _ _ (extends_runs _) Eight.arguments
  obtain ⟨u, hrun', hslots, -⟩ := harrive _ s' hpushed
  exact ⟨_, u, hrun.trans hrun', hslots⟩

end Arvore
