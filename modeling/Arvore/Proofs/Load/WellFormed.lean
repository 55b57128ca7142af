import Mathlib
import Arvore.Proofs.Induction
import Arvore.Proofs.Load.Form

/-!
# Loaded programs are well formed

A program is well formed if it has no foreign and no missing parts, if its operators belong to the language, its types
to the places they stand in, its number literals to the numbers that can be represented, and if its lines are positive
words of 64 bits. What is known about the words of the text it was loaded from, a `Lexicon`, is kept: every name,
string and number of the program belongs to it. Loading only makes well-formed programs (`Load.program_wellFormed`).
-/

namespace Arvore

/-- What is known about the words of a text. -/
structure Lexicon where
  name : String → Prop
  string : String → Prop
  number : String → Prop

/-- The lexicon of all words. -/
def Lexicon.all : Lexicon := ⟨fun _ => True, fun _ => True, fun _ => True⟩

/-- Lines count from one and are words of 64 bits. -/
def IsLine (line : Int) : Prop := 1 ≤ line ∧ line < 9223372036854775808

/-- A literal that can be represented: 64 bits for an integral one, double precision for a real. -/
def Numeral.Representable (text : String) : Prop :=
  isLiteral text = true ∧ (isIntegral text = true → ∃ value, integer? text = some value) ∧
    (isIntegral text = false → ∃ value, Real.read text.toList = .ok value)

/-- The name of a variable where it is used. -/
structure Ident.WellFormed (L : Lexicon) (x : Ident) : Prop where
  line : IsLine x.line
  name : L.name x.name
  notTruth : isTruthWord x.name = false

/-- The name of a function where it is called. -/
structure Ident.IsCallee (L : Lexicon) (x : Ident) : Prop where
  line : IsLine x.line
  name : L.name x.name

/-- Expressions without foreign and missing parts. -/
inductive Expr.WellFormed (L : Lexicon) : Expr → Prop
  | number {line text} (hl : IsLine line) (hw : L.number text) (hr : Numeral.Representable text) :
      WellFormed L (.number line text)
  | string {line text} (hl : IsLine line) (hw : L.string text) : WellFormed L (.string line text)
  | boolean {line word} (hl : IsLine line) (hw : L.name word) (ht : isTruthWord word = true) :
      WellFormed L (.boolean line word)
  | var {line name} (hx : Ident.WellFormed L ⟨line, name⟩) : WellFormed L (.var line name)
  | arithmetic {line op a b} (hl : IsLine line) (ho : op ∈ ArithmeticOp.known) (ha : WellFormed L a)
      (hb : WellFormed L b) : WellFormed L (.arithmetic line op a b)
  | logical {line op a b} (hl : IsLine line) (ho : op ∈ LogicalOp.known) (ha : WellFormed L a)
      (hb : WellFormed L b) : WellFormed L (.logical line op a b)
  | relational {line op a b} (hl : IsLine line) (ho : op ∈ RelationalOp.known) (ha : WellFormed L a)
      (hb : WellFormed L b) : WellFormed L (.relational line op a b)
  | unary {line op e} (hl : IsLine line) (ho : op ∈ UnaryOp.known) (he : WellFormed L e) :
      WellFormed L (.unary line op e)
  | call {line callee args} (hl : IsLine line) (hc : callee.IsCallee L) (ha : ∀ e ∈ args, WellFormed L e) :
      WellFormed L (.call line callee args)

/-- A declared name with its initial value. -/
structure DeclItem.WellFormed (L : Lexicon) (item : DeclItem) : Prop where
  target : item.target.WellFormed L
  init : ∀ e, item.init = some e → e.WellFormed L

/-- Statements without foreign and missing parts. -/
inductive Stmt.WellFormed (L : Lexicon) : Stmt → Prop
  | declare {line type items} (hl : IsLine line) (ht : type.isVariable = true) (hne : items ≠ [])
      (hi : ∀ item ∈ items, item.WellFormed L) : WellFormed L (.declare line type items)
  | assign {line x e} (hl : IsLine line) (hx : x.WellFormed L) (he : e.WellFormed L) : WellFormed L (.assign line x e)
  | increment {line op x} (hl : IsLine line) (ho : op ∈ StepOp.known) (hx : x.WellFormed L) :
      WellFormed L (.increment line op x)
  | call {line callee args} (hl : IsLine line) (hc : callee.IsCallee L) (ha : ∀ e ∈ args, e.WellFormed L) :
      WellFormed L (.call line callee args)
  | ifThen {line c body} (hl : IsLine line) (hc : c.WellFormed L) (hb : ∀ s ∈ body, WellFormed L s) :
      WellFormed L (.ifThen line c body)
  | ifElse {line c body other} (hl : IsLine line) (hc : c.WellFormed L) (hb : ∀ s ∈ body, WellFormed L s)
      (ho : ∀ s ∈ other, WellFormed L s) : WellFormed L (.ifElse line c body other)
  | whileDo {line c body} (hl : IsLine line) (hc : c.WellFormed L) (hb : ∀ s ∈ body, WellFormed L s) :
      WellFormed L (.whileDo line c body)
  | forDo {line i c s body} (hl : IsLine line) (hi : WellFormed L i) (hc : c.WellFormed L) (hs : WellFormed L s)
      (hb : ∀ s ∈ body, WellFormed L s) : WellFormed L (.forDo line i c s body)
  | read {line x} (hl : IsLine line) (hx : x.WellFormed L) : WellFormed L (.read line x)
  | print {line e} (hl : IsLine line) (he : e.WellFormed L) : WellFormed L (.print line e)
  | ret {line value} (hl : IsLine line) (he : ∀ e, value = some e → e.WellFormed L) : WellFormed L (.ret line value)

/-- A parameter of a type that takes room. -/
structure Param.WellFormed (L : Lexicon) (p : Param) : Prop where
  line : IsLine p.line
  type : p.type.isVariable = true
  target : p.target.WellFormed L

/-- A function without a flaw. -/
structure Function.WellFormed (L : Lexicon) (f : Function) : Prop where
  line : IsLine f.line
  name : L.name f.name
  result : Load.isResult f.result = true
  params : ∀ p ∈ f.params, p.WellFormed L
  body : ∀ s ∈ f.body, s.WellFormed L
  flaw : f.flaw = none

/-- A program of well-formed functions. -/
structure Program.WellFormed (L : Lexicon) (p : Program) : Prop where
  line : IsLine p.line
  functions : ∀ f ∈ p.functions, f.WellFormed L

/-- The atoms of a datum belong to a lexicon, the symbols by their normal forms. Only items count, since nothing else
becomes part of a program. -/
inductive Datum.Spelled (L : Lexicon) : Datum → Prop
  | symbol {l text} (h : L.name (Text.nfc text)) : Spelled L (.symbol l text)
  | string {l text} (h : L.string text) : Spelled L (.string l text)
  | number {l text} (h : L.number text) : Spelled L (.number l text)
  | list {l metadata items} (h : ∀ d ∈ items, Spelled L d) : Spelled L (.list l metadata items)
  | array {l items} (h : ∀ d ∈ items, Spelled L d) : Spelled L (.array l items)
  | map {l entries} : Spelled L (.map l entries)

namespace Numeral

theorem fits_iff {bits : Nat} {value : Int} :
    fits bits value = true ↔ -(2 ^ (bits - 1)) ≤ value ∧ value < 2 ^ (bits - 1) := by
  simp [fits, and_comm]

theorem integer?_bounds {text : String} {value : Int} (h : integer? text = some value) :
    -9223372036854775808 ≤ value ∧ value < 9223372036854775808 := by
  simp only [integer?, Option.ite_none_right_eq_some, Option.some.injEq] at h
  obtain ⟨-, hf, rfl⟩ := h
  exact fits_iff.1 hf

end Numeral

namespace Load

variable {L : Lexicon}

/-! ### Atoms -/

theorem lineOf_isLine {start : Nat} {metadata : List (String × Datum)} {inherited line : Int}
    (hi : IsLine inherited) (h : lineOf start metadata inherited = .ok line) : IsLine line := by
  unfold lineOf at h
  split at h
  · cases h
    exact hi
  · split at h
    · rename_i hv
      split at h
      · rename_i hp
        cases h
        exact ⟨hp, (Numeral.integer?_bounds hv).2⟩
      · cases h
    · cases h
  · cases h

theorem checkNumber_eq_ok {line : Nat} {text : String} (h : checkNumber line text = .ok ()) :
    Numeral.Representable text := by
  unfold checkNumber at h
  split at h
  · cases h
  · rename_i hlit
    have hlit : Numeral.isLiteral text = true := by simpa using hlit
    split at h
    · rename_i hint
      split at h
      · rename_i v hv
        exact ⟨hlit, fun _ => ⟨v, hv⟩, fun hn => by simp [hint] at hn⟩
      · cases h
    · rename_i hint
      split at h
      · rename_i v hv
        exact ⟨hlit, fun hn => absurd hn hint, fun _ => ⟨v, hv⟩⟩
      · cases h

theorem name_wellFormed {role : LoadError.NameRole} {d : Datum} {n : String} (hd : d.Spelled L)
    (h : name role d = .ok n) : L.name n := by
  obtain ⟨l, text, rfl, rfl⟩ := name_eq_ok_iff.1 h
  cases hd
  assumption

theorem ident_wellFormed {line : Int} {d : Datum} {x : Ident} (hl : IsLine line) (hd : d.Spelled L)
    (h : ident line d = .ok x) : x.WellFormed L := by
  obtain ⟨l, text, rfl, rfl, ht⟩ := ident_eq_ok_iff.1 h
  cases hd
  exact ⟨hl, by assumption, ht⟩

theorem word_wellFormed {line : Int} {text : String} (hl : IsLine line) (hn : L.name (Text.nfc text)) :
    (word line text).WellFormed L := by
  unfold word
  dsimp only
  split
  · exact .boolean hl hn (by assumption)
  · rename_i ht
    exact .var ⟨hl, hn, by simpa using ht⟩

/-! ### Expressions -/

theorem call_wellFormed {start : Nat} {line : Int} {operands : List Datum} {callee : Ident} {args : List Expr}
    (hl : IsLine line) (hd : ∀ d ∈ operands, d.Spelled L) (h : call start line operands = .ok (callee, args))
    (ih : ∀ l items, .array l items ∈ operands → ∀ d ∈ items, ∀ e, expr line d = .ok e → e.WellFormed L) :
    callee.IsCallee L ∧ ∀ e ∈ args, e.WellFormed L := by
  obtain ⟨d, hn, rfl, hargs⟩ := call_eq_ok_iff.1 h
  rcases hargs with ⟨rfl, rfl⟩ | ⟨l, items, rfl, he⟩
  · exact ⟨⟨hl, name_wellFormed (hd d (by simp)) hn⟩, by simp⟩
  · refine ⟨⟨hl, name_wellFormed (hd d (by simp)) hn⟩, ?_⟩
    exact forall_mem_of_forall₂ (P := fun _ => True) (exprs_eq_ok_iff.1 he) (by simp)
      fun d hmem e _ h => ih l items (by simp) d hmem e h

theorem exprForm_wellFormed {line : Int} {items : List Datum} {e : Expr} (hl : IsLine line)
    (hd : ∀ d ∈ items, d.Spelled L) (hf : ExprForm line items e)
    (ih : ∀ d ∈ items, ∀ e, expr line d = .ok e → e.WellFormed L)
    (ih' : ∀ l inner, .array l inner ∈ items → ∀ d ∈ inner, ∀ e, expr line d = .ok e → e.WellFormed L) :
    e.WellFormed L := by
  cases hf with
  | arithmetic ho ha hb => exact .arithmetic hl (mem_of_operator_eq_ok ho) (ih _ (by simp) _ ha) (ih _ (by simp) _ hb)
  | logical ho ha hb => exact .logical hl (mem_of_operator_eq_ok ho) (ih _ (by simp) _ ha) (ih _ (by simp) _ hb)
  | relational ho ha hb => exact .relational hl (mem_of_operator_eq_ok ho) (ih _ (by simp) _ ha) (ih _ (by simp) _ hb)
  | unary ho he => exact .unary hl (mem_of_operator_eq_ok ho) (ih _ (by simp) _ he)
  | call hc =>
    have hc := call_wellFormed hl (fun d h => hd d (by simp [h])) hc fun l inner h => ih' l inner (by simp [h])
    exact .call hl hc.1 hc.2

theorem expr_wellFormed {inherited : Int} {d : Datum} {e : Expr} (hi : IsLine inherited) (hd : d.Spelled L)
    (h : expr inherited d = .ok e) : e.WellFormed L := by
  induction d using Datum.forms_induction generalizing inherited e with
  | list start metadata items ih ih' =>
    obtain ⟨line, hl, hf⟩ := exprForm_of_eq_ok h
    have hl := lineOf_isLine hi hl
    cases hd with | list hd =>
    refine exprForm_wellFormed hl hd hf (fun d hm e he => ih d hm hl (hd d hm) he) ?_
    intro l inner hm d hd' e he
    cases hd _ hm with | array ha => exact ih' l inner hm d hd' hl (ha d hd') he
  | symbol l text =>
    rw [expr] at h
    cases h
    cases hd with | symbol hn => exact word_wellFormed hi hn
  | string l text =>
    rw [expr] at h
    cases h
    cases hd with | string hs => exact .string hi hs
  | number l text =>
    rw [expr] at h
    obtain ⟨_, hc, h⟩ := bind_eq_ok_iff.1 h
    cases h
    cases hd with | number hn => exact .number hi hn (checkNumber_eq_ok hc)
  | _ => rcases expr_cases h with ⟨_, _, h, _⟩ | ⟨_, _, h, _⟩ | ⟨_, _, h, _⟩ | ⟨_, _, _, _, h, _⟩ <;> cases h

/-! ### Statements -/

theorem declItem_wellFormed {line : Int} {d : Datum} {item : DeclItem} (hl : IsLine line) (hd : d.Spelled L)
    (h : declItem line d = .ok item) : item.WellFormed L := by
  rcases declItem_cases h with ⟨l, text, x, -, hx, rfl⟩ |
    ⟨start, metadata, l, target, value, line', x, e, rfl, hl', hx, he, rfl⟩
  · exact ⟨ident_wellFormed hl hd hx, fun _ h => by cases h⟩
  · have hl' := lineOf_isLine hl hl'
    cases hd with | list hd =>
    refine ⟨ident_wellFormed hl' (hd target (by simp)) hx, fun e' h => ?_⟩
    cases h
    exact expr_wellFormed hl' (hd value (by simp)) he

theorem stmtForm_wellFormed {line : Int} {items : List Datum} {s : Stmt} (hl : IsLine line)
    (hd : ∀ d ∈ items, d.Spelled L) (hf : StmtForm line items s)
    (ih : ∀ d ∈ items, ∀ s, stmt line d = .ok s → s.WellFormed L)
    (ih' : ∀ l inner, .array l inner ∈ items → ∀ d ∈ inner, ∀ s, stmt line d = .ok s → s.WellFormed L) :
    s.WellFormed L := by
  have block : ∀ l inner body, .array l inner ∈ items → stmts line inner = .ok body → ∀ s ∈ body, s.WellFormed L :=
    fun l inner body hm hb => forall_mem_of_forall₂ (P := fun _ => True) (stmts_eq_ok_iff.1 hb) (by simp)
      fun d hd s _ h => ih' l inner hm d hd s h
  cases hf with
  | declare ht hne hi =>
    obtain ⟨_, _, _, _, ht⟩ := type_eq_ok_iff.1 ht
    have hi := declItems_eq_ok_iff.1 hi
    refine .declare hl ht ?_ (forall_mem_of_forall₂ hi (fun d h => hd d (by simp [h])) fun _ _ _ hd h =>
      declItem_wellFormed hl hd h)
    rintro rfl
    cases hi
    exact hne rfl
  | assign hx he =>
    exact .assign hl (ident_wellFormed hl (hd _ (by simp)) hx) (expr_wellFormed hl (hd _ (by simp)) he)
  | increment ho hx => exact .increment hl (mem_of_operator_eq_ok ho) (ident_wellFormed hl (hd _ (by simp)) hx)
  | call hc =>
    have hc := call_wellFormed hl (fun d h => hd d (by simp [h])) hc fun l inner hm d hmem e he => by
      cases hd _ (List.mem_cons_of_mem _ hm) with | array ha => exact expr_wellFormed hl (ha d hmem) he
    exact .call hl hc.1 hc.2
  | @ifThen _ m _ _ _ _ hc hb =>
    exact .ifThen hl (expr_wellFormed hl (hd _ (by simp)) hc) (block m _ _ (by simp) hb)
  | @ifElse _ m n _ _ _ _ _ _ hc hb ho =>
    exact .ifElse hl (expr_wellFormed hl (hd _ (by simp)) hc) (block m _ _ (by simp) hb) (block n _ _ (by simp) ho)
  | @whileDo _ m _ _ _ _ hc hb =>
    exact .whileDo hl (expr_wellFormed hl (hd _ (by simp)) hc) (block m _ _ (by simp) hb)
  | @forDo _ m _ _ _ _ _ _ _ _ hi hc hs hb =>
    exact .forDo hl (ih _ (by simp) _ hi) (expr_wellFormed hl (hd _ (by simp)) hc) (ih _ (by simp) _ hs)
      (block m _ _ (by simp) hb)
  | read hx => exact .read hl (ident_wellFormed hl (hd _ (by simp)) hx)
  | print he => exact .print hl (expr_wellFormed hl (hd _ (by simp)) he)
  | leave => exact .ret hl fun _ h => by cases h
  | result he =>
    refine .ret hl fun e h => ?_
    cases h
    exact expr_wellFormed hl (hd _ (by simp)) he

theorem stmt_wellFormed {inherited : Int} {d : Datum} {s : Stmt} (hi : IsLine inherited) (hd : d.Spelled L)
    (h : stmt inherited d = .ok s) : s.WellFormed L := by
  induction d using Datum.forms_induction generalizing inherited s with
  | list start metadata items ih ih' =>
    obtain ⟨_, _, _, line, hd', hl, hf⟩ := stmt_cases h
    cases hd'
    have hl := lineOf_isLine hi hl
    cases hd with | list hd =>
    refine stmtForm_wellFormed hl hd hf (fun d hm s hs => ih d hm hl (hd d hm) hs) ?_
    intro l inner hm d hd' s hs
    cases hd _ hm with | array ha => exact ih' l inner hm d hd' hl (ha d hd') hs
  | _ =>
    obtain ⟨_, _, _, _, hd', _⟩ := stmt_cases h
    cases hd'

theorem block_wellFormed {line : Int} {d : Datum} {ss : List Stmt} (hl : IsLine line) (hd : d.Spelled L)
    (h : block line d = .ok ss) : ∀ s ∈ ss, s.WellFormed L := by
  obtain ⟨l, items, rfl, h⟩ := block_eq_ok_iff.1 h
  cases hd with | array hd =>
  exact forall_mem_of_forall₂ (stmts_eq_ok_iff.1 h) hd fun _ _ _ hd hs => stmt_wellFormed hl hd hs

/-! ### Functions and programs -/

theorem param_wellFormed {line : Int} {d : Datum} {p : Param} (hl : IsLine line) (hd : d.Spelled L)
    (h : param line d = .ok p) : p.WellFormed L := by
  obtain ⟨start, metadata, l, t, target, line', ty, x, rfl, hl', ht, hx, rfl⟩ := param_cases h
  have hl' := lineOf_isLine hl hl'
  obtain ⟨_, _, _, _, ht⟩ := type_eq_ok_iff.1 ht
  cases hd with | list hd => exact ⟨hl', ht, ident_wellFormed hl' (hd target (by simp)) hx⟩

theorem function_wellFormed {line : Int} {d : Datum} {f : Function} (hl : IsLine line) (hd : d.Spelled L)
    (h : function line d = .ok f) : f.WellFormed L := by
  obtain ⟨start, metadata, l, called, between, ps, body, line', rfl, hl', hline, hn, hres, hp, hb, hflaw⟩ :=
    function_cases h
  have hl' := lineOf_isLine hl hl'
  cases hd with | list hd =>
  obtain ⟨m, items, rfl, hps⟩ := params_eq_ok_iff.1 hp
  cases hd (.array m items) (by simp) with | array ha =>
  refine ⟨hline ▸ hl', name_wellFormed (hd called (by simp)) hn, ?_, ?_, block_wellFormed hl' (hd body (by simp)) hb,
    hflaw⟩
  · rcases hres with ⟨-, hv⟩ | ⟨t, -, ht⟩
    · rw [hv]
      rfl
    · obtain ⟨_, _, _, _, ht⟩ := type_eq_ok_iff.1 ht
      exact ht
  · exact forall_mem_of_forall₂ hps ha fun _ _ _ hd h => param_wellFormed hl' hd h

/-- Loading makes well-formed programs. -/
theorem program_wellFormed {d : Datum} {p : Program} (hd : d.Spelled L) (h : program d = .ok p) :
    p.WellFormed L := by
  obtain ⟨start, metadata, l, items, rfl, hl, hf⟩ := program_cases h
  have hl := lineOf_isLine ⟨le_refl 1, by norm_num⟩ hl
  cases hd with | list hd =>
  exact ⟨hl, forall_mem_of_forall₂ hf (fun d h => hd d (by simp [h])) fun _ _ _ hd h => function_wellFormed hl hd h⟩

end Load

/-- Every datum is spelled with words. -/
theorem Datum.spelled_all (d : Datum) : d.Spelled .all := by
  induction d with
  | symbol line text => exact .symbol trivial
  | string line text => exact .string trivial
  | number line text => exact .number trivial
  | list line metadata items ih => exact .list ih
  | array line items ih => exact .array ih
  | map line entries => exact .map

/-- A text that holds a program holds a well-formed one. -/
theorem Program.wellFormed_of_load {text : List Char} {p : Program} (h : Program.load text = .ok p) :
    p.WellFormed .all := by
  obtain ⟨d, -, h⟩ := Program.load_eq_ok_iff.1 h
  exact Load.program_wellFormed d.spelled_all h

end Arvore
