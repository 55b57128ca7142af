import Mathlib
import Arvore.Proofs.Numeral.Literal
import Arvore.Proofs.Program.Tree

/-!
# The shape of program trees

Which children a node has is determined by its kind: their number, their order and their kinds (`Tree.Shaped`). Passes
that take the children of a node by position rely on it. Every node of the tree of a loaded program has the shape of its
kind and stands on a line (`Program.shaped_of_load`).
-/

namespace Arvore

namespace Tree

/-! ### Nodes -/

mutual

/-- A node and all nodes below it, in the order of the text. -/
def nodes : Tree → List Tree
  | ⟨kind, value, line, children⟩ => ⟨kind, value, line, children⟩ :: nodesAll children

/-- The nodes of several trees. -/
def nodesAll : List Tree → List Tree
  | [] => []
  | t :: rest => nodes t ++ nodesAll rest

end

theorem nodesAll_eq_flatMap (ts : List Tree) : nodesAll ts = ts.flatMap nodes := by
  induction ts with
  | nil => rfl
  | cons t rest ih => rw [nodesAll, ih, List.flatMap_cons]

theorem mem_nodes_iff {t n : Tree} : n ∈ t.nodes ↔ n = t ∨ ∃ c ∈ t.children, n ∈ c.nodes := by
  cases t
  rw [nodes, nodesAll_eq_flatMap, List.mem_cons, List.mem_flatMap]

theorem mem_nodes_self (t : Tree) : t ∈ t.nodes := mem_nodes_iff.2 (.inl rfl)

theorem nodes_subset {t c : Tree} (hc : c ∈ t.children) : c.nodes ⊆ t.nodes :=
  fun _ hn => mem_nodes_iff.2 (.inr ⟨c, hc, hn⟩)

/-- A property of a node and of all nodes below it. -/
def Everywhere (P : Tree → Prop) (t : Tree) : Prop := ∀ n ∈ t.nodes, P n

theorem Everywhere.node {P : Tree → Prop} {t : Tree} (h : P t) (hc : ∀ c ∈ t.children, c.Everywhere P) :
    t.Everywhere P := by
  intro n hn
  rcases mem_nodes_iff.1 hn with rfl | ⟨c, hm, hn⟩
  · exact h
  · exact hc c hm n hn

theorem Everywhere.leaf {P : Tree → Prop} {t : Tree} (h : P t) (hc : t.children = []) : t.Everywhere P :=
  .node h (by simp [hc])

/-! ### Shapes -/

/-- The types of parameters and of declared variables. -/
def variableWords : List String := ["inteiro", "real", "logico", "caracter"]

/-- The types of functions. -/
def resultWords : List String := variableWords ++ ["vazio"]

/-- The operations with two operands, each with its operators. -/
def operations : List (Kind × List String) :=
  [(.arithmetic, ["+", "-", "*", "/"]), (.logical, ["&&", "||"]), (.relational, ["<", "<=", ">", ">=", "==", "!="])]

/-- A node for one of the given types. -/
def IsType (words : List String) (t : Tree) : Prop := t.kind = .typeName ∧ t.value ∈ words

/-- A node for one of the given operators. -/
def IsOperator (symbols : List String) (t : Tree) : Prop := t.kind = .operator ∧ t.value ∈ symbols

/-- The name of a variable, which is neither of the two truth values. -/
def IsVariable (t : Tree) : Prop := t.kind = .identifier ∧ t.value ≠ "verdadeiro" ∧ t.value ≠ "falso"

/-- A node that stands for a value. -/
def IsExpr (t : Tree) : Prop :=
  t.IsVariable ∨ t.kind ∈ [.number, .string, .boolean, .arithmetic, .logical, .relational, .unary, .call]

/-- A node that stands for a statement. -/
def IsStmt (t : Tree) : Prop :=
  t.kind ∈ [.declaration, .assignment, .increment, .call, .branch, .whileLoop, .forLoop, .read, .print, .result]

/-- A node has the value and the children that a node of its kind has. Only leaves and functions have a value. -/
inductive Shaped : Tree → Prop
  | program {line functions} (hf : ∀ f ∈ functions, f.kind = .function) : Shaped ⟨.program, "", line, functions⟩
  | function {name line} {result : Tree} {params : List Tree} {body : Tree} (hr : result.IsType resultWords)
      (hp : ∀ p ∈ params, p.kind = .parameter) (hb : body.kind = .block) :
      Shaped ⟨.function, name, line, result :: params ++ [body]⟩
  | parameter {line type x} (ht : type.IsType variableWords) (hx : x.IsVariable) :
      Shaped ⟨.parameter, "", line, [type, x]⟩
  | block {line statements} (hs : ∀ s ∈ statements, s.IsStmt) : Shaped ⟨.block, "", line, statements⟩
  | declaration {line type items} (ht : type.IsType variableWords) (hi : items.kind = .declarationItems) :
      Shaped ⟨.declaration, "", line, [type, items]⟩
  | declarationItems {line x} {init next : Option Tree} (hx : x.IsVariable) (hi : ∀ e ∈ init, e.IsExpr)
      (hn : ∀ items ∈ next, items.kind = .declarationItems) :
      Shaped ⟨.declarationItems, "", line, x :: init.toList ++ next.toList⟩
  | assignment {line x op e} (hx : x.IsVariable) (ho : op.IsOperator ["="]) (he : e.IsExpr) :
      Shaped ⟨.assignment, "", line, [x, op, e]⟩
  | increment {line x op} (hx : x.IsVariable) (ho : op.IsOperator ["++", "--"]) :
      Shaped ⟨.increment, "", line, [x, op]⟩
  | call {line callee args} (hc : callee.kind = .identifier) (ha : ∀ e ∈ args, e.IsExpr) :
      Shaped ⟨.call, "", line, callee :: args⟩
  | branch {line c body} (other : Option Tree) (hc : c.IsExpr) (hb : body.kind = .block)
      (ho : ∀ block ∈ other, block.kind = .block) : Shaped ⟨.branch, "", line, c :: body :: other.toList⟩
  | whileLoop {line c body} (hc : c.IsExpr) (hb : body.kind = .block) : Shaped ⟨.whileLoop, "", line, [c, body]⟩
  | forLoop {line init c step body} (hi : init.IsStmt) (hc : c.IsExpr) (hs : step.IsStmt) (hb : body.kind = .block) :
      Shaped ⟨.forLoop, "", line, [init, c, step, body]⟩
  | read {line x} (hx : x.IsVariable) : Shaped ⟨.read, "", line, [x]⟩
  | print {line e} (he : e.IsExpr) : Shaped ⟨.print, "", line, [e]⟩
  | result {line} {value : Option Tree} (he : ∀ e ∈ value, e.IsExpr) : Shaped ⟨.result, "", line, value.toList⟩
  | operation {kind symbols line a op b} (hk : (kind, symbols) ∈ operations) (ha : a.IsExpr)
      (ho : op.IsOperator symbols) (hb : b.IsExpr) : Shaped ⟨kind, "", line, [a, op, b]⟩
  | unary {line op e} (ho : op.IsOperator ["-", "!"]) (he : e.IsExpr) : Shaped ⟨.unary, "", line, [op, e]⟩
  | identifier {name line} : Shaped ⟨.identifier, name, line, []⟩
  | number {text line} (h : Numeral.IsNumber text) : Shaped ⟨.number, text, line, []⟩
  | string {text line} : Shaped ⟨.string, text, line, []⟩
  | boolean {word line} (h : word = "verdadeiro" ∨ word = "falso") : Shaped ⟨.boolean, word, line, []⟩
  | typeName {word line} : Shaped ⟨.typeName, word, line, []⟩
  | operator {symbol line} : Shaped ⟨.operator, symbol, line, []⟩

/-- A node of the right shape that stands on a line. -/
structure Sound (t : Tree) : Prop where
  shaped : t.Shaped
  line : 1 ≤ t.line

end Tree

/-! ### The nodes of a program -/

section Sound

variable {L : Lexicon}

theorem isTruthWord_iff {word : String} : isTruthWord word = true ↔ word = "verdadeiro" ∨ word = "falso" := by
  rw [isTruthWord, Bool.or_eq_true, decide_eq_true_iff, decide_eq_true_iff]
  rfl

namespace Ident

theorem sound_toTree {x : Ident} (h : IsLine x.line) : x.toTree.Everywhere Tree.Sound := .leaf ⟨.identifier, h.1⟩ rfl

theorem WellFormed.isVariable {x : Ident} (h : x.WellFormed L) : x.toTree.IsVariable := by
  have hword : ¬(x.name = "verdadeiro" ∨ x.name = "falso") := by
    rw [← isTruthWord_iff, h.notTruth]
    exact Bool.false_ne_true
  exact ⟨rfl, not_or.1 hword⟩

end Ident

namespace Ty

theorem sound_toTree {line : Int} (h : IsLine line) (t : Ty) : (t.toTree line).Everywhere Tree.Sound :=
  .leaf ⟨.typeName, h.1⟩ rfl

theorem isType_of_isVariable (line : Int) {t : Ty} (h : t.isVariable = true) :
    (t.toTree line).IsType Tree.variableWords := by
  refine ⟨rfl, ?_⟩
  cases t with
  | function | void | other => cases h
  | _ => simp [toTree, word, Tree.variableWords]

theorem isType_of_isResult (line : Int) {t : Ty} (h : Load.isResult t = true) :
    (t.toTree line).IsType Tree.resultWords := by
  rw [Load.isResult, Bool.or_eq_true] at h
  rcases h with h | h
  · exact ⟨rfl, List.mem_append_left _ (isType_of_isVariable line h).2⟩
  · rw [of_decide_eq_true h]
    exact ⟨rfl, by simp [toTree, word, Tree.resultWords]⟩

end Ty

namespace Expr

theorem sound_operatorTree {line : Int} (h : IsLine line) (symbol : String) :
    (operatorTree line symbol).Everywhere Tree.Sound := .leaf ⟨.operator, h.1⟩ rfl

theorem isOperator_of_mem {α : Type} (symbol : α → String) (line : Int) {known : List α} {op : α} (h : op ∈ known) :
    (operatorTree line (symbol op)).IsOperator (known.map symbol) := ⟨rfl, List.mem_map_of_mem h⟩

theorem WellFormed.isExpr {e : Expr} (h : e.WellFormed L) : e.toTree.IsExpr := by
  cases h with
  | var hx =>
    rw [toTree]
    exact .inl hx.isVariable
  | _ => simp [toTree, Tree.IsExpr]

/-- An operation is sound if its operands are. -/
theorem sound_operation {kind : Kind} {symbols : List String} (hk : (kind, symbols) ∈ Tree.operations) {line : Int}
    (hl : IsLine line) {symbol : String} (ho : (operatorTree line symbol).IsOperator symbols) {a b : Tree}
    (ha : a.IsExpr) (hb : b.IsExpr) (iha : a.Everywhere Tree.Sound) (ihb : b.Everywhere Tree.Sound) :
    Tree.Everywhere Tree.Sound ⟨kind, "", line, [a, operatorTree line symbol, b]⟩ :=
  .node ⟨.operation hk ha ho hb, hl.1⟩ (by simp [iha, ihb, sound_operatorTree hl])

theorem sound_toTree {e : Expr} (h : e.WellFormed L) : e.toTree.Everywhere Tree.Sound := by
  induction h with
  | number hl _ hr =>
    rw [toTree]
    exact .leaf ⟨.number (Numeral.isNumber_of_representable hr), hl.1⟩ rfl
  | string hl =>
    rw [toTree]
    exact .leaf ⟨.string, hl.1⟩ rfl
  | boolean hl _ ht =>
    rw [toTree]
    exact .leaf ⟨.boolean (isTruthWord_iff.1 ht), hl.1⟩ rfl
  | var hx =>
    rw [toTree]
    exact .leaf ⟨.identifier, hx.line.1⟩ rfl
  | arithmetic hl ho ha hb iha ihb =>
    rw [toTree]
    exact sound_operation (.head _) hl (isOperator_of_mem ArithmeticOp.symbol _ ho) ha.isExpr hb.isExpr iha ihb
  | logical hl ho ha hb iha ihb =>
    rw [toTree]
    exact sound_operation (.tail _ (.head _)) hl (isOperator_of_mem LogicalOp.symbol _ ho) ha.isExpr hb.isExpr iha ihb
  | relational hl ho ha hb iha ihb =>
    rw [toTree]
    exact sound_operation (.tail _ (.tail _ (.head _))) hl (isOperator_of_mem RelationalOp.symbol _ ho) ha.isExpr
      hb.isExpr iha ihb
  | unary hl ho he ih =>
    rw [toTree]
    exact .node ⟨.unary (isOperator_of_mem UnaryOp.symbol _ ho) he.isExpr, hl.1⟩ (by simp [ih, sound_operatorTree hl])
  | call hl hc ha ih =>
    rw [toTree, toTrees_eq_map]
    refine .node ⟨.call rfl ?_, hl.1⟩ ?_
    · simpa using fun e he => (ha e he).isExpr
    · simpa [Ident.sound_toTree hc.line] using ih

end Expr

/-- A chain is one link for each item, and each link holds the next. -/
theorem DeclItem.sound_chain {items : List DeclItem} (h : ∀ item ∈ items, item.WellFormed L) :
    ∀ t ∈ chain items, t.Everywhere Tree.Sound := by
  induction items with
  | nil => simp [chain]
  | cons item rest ih =>
    simp only [List.forall_mem_cons] at h
    have hinit : ∀ e, item.init = some e → e.toTree.IsExpr := fun e he => (h.1.init e he).isExpr
    have hbelow : ∀ e, item.init = some e → e.toTree.Everywhere Tree.Sound :=
      fun e he => Expr.sound_toTree (h.1.init e he)
    obtain ⟨next, hnext⟩ : ∃ next : Option Tree, chain rest = next.toList := by
      cases rest with
      | nil => exact ⟨none, rfl⟩
      | cons => exact ⟨some _, rfl⟩
    rw [chain]
    simp only [List.mem_singleton, forall_eq]
    refine .node ⟨?_, h.1.target.line.1⟩ ?_
    · rw [hnext]
      refine .declarationItems h.1.target.isVariable (by simpa using hinit) fun items hm => ?_
      have hlink : items ∈ chain rest := by
        rw [hnext]
        exact Option.mem_toList.2 hm
      exact kind_of_mem_chain hlink
    · simpa [Ident.sound_toTree h.1.target.line, or_imp, forall_and] using ⟨hbelow, ih h.2⟩

namespace Stmt

theorem WellFormed.isStmt {s : Stmt} (h : s.WellFormed L) : s.toTree.IsStmt := by
  cases h <;> simp [toTree, Tree.IsStmt]

theorem sound_block {line : Int} (hl : IsLine line) {ss : List Stmt} (h : ∀ s ∈ ss, s.WellFormed L)
    (ih : ∀ s ∈ ss, s.toTree.Everywhere Tree.Sound) : Tree.Everywhere Tree.Sound ⟨.block, "", line, ss.map toTree⟩ := by
  refine .node ⟨.block ?_, hl.1⟩ (by simpa using ih)
  simpa using fun s hs => (h s hs).isStmt

theorem sound_toTree {s : Stmt} (h : s.WellFormed L) : s.toTree.Everywhere Tree.Sound := by
  induction h with
  | @declare line type items hl ht hne hi =>
    have hchain := DeclItem.sound_chain hi
    obtain ⟨item, rest, rfl⟩ := List.exists_cons_of_ne_nil hne
    rw [toTree]
    refine .node ⟨.declaration (Ty.isType_of_isVariable _ ht) rfl, hl.1⟩ ?_
    simpa [Ty.sound_toTree hl] using hchain
  | assign hl hx he =>
    rw [toTree]
    refine .node ⟨.assignment hx.isVariable ⟨rfl, .head _⟩ he.isExpr, hl.1⟩ ?_
    simp [Ident.sound_toTree hx.line, Expr.sound_operatorTree hl, Expr.sound_toTree he]
  | increment hl ho hx =>
    rw [toTree]
    refine .node ⟨.increment hx.isVariable (Expr.isOperator_of_mem StepOp.symbol _ ho), hl.1⟩ ?_
    simp [Ident.sound_toTree hx.line, Expr.sound_operatorTree hl]
  | call hl hc ha =>
    -- the node of a call is the same in an expression
    have h := Expr.sound_toTree (.call hl hc ha)
    rw [Expr.toTree] at h
    rwa [toTree]
  | ifThen hl hc hb ih =>
    rw [toTree, toTrees_eq_map]
    refine .node ⟨.branch none hc.isExpr rfl (by simp), hl.1⟩ ?_
    simp [Expr.sound_toTree hc, sound_block hl hb ih]
  | ifElse hl hc hb ho ihb iho =>
    rw [toTree, toTrees_eq_map, toTrees_eq_map]
    refine .node ⟨.branch (some _) hc.isExpr rfl (by simp), hl.1⟩ ?_
    simp [Expr.sound_toTree hc, sound_block hl hb ihb, sound_block hl ho iho]
  | whileDo hl hc hb ih =>
    rw [toTree, toTrees_eq_map]
    exact .node ⟨.whileLoop hc.isExpr rfl, hl.1⟩ (by simp [Expr.sound_toTree hc, sound_block hl hb ih])
  | forDo hl hi hc hs hb ihi ihs ih =>
    rw [toTree, toTrees_eq_map]
    refine .node ⟨.forLoop hi.isStmt hc.isExpr hs.isStmt rfl, hl.1⟩ ?_
    simp [Expr.sound_toTree hc, ihi, ihs, sound_block hl hb ih]
  | read hl hx =>
    rw [toTree]
    exact .node ⟨.read hx.isVariable, hl.1⟩ (by simp [Ident.sound_toTree hx.line])
  | print hl he =>
    rw [toTree]
    exact .node ⟨.print he.isExpr, hl.1⟩ (by simp [Expr.sound_toTree he])
  | ret hl he =>
    rw [toTree]
    refine .node ⟨.result ?_, hl.1⟩ ?_
    · simpa using fun e hm => (he e hm).isExpr
    · simpa using fun e hm => Expr.sound_toTree (he e hm)

end Stmt

theorem Param.sound_toTree {p : Param} (h : p.WellFormed L) : p.toTree.Everywhere Tree.Sound := by
  refine .node ⟨.parameter (Ty.isType_of_isVariable _ h.type) h.target.isVariable, h.line.1⟩ ?_
  simp [Param.toTree, Ty.sound_toTree h.line, Ident.sound_toTree h.target.line]

theorem Function.sound_toTree {f : Function} (h : f.WellFormed L) : f.toTree.Everywhere Tree.Sound := by
  refine .node ⟨.function (Ty.isType_of_isResult _ h.result) ?_ rfl, h.line.1⟩ ?_
  · simp [Param.toTree]
  · simp only [Function.toTree, List.cons_append, List.mem_cons, List.mem_append, List.mem_map, List.not_mem_nil,
      or_false, Stmt.toTrees_eq_map]
    rintro t (rfl | ⟨p, hp, rfl⟩ | rfl)
    · exact Ty.sound_toTree h.line _
    · exact Param.sound_toTree (h.params p hp)
    · exact Stmt.sound_block h.line h.body fun s hs => Stmt.sound_toTree (h.body s hs)

theorem Program.sound_toTree {p : Program} (h : p.WellFormed L) : p.toTree.Everywhere Tree.Sound := by
  refine .node ⟨.program ?_, h.line.1⟩ ?_
  · simp [Function.toTree]
  · simpa [Program.toTree] using fun f hf => Function.sound_toTree (h.functions f hf)

end Sound

/-- Every node of the tree of a loaded program has the shape of its kind and stands on a line. -/
theorem Program.shaped_of_load {text : List Char} {p : Program} (h : Program.load text = .ok p) :
    p.toTree.kind = .program ∧ ∀ t ∈ p.toTree.nodes, t.Shaped ∧ 1 ≤ t.line := by
  have hsound := sound_toTree (wellFormed_of_load h)
  exact ⟨rfl, fun t ht => ⟨(hsound t ht).shaped, (hsound t ht).line⟩⟩

namespace Survey

/-- A program with every kind of node. -/
def text : List Char :=
  "(program (^{line: 2} func f real [(param real x)] [(decl inteiro i (init k -7) j) (increment \"--\" i)
    (for (assign i 0) (relational \"<\" i 3) (increment \"++\" i) [(call falso [(unary \"-\" 2.5e-1) \"s\"])])
    (if (logical \"||\" verdadeiro falso) [(read x)] [(print (binary \"/\" i k))])
    (while falso [(if verdadeiro [])]) (return x)]) (^{line: 9} func falso [] [(return)]))".toList

/-- What the text is read as. -/
def datum : Datum :=
  .list 1 [] [.symbol 1 "program",
    .list 1 [("line", .number 1 "2")] [.symbol 1 "func", .symbol 1 "f", .symbol 1 "real",
      .array 1 [.list 1 [] [.symbol 1 "param", .symbol 1 "real", .symbol 1 "x"]],
      .array 1 [
        .list 1 [] [.symbol 1 "decl", .symbol 1 "inteiro", .symbol 1 "i",
          .list 1 [] [.symbol 1 "init", .symbol 1 "k", .number 1 "-7"], .symbol 1 "j"],
        .list 1 [] [.symbol 1 "increment", .string 1 "--", .symbol 1 "i"],
        .list 2 [] [.symbol 2 "for", .list 2 [] [.symbol 2 "assign", .symbol 2 "i", .number 2 "0"],
          .list 2 [] [.symbol 2 "relational", .string 2 "<", .symbol 2 "i", .number 2 "3"],
          .list 2 [] [.symbol 2 "increment", .string 2 "++", .symbol 2 "i"],
          .array 2 [.list 2 [] [.symbol 2 "call", .symbol 2 "falso",
            .array 2 [.list 2 [] [.symbol 2 "unary", .string 2 "-", .number 2 "2.5e-1"], .string 2 "s"]]]],
        .list 3 [] [.symbol 3 "if",
          .list 3 [] [.symbol 3 "logical", .string 3 "||", .symbol 3 "verdadeiro", .symbol 3 "falso"],
          .array 3 [.list 3 [] [.symbol 3 "read", .symbol 3 "x"]],
          .array 3 [.list 3 [] [.symbol 3 "print",
            .list 3 [] [.symbol 3 "binary", .string 3 "/", .symbol 3 "i", .symbol 3 "k"]]]],
        .list 4 [] [.symbol 4 "while", .symbol 4 "falso",
          .array 4 [.list 4 [] [.symbol 4 "if", .symbol 4 "verdadeiro", .array 4 []]]],
        .list 4 [] [.symbol 4 "return", .symbol 4 "x"]]],
    .list 4 [("line", .number 4 "9")] [.symbol 4 "func", .symbol 4 "falso", .array 4 [],
      .array 4 [.list 4 [] [.symbol 4 "return"]]]]

def program : Program where
  line := 1
  functions := [
    { line := 2, name := "f", result := .real, params := [⟨2, .real, ⟨2, "x"⟩⟩]
      body := [
        .declare 2 .integer [⟨⟨2, "i"⟩, none⟩, ⟨⟨2, "k"⟩, some (.number 2 "-7")⟩, ⟨⟨2, "j"⟩, none⟩],
        .increment 2 .down ⟨2, "i"⟩,
        .forDo 2 (.assign 2 ⟨2, "i"⟩ (.number 2 "0")) (.relational 2 .lt (.var 2 "i") (.number 2 "3"))
          (.increment 2 .up ⟨2, "i"⟩)
          [.call 2 ⟨2, "falso"⟩ [.unary 2 .neg (.number 2 "2.5e-1"), .string 2 "s"]],
        .ifElse 2 (.logical 2 .or (.boolean 2 "verdadeiro") (.boolean 2 "falso")) [.read 2 ⟨2, "x"⟩]
          [.print 2 (.arithmetic 2 .div (.var 2 "i") (.var 2 "k"))],
        .whileDo 2 (.boolean 2 "falso") [.ifThen 2 (.boolean 2 "verdadeiro") []],
        .ret 2 (some (.var 2 "x"))] },
    { line := 9, name := "falso", result := .void, params := [], body := [.ret 9 none] }]

set_option maxRecDepth 4000 in
theorem load : Program.load text = .ok program := by
  refine Program.load_eq_ok_iff.2 ⟨datum, ?_, by rfl⟩
  apply of_literal (P := (Datum.parse · = .ok datum))
  cbv

end Survey

/-- All kinds of nodes occur in the tree of this program, each with its shape. -/
theorem survey_shaped :
    Program.load Survey.text = .ok Survey.program ∧
    (∀ kind ∈ Kind.known, ∃ t ∈ Survey.program.toTree.nodes, t.kind = kind) ∧
    ∀ t ∈ Survey.program.toTree.nodes, t.Shaped ∧ 1 ≤ t.line :=
  ⟨Survey.load, by decide +kernel, (Program.shaped_of_load Survey.load).2⟩

end Arvore
