import Mathlib
import Arvore.Program.Tree
import Arvore.Proofs.Load.WellFormed
import Arvore.Tree.Render

/-!
# The trees of well-formed programs

The tree of a well-formed program has every part that its kind asks for, in its place: taken apart again it gives the
program back (`Program.ofTree_toTree`), and every node answers what a pass may ask a node of its kind
(`Program.complete_toTree`).
-/

namespace Arvore

/-! ### Words -/

theorem Ty.ofWord_word {t : Ty} (h : Load.isResult t = true) : ofWord t.word = t := by
  cases t with
  | function | other word => cases h
  | _ => rfl

theorem Ty.isResult_of_isVariable {t : Ty} (h : t.isVariable = true) : Load.isResult t = true := by
  simp [Load.isResult, h]

theorem ArithmeticOp.ofSymbol_symbol {op : ArithmeticOp} (h : op ∈ known) : ofSymbol op.symbol = op := by
  cases op <;> first | rfl | simp [known] at h

theorem LogicalOp.ofSymbol_symbol {op : LogicalOp} (h : op ∈ known) : ofSymbol op.symbol = op := by
  cases op <;> first | rfl | simp [known] at h

theorem RelationalOp.ofSymbol_symbol {op : RelationalOp} (h : op ∈ known) : ofSymbol op.symbol = op := by
  cases op <;> first | rfl | simp [known] at h

theorem UnaryOp.ofSymbol_symbol {op : UnaryOp} (h : op ∈ known) : ofSymbol op.symbol = op := by
  cases op <;> first | rfl | simp [known] at h

theorem StepOp.ofSymbol_symbol {op : StepOp} (h : op ∈ known) : ofSymbol op.symbol = op := by
  cases op <;> first | rfl | simp [known] at h

/-! ### Taking trees apart -/

section OfTree

variable {L : Lexicon}

attribute [local simp] Ty.toTree Expr.toTree DeclItem.chain Stmt.toTree Param.toTree Function.toTree

@[simp] theorem Ident.ofTree_toTree (x : Ident) : Ident.ofTree x.toTree = x := rfl

namespace Expr

@[simp] theorem toTrees_eq_map (es : List Expr) : toTrees es = es.map toTree := by
  induction es with
  | nil => rfl
  | cons e rest ih => rw [toTrees, ih, List.map_cons]

@[simp] theorem ofTrees_eq_map (ts : List Tree) : ofTrees ts = ts.map ofTree := by
  induction ts with
  | nil => rfl
  | cons t rest ih => rw [ofTrees, ih, List.map_cons]

theorem map_ofTree_toTree {es : List Expr} (h : ∀ e ∈ es, ofTree e.toTree = e) :
    (es.map toTree).map ofTree = es := by
  rw [List.map_map]
  exact (List.map_congr_left h).trans es.map_id

theorem ofTree_toTree {e : Expr} (h : e.WellFormed L) : ofTree e.toTree = e := by
  induction h with
  | number | string | boolean | var => simp only [toTree, ofTree]
  | arithmetic _ ho _ _ iha ihb =>
    simp only [toTree, operatorTree, ofTree, rightOf, operatorOf, List.head?_cons, Option.map_some, Option.getD_some,
      ArithmeticOp.ofSymbol_symbol ho, iha, ihb]
  | logical _ ho _ _ iha ihb =>
    simp only [toTree, operatorTree, ofTree, rightOf, operatorOf, List.head?_cons, Option.map_some, Option.getD_some,
      LogicalOp.ofSymbol_symbol ho, iha, ihb]
  | relational _ ho _ _ iha ihb =>
    simp only [toTree, operatorTree, ofTree, rightOf, operatorOf, List.head?_cons, Option.map_some, Option.getD_some,
      RelationalOp.ofSymbol_symbol ho, iha, ihb]
  | unary _ ho _ ih => simp only [toTree, operatorTree, ofTree, UnaryOp.ofSymbol_symbol ho, ih]
  | call _ _ _ ih =>
    simp only [toTree, ofTree, Ident.ofTree_toTree, toTrees_eq_map, ofTrees_eq_map, map_ofTree_toTree ih]

/-- No expression is a link of a chain of declared names. -/
theorem kind_toTree_ne {e : Expr} (h : e.WellFormed L) : e.toTree.kind ≠ .declarationItems := by
  cases h <;> simp

end Expr

namespace DeclItem

variable {items : List DeclItem}

/-- A chain is no link or one. -/
theorem kind_of_mem_chain {t : Tree} (h : t ∈ chain items) : t.kind = .declarationItems := by
  cases items with
  | nil => cases h
  | cons item rest =>
    rw [chain, List.mem_singleton] at h
    rw [h]

/-- The name and the initial value of an item, as they stand in a link of the chain. -/
def parts (item : DeclItem) : Tree × Option Tree := (item.target.toTree, item.init.map Expr.toTree)

theorem ofTree_parts {item : DeclItem} (h : item.WellFormed L) : ofTree item.parts.1 item.parts.2 = item := by
  obtain ⟨target, init⟩ := item
  cases init with
  | none => rfl
  | some e => simp [parts, ofTree, Expr.ofTree_toTree (h.init e rfl)]

/-- The links after an item are found behind its initial value. -/
private theorem lastChainItems_parts {item : DeclItem} {rest : List DeclItem} (h : item.WellFormed L) :
    Tree.lastChainItems (item.parts.2.toList ++ chain rest) = Tree.lastChainItems (chain rest) := by
  obtain ⟨target, init⟩ := item
  cases init with
  | none => rfl
  | some e =>
    have he := Expr.kind_toTree_ne (h.init e rfl)
    cases rest with
    | nil => simp [parts, Tree.lastChainItems, he]
    | cons item rest => simp [parts, Tree.lastChainItems]

/-- The initial value of an item is the last part of its link that is no link. -/
private theorem getLast?_filter_parts {item : DeclItem} (rest : List DeclItem) (h : item.WellFormed L) :
    ((item.parts.2.toList ++ chain rest).filter (·.kind ≠ .declarationItems)).getLast? = item.parts.2 := by
  have hrest : (chain rest).filter (·.kind ≠ .declarationItems) = [] := by
    simp only [List.filter_eq_nil_iff]
    intro t ht
    simp [kind_of_mem_chain ht]
  rw [List.filter_append, hrest]
  obtain ⟨target, init⟩ := item
  cases init with
  | none => rfl
  | some e => simp [parts, Expr.kind_toTree_ne (h.init e rfl)]

theorem lastChainItems_chain (h : ∀ item ∈ items, item.WellFormed L) :
    Tree.lastChainItems (chain items) = .ok (items.map parts) := by
  induction items with
  | nil => rfl
  | cons item rest ih =>
    simp only [List.forall_mem_cons] at h
    have hparts := getLast?_filter_parts rest h.1
    simp only [parts] at hparts
    simp only [chain, Tree.lastChainItems, List.any_nil, Bool.false_eq_true, if_false, if_true, List.cons_append,
      Tree.chainItems, bind_eq_ok_iff]
    exact ⟨_, (lastChainItems_parts h.1).trans (ih h.2), by rw [hparts]; rfl⟩

end DeclItem

namespace Stmt

@[simp] theorem toTrees_eq_map (ss : List Stmt) : toTrees ss = ss.map toTree := by
  induction ss with
  | nil => rfl
  | cons s rest ih => rw [toTrees, ih, List.map_cons]

@[simp] theorem ofTrees_eq_map (ts : List Tree) : ofTrees ts = ts.map ofTree := by
  induction ts with
  | nil => rfl
  | cons t rest ih => rw [ofTrees, ih, List.map_cons]

@[simp] theorem lastBlock_singleton (b : Tree) : lastBlock [b] = b.children.map ofTree := by
  cases b
  rw [lastBlock, ofTrees_eq_map]

@[simp] theorem lastBlock_cons_cons (t u : Tree) (rest : List Tree) :
    lastBlock (t :: u :: rest) = lastBlock (u :: rest) := by
  rw [lastBlock]
  simp

theorem lastBlock_snoc (ts : List Tree) (b : Tree) : lastBlock (ts ++ [b]) = b.children.map ofTree := by
  induction ts with
  | nil => simp
  | cons t rest ih =>
    rw [← ih]
    cases rest <;> simp

theorem map_ofTree_toTree {ss : List Stmt} (h : ∀ s ∈ ss, ofTree s.toTree = s) :
    (ss.map toTree).map ofTree = ss := by
  rw [List.map_map]
  exact (List.map_congr_left h).trans ss.map_id

theorem declareOfTree_toTree (line : Int) {type : Ty} {items : List DeclItem} (ht : type.isVariable = true)
    (hne : items ≠ []) (hi : ∀ item ∈ items, item.WellFormed L) :
    declareOfTree (toTree (.declare line type items)) = .declare line type items := by
  have hitems : (toTree (.declare line type items)).declItems = .ok (items.map DeclItem.parts) := by
    obtain ⟨item, rest, rfl⟩ := List.exists_cons_of_ne_nil hne
    have hlast := DeclItem.lastChainItems_chain hi
    simpa [Tree.declItems, Tree.child, Tree.lastChainItems, bind, Except.bind] using hlast
  have hparts : items.map (fun item => DeclItem.ofTree item.parts.1 item.parts.2) = items :=
    (List.map_congr_left fun item hm => DeclItem.ofTree_parts (hi item hm)).trans items.map_id
  rw [declareOfTree, hitems]
  simp [Ty.ofWord_word (Ty.isResult_of_isVariable ht), Function.comp_def, hparts]

theorem ofTree_toTree {s : Stmt} (h : s.WellFormed L) : ofTree s.toTree = s := by
  induction h with
  | @declare line type items _ ht hne hi =>
    have hd := declareOfTree_toTree line ht hne hi
    simp only [toTree, ofTree] at hd ⊢
    exact hd
  | assign _ _ he =>
    simp only [toTree, ofTree, assignedOf, Ident.ofTree_toTree, Expr.ofTree_toTree he]
  | increment _ ho _ =>
    simp only [toTree, ofTree, Expr.operatorTree, Ident.ofTree_toTree, StepOp.ofSymbol_symbol ho]
  | call _ _ ha =>
    simp only [toTree, ofTree, Ident.ofTree_toTree, Expr.toTrees_eq_map, Expr.ofTrees_eq_map,
      Expr.map_ofTree_toTree fun e he => Expr.ofTree_toTree (ha e he)]
  | ifThen _ hc _ ih =>
    simp only [toTree, ofTree, toTrees_eq_map, ofTrees_eq_map, Expr.ofTree_toTree hc, map_ofTree_toTree ih]
  | ifElse _ hc _ _ ihb iho =>
    simp only [toTree, ofTree, toTrees_eq_map, ofTrees_eq_map, Expr.ofTree_toTree hc, map_ofTree_toTree ihb,
      map_ofTree_toTree iho]
  | whileDo _ hc _ ih =>
    simp only [toTree, ofTree, lastBlock_cons_cons, lastBlock_singleton, toTrees_eq_map, Expr.ofTree_toTree hc,
      map_ofTree_toTree ih]
  | forDo _ _ hc _ _ ihi ihs ih =>
    simp only [toTree, ofTree, lastBlock_cons_cons, lastBlock_singleton, stepOf, toTrees_eq_map, List.head?_cons,
      Option.map_some, Option.getD_some, Expr.ofTree_toTree hc, ihi, ihs, map_ofTree_toTree ih]
  | read => simp only [toTree, ofTree, Ident.ofTree_toTree]
  | print _ he => simp only [toTree, ofTree, Expr.ofTree_toTree he]
  | @ret line value _ he =>
    cases value with
    | none => simp [ofTree]
    | some e => simp [ofTree, Expr.ofTree_toTree (he e rfl)]

end Stmt

theorem Param.ofTree?_toTree {p : Param} (h : p.WellFormed L) : ofTree? p.toTree = some p := by
  simp [ofTree?, Ty.ofWord_word (Ty.isResult_of_isVariable h.type)]

theorem Param.ofTrees_map_toTree {ps : List Param} (h : ∀ p ∈ ps, p.WellFormed L) :
    ofTrees (ps.map toTree) = ps := by
  have hmap : (ps.map toTree).map ofTree? = ps.map some := by
    rw [List.map_map]
    exact List.map_congr_left fun p hp => ofTree?_toTree (h p hp)
  rw [ofTrees, hmap, List.takeWhile_eq_self_iff.2 (by simp)]
  simp

theorem Param.mapM_typeOfTree? (ps : List Param) : ∃ types, (ps.map toTree).mapM typeOfTree? = some types ∧
    types.length = ps.length := by
  induction ps with
  | nil => exact ⟨[], rfl, rfl⟩
  | cons p rest ih =>
    obtain ⟨types, ht, hl⟩ := ih
    refine ⟨.ofWord p.type.word :: types, ?_, by simp [hl]⟩
    simp [ht, typeOfTree?]

theorem Function.ofTree_toTree {f : Function} (h : f.WellFormed L) : Function.ofTree f.toTree = f := by
  obtain ⟨types, ht, hl⟩ := Param.mapM_typeOfTree? f.params
  have hp : f.toTree.params = f.params.map Param.toTree := by simp [Tree.params]
  have hb := Stmt.lastBlock_snoc (f.params.map Param.toTree) ⟨.block, "", f.line, Stmt.toTrees f.body⟩
  rw [Stmt.toTrees_eq_map, Stmt.map_ofTree_toTree fun s hs => Stmt.ofTree_toTree (h.body s hs)] at hb
  obtain ⟨next, rest, hn⟩ : ∃ next rest,
      f.params.map Param.toTree ++ [⟨.block, "", f.line, f.body.map Stmt.toTree⟩] = next :: rest :=
    List.exists_cons_of_ne_nil (by simp)
  have hc : f.toTree.children = f.result.toTree f.line :: next :: rest := by
    rw [← hn]
    simp
  rw [hn] at hb
  have hf := h.flaw
  rw [Function.ofTree, hc, hp, ht]
  simp only [Param.ofTrees_map_toTree h.params, hb, hl, if_true, Ty.toTree, Ty.ofWord_word h.result]
  cases f
  simp_all

/-- The tree of a well-formed program is that of no other program: taken apart it gives the program back. -/
theorem Program.ofTree_toTree {p : Program} (h : p.WellFormed L) : Program.ofTree p.toTree = p := by
  have hf : (p.functions.map Function.toTree).map Function.ofTree = p.functions := by
    rw [List.map_map]
    exact (List.map_congr_left fun f hf => Function.ofTree_toTree (h.functions f hf)).trans p.functions.map_id
  rw [Program.ofTree, Program.toTree, hf]

end OfTree

/-! ### Asking nodes for their parts -/

/-- A node has the parts that a node of its kind is asked for. -/
structure Tree.Answers (t : Tree) : Prop where
  operator : t.kind ∈ [.unary, .arithmetic, .logical, .relational, .assignment, .increment] →
    ∃ symbol, t.operator = .ok symbol
  value : t.kind ∈ [.assignment, .unary, .print, .result] → ∃ e, t.valueExpr? = .ok e
  target : t.kind ∈ [.assignment, .increment, .read, .parameter] → ∃ x, t.target = .ok x
  items : t.kind = .declaration → ∃ items, t.declItems = .ok items
  body : t.kind ∈ [.function, .whileLoop, .forLoop] → ∃ block, t.body = .ok block
  nested : ∃ statements, t.nested = .ok statements

/-- A node answers, and so do all nodes below it. -/
inductive Tree.Complete : Tree → Prop
  | node {t : Tree} (h : t.Answers) (hc : ∀ c ∈ t.children, Complete c) : Complete t

section Complete

variable {L : Lexicon}

namespace Tree

/-- The kinds whose nodes no pass asks for parts. -/
def isPlain (kind : Kind) : Bool :=
  kind ∈ [.program, .block, .declarationItems, .identifier, .number, .string, .boolean, .call, .typeName, .operator]

theorem nested_eq_singleton {t : Tree} (h : t.kind ∉ [Kind.branch, .whileLoop, .forLoop]) : t.nested = .ok [t] := by
  unfold nested
  split
  case h_4 => rfl
  all_goals simp at h

theorem Answers.of_isPlain {t : Tree} (h : isPlain t.kind = true) : t.Answers := by
  have other {kinds : List Kind} (hd : ∀ k ∈ kinds, isPlain k = false) : t.kind ∉ kinds := by
    intro hm
    rw [hd _ hm] at h
    cases h
  refine ⟨fun hm => absurd hm (other (by decide)), fun hm => absurd hm (other (by decide)),
    fun hm => absurd hm (other (by decide)), fun hm => ?_, fun hm => absurd hm (other (by decide)),
    ⟨[t], nested_eq_singleton (other (by decide))⟩⟩
  have hdeclaration : t.kind ∉ [Kind.declaration] := other (by decide)
  exact absurd (List.mem_singleton.2 hm) hdeclaration

theorem Complete.leaf {t : Tree} (hk : isPlain t.kind = true) (hc : t.children = []) : t.Complete :=
  .node (.of_isPlain hk) (by simp [hc])

end Tree

attribute [local simp] Tree.operator Tree.valueExpr? Tree.target Tree.child Tree.nested Tree.nestedLast

theorem Ident.complete_toTree (x : Ident) : x.toTree.Complete := .leaf rfl rfl

theorem Ty.complete_toTree (line : Int) (t : Ty) : (t.toTree line).Complete := .leaf rfl rfl

namespace Expr

theorem complete_operatorTree (line : Int) (symbol : String) : (operatorTree line symbol).Complete := .leaf rfl rfl

/-- What the nodes of two operands and an operator between them answer. -/
private theorem answers_operation {kind : Kind} (hk : kind ∈ [Kind.arithmetic, .logical, .relational]) (line : Int)
    (a op b : Tree) : Tree.Answers ⟨kind, "", line, [a, op, b]⟩ := by
  simp only [List.mem_cons, List.not_mem_nil, or_false] at hk
  rcases hk with rfl | rfl | rfl <;> constructor <;> simp

theorem complete_toTree {e : Expr} (h : e.WellFormed L) : e.toTree.Complete := by
  induction h with
  | number | string | boolean | var =>
    rw [toTree]
    exact .leaf rfl rfl
  | arithmetic _ _ _ _ iha ihb | logical _ _ _ _ iha ihb | relational _ _ _ _ iha ihb =>
    rw [toTree]
    exact .node (answers_operation (by simp) ..) (by simp [iha, ihb, complete_operatorTree])
  | unary _ _ _ ih =>
    rw [toTree]
    refine .node ?_ (by simp [ih, complete_operatorTree])
    constructor <;> simp
  | call _ _ _ ih =>
    rw [toTree, toTrees_eq_map]
    refine .node (.of_isPlain rfl) ?_
    simpa [Ident.complete_toTree] using ih

end Expr

theorem DeclItem.complete_chain {items : List DeclItem} (h : ∀ item ∈ items, item.WellFormed L) :
    ∀ t ∈ chain items, t.Complete := by
  induction items with
  | nil => simp [chain]
  | cons item rest ih =>
    simp only [List.forall_mem_cons] at h
    have hi : ∀ e, item.init = some e → e.toTree.Complete := fun e he => Expr.complete_toTree (h.1.init e he)
    rw [chain]
    simp only [List.mem_singleton, forall_eq]
    refine .node (.of_isPlain rfl) ?_
    simpa [Ident.complete_toTree, or_imp, forall_and] using ⟨hi, ih h.2⟩

namespace Stmt

theorem nestedAll_eq_ok {ss : List Stmt} (h : ∀ s ∈ ss, ∃ ts, s.toTree.nested = .ok ts) :
    ∃ ts, Tree.nestedAll (ss.map toTree) = .ok ts := by
  induction ss with
  | nil => exact ⟨[], rfl⟩
  | cons s rest ih =>
    simp only [List.forall_mem_cons] at h
    obtain ⟨first, hf⟩ := h.1
    obtain ⟨others, ho⟩ := ih h.2
    exact ⟨first ++ others, bind_eq_ok_iff.2 ⟨first, hf, bind_eq_ok_iff.2 ⟨others, ho, rfl⟩⟩⟩

theorem complete_block (line : Int) {ss : List Stmt} (h : ∀ s ∈ ss, s.toTree.Complete) :
    Tree.Complete ⟨.block, "", line, ss.map toTree⟩ := .node (.of_isPlain rfl) (by simpa using h)

/-- The statements below a node of the tree are found if those below each of its blocks are. -/
theorem complete_toTree {s : Stmt} (h : s.WellFormed L) : s.toTree.Complete := by
  have below {ss : List Stmt} (h : ∀ s ∈ ss, s.toTree.Complete) : ∃ ts, Tree.nestedAll (ss.map toTree) = .ok ts :=
    nestedAll_eq_ok fun s hs => by
      cases h s hs with
      | node h _ => exact h.nested
  induction h with
  | @declare line type items _ _ hne hi =>
    rw [toTree]
    refine .node ?_ ?_
    · obtain ⟨item, rest, rfl⟩ := List.exists_cons_of_ne_nil hne
      have hlast := DeclItem.lastChainItems_chain hi
      simp only [DeclItem.chain, Tree.lastChainItems] at hlast
      constructor <;> simp [Tree.declItems, DeclItem.chain, bind, Except.bind]
      exact ⟨_, by simpa using hlast⟩
    · simpa [Ty.complete_toTree] using DeclItem.complete_chain hi
  | assign _ _ he =>
    rw [toTree]
    refine .node ?_ (by simp [Ident.complete_toTree, Expr.complete_operatorTree, Expr.complete_toTree he])
    constructor <;> simp
  | increment =>
    rw [toTree]
    refine .node ?_ (by simp [Ident.complete_toTree, Expr.complete_operatorTree])
    constructor <;> simp
  | call hl hc ha =>
    have h := Expr.complete_toTree (.call hl hc ha)
    rw [Expr.toTree] at h
    rwa [toTree]
  | ifThen _ hc _ ih =>
    rw [toTree, toTrees_eq_map]
    obtain ⟨ts, hts⟩ := below ih
    refine .node ?_ (by simp [Expr.complete_toTree hc, complete_block _ ih])
    constructor <;> simp [hts, bind, Except.bind, pure, Except.pure]
  | ifElse _ hc _ _ ihb iho =>
    rw [toTree, toTrees_eq_map, toTrees_eq_map]
    obtain ⟨ts, hts⟩ := below ihb
    obtain ⟨us, hus⟩ := below iho
    refine .node ?_ (by simp [Expr.complete_toTree hc, complete_block _ ihb, complete_block _ iho])
    constructor <;> simp [hts, hus, bind, Except.bind, pure, Except.pure]
  | whileDo _ hc _ ih =>
    rw [toTree, toTrees_eq_map]
    obtain ⟨ts, hts⟩ := below ih
    refine .node ?_ (by simp [Expr.complete_toTree hc, complete_block _ ih])
    constructor <;> simp [Tree.body, hts, bind, Except.bind, pure, Except.pure]
  | forDo _ _ hc _ _ ihi ihs ih =>
    rw [toTree, toTrees_eq_map]
    obtain ⟨ts, hts⟩ := below ih
    refine .node ?_ (by simp [Expr.complete_toTree hc, ihi, ihs, complete_block _ ih])
    constructor <;> simp [Tree.body, hts, bind, Except.bind, pure, Except.pure]
  | read =>
    rw [toTree]
    refine .node ?_ (by simp [Ident.complete_toTree])
    constructor <;> simp
  | print _ he =>
    rw [toTree]
    refine .node ?_ (by simp [Expr.complete_toTree he])
    constructor <;> simp
  | @ret line value _ he =>
    rw [toTree]
    refine .node ?_ ?_
    · constructor <;> simp
    · simpa using fun e hm => Expr.complete_toTree (he e hm)

end Stmt

theorem Param.complete_toTree (p : Param) : p.toTree.Complete := by
  refine .node ?_ (by simp [Param.toTree, Ty.complete_toTree, Ident.complete_toTree])
  constructor <;> simp [Param.toTree]

theorem Function.complete_toTree {f : Function} (h : f.WellFormed L) : f.toTree.Complete := by
  refine .node ?_ ?_
  · have hbody : f.toTree.body = .ok ⟨.block, "", f.line, Stmt.toTrees f.body⟩ := by
      simp only [Tree.body, Function.toTree, List.getLast?_concat]
    have hnested := Tree.nested_eq_singleton (t := f.toTree) (by simp [Function.toTree])
    constructor
    case body => exact fun _ => ⟨_, hbody⟩
    case nested => exact ⟨_, hnested⟩
    all_goals simp [Function.toTree]
  · have hb := Stmt.complete_block f.line fun s hs => Stmt.complete_toTree (h.body s hs)
    simp only [Function.toTree, List.cons_append, List.mem_cons, List.mem_append, List.mem_map, List.not_mem_nil,
      or_false, Stmt.toTrees_eq_map]
    rintro t (rfl | ⟨p, -, rfl⟩ | rfl)
    · exact Ty.complete_toTree _ _
    · exact Param.complete_toTree p
    · exact hb

/-- Every node of the tree of a well-formed program answers what it may be asked. -/
theorem Program.complete_toTree {p : Program} (h : p.WellFormed L) : p.toTree.Complete := by
  refine .node (.of_isPlain rfl) ?_
  simpa [Program.toTree] using fun f hf => Function.complete_toTree (h.functions f hf)

end Complete

end Arvore
