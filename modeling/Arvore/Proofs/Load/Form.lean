import Mathlib
import Arvore.Program.Load
import Arvore.Proofs.Sequence

/-!
# The forms that loading accepts

Loading tries one form after the other. Here the forms that it accepts are written down once, each with what its parts
were loaded as: `ExprForm` for the lists that are expressions, `StmtForm` for those that are statements, and an
equivalence for each of the other parts of a program. Everything about loaded programs is derived from these.
-/

namespace Arvore

namespace Load

/-! ### Parts of expressions -/

theorem name_eq_ok_iff {role : LoadError.NameRole} {d : Datum} {n : String} :
    name role d = .ok n ↔ ∃ l text, d = .symbol l text ∧ n = Text.nfc text := by
  cases d <;> simp [name, wrong, eq_comm]

theorem ident_eq_ok_iff {line : Int} {d : Datum} {x : Ident} :
    ident line d = .ok x ↔
      ∃ l text, d = .symbol l text ∧ x = ⟨line, Text.nfc text⟩ ∧ isTruthWord (Text.nfc text) = false := by
  rw [ident, bind_eq_ok_iff]
  constructor
  · rintro ⟨n, hn, h⟩
    obtain ⟨l, text, rfl, rfl⟩ := name_eq_ok_iff.1 hn
    split at h
    · cases h
    · rename_i ht
      cases h
      exact ⟨l, text, rfl, rfl, by simpa using ht⟩
  · rintro ⟨l, text, rfl, rfl, ht⟩
    exact ⟨_, name_eq_ok_iff.2 ⟨l, text, rfl, rfl⟩, by rw [ht]; rfl⟩

theorem type_eq_ok_iff {allowed : Ty → Bool} {d : Datum} {t : Ty} :
    type allowed d = .ok t ↔ ∃ l text, d = .symbol l text ∧ t = .ofWord text ∧ allowed t = true := by
  cases d with
  | symbol l text =>
    rw [type]
    constructor
    · intro h
      split at h
      · cases h
        exact ⟨l, text, rfl, rfl, by assumption⟩
      · cases h
    · rintro ⟨_, _, h, rfl, ha⟩
      cases h
      rw [if_pos ha]
  | _ => simp [type, wrong]

theorem operator_eq_ok_iff {α : Type} {known : List α} {symbol : α → String} {d : Datum} {op : α} :
    operator known symbol d = .ok op ↔ ∃ l text, d = .string l text ∧ known.find? (symbol · = text) = some op := by
  cases d with
  | string l text =>
    rw [operator]
    constructor
    · intro h
      split at h
      · cases h
        exact ⟨l, text, rfl, by assumption⟩
      · cases h
    · rintro ⟨_, _, h, ho⟩
      cases h
      rw [ho]
  | _ => simp [operator, wrong]

/-- An operator that was loaded belongs to the language. -/
theorem mem_of_operator_eq_ok {α : Type} {known : List α} {symbol : α → String} {d : Datum} {op : α}
    (h : operator known symbol d = .ok op) : op ∈ known := by
  obtain ⟨_, _, _, h⟩ := operator_eq_ok_iff.1 h
  exact List.mem_of_find?_eq_some h

theorem exprs_eq_ok_iff {line : Int} {items : List Datum} {es : List Expr} :
    exprs line items = .ok es ↔ List.Forall₂ (fun d e => expr line d = .ok e) items es := by
  induction items generalizing es with
  | nil => simp [exprs, eq_comm]
  | cons d rest ih =>
    rw [exprs, bind_eq_ok_iff, List.forall₂_cons_left_iff]
    constructor
    · rintro ⟨e, he, h⟩
      obtain ⟨others, ho, h⟩ := bind_eq_ok_iff.1 h
      cases h
      exact ⟨e, others, he, ih.1 ho, rfl⟩
    · rintro ⟨e, others, he, ho, rfl⟩
      exact ⟨e, he, bind_eq_ok_iff.2 ⟨others, ih.2 ho, rfl⟩⟩

theorem call_eq_ok_iff {start : Nat} {line : Int} {operands : List Datum} {callee : Ident} {args : List Expr} :
    call start line operands = .ok (callee, args) ↔
      ∃ d, name .function d = .ok callee.name ∧ callee.line = line ∧
        ((operands = [d] ∧ args = []) ∨
          ∃ l items, operands = [d, .array l items] ∧ exprs line items = .ok args) := by
  obtain ⟨calleeLine, calleeName⟩ := callee
  constructor
  · intro h
    rw [call.eq_def] at h
    split at h
    · obtain ⟨n, hn, h⟩ := bind_eq_ok_iff.1 h
      cases h
      exact ⟨_, hn, rfl, .inl ⟨rfl, rfl⟩⟩
    · obtain ⟨n, hn, h⟩ := bind_eq_ok_iff.1 h
      obtain ⟨es, he, h⟩ := bind_eq_ok_iff.1 h
      cases h
      exact ⟨_, hn, rfl, .inr ⟨_, _, rfl, he⟩⟩
    · obtain ⟨n, hn, h⟩ := bind_eq_ok_iff.1 h
      cases h
    · cases h
  · rintro ⟨d, hn, rfl, ⟨rfl, rfl⟩ | ⟨l, items, rfl, he⟩⟩
    · rw [call, hn]
      rfl
    · rw [call, hn, he]
      rfl

/-- A call does not depend on where it starts. -/
theorem call_start {start start' : Nat} {line : Int} {operands : List Datum} {callee : Ident} {args : List Expr}
    (h : call start line operands = .ok (callee, args)) : call start' line operands = .ok (callee, args) :=
  call_eq_ok_iff.2 (call_eq_ok_iff.1 h)

/-! ### Expressions -/

/-- The items of a list that is an expression on the given line. -/
inductive ExprForm (line : Int) : List Datum → Expr → Prop
  | arithmetic {l : Nat} {op left right : Datum} {o : ArithmeticOp} {a b : Expr}
      (ho : operator ArithmeticOp.known ArithmeticOp.symbol op = .ok o)
      (ha : expr line left = .ok a) (hb : expr line right = .ok b) :
      ExprForm line [.symbol l "binary", op, left, right] (.arithmetic line o a b)
  | logical {l : Nat} {op left right : Datum} {o : LogicalOp} {a b : Expr}
      (ho : operator LogicalOp.known LogicalOp.symbol op = .ok o)
      (ha : expr line left = .ok a) (hb : expr line right = .ok b) :
      ExprForm line [.symbol l "logical", op, left, right] (.logical line o a b)
  | relational {l : Nat} {op left right : Datum} {o : RelationalOp} {a b : Expr}
      (ho : operator RelationalOp.known RelationalOp.symbol op = .ok o)
      (ha : expr line left = .ok a) (hb : expr line right = .ok b) :
      ExprForm line [.symbol l "relational", op, left, right] (.relational line o a b)
  | unary {l : Nat} {op operand : Datum} {o : UnaryOp} {e : Expr}
      (ho : operator UnaryOp.known UnaryOp.symbol op = .ok o) (he : expr line operand = .ok e) :
      ExprForm line [.symbol l "unary", op, operand] (.unary line o e)
  | call {l start : Nat} {operands : List Datum} {callee : Ident} {args : List Expr}
      (h : call start line operands = .ok (callee, args)) :
      ExprForm line (.symbol l "call" :: operands) (.call line callee args)

theorem exprForm_of_eq_ok {inherited : Int} {start : Nat} {metadata : List (String × Datum)} {items : List Datum}
    {e : Expr} (h : expr inherited (.list start metadata items) = .ok e) :
    ∃ line, lineOf start metadata inherited = .ok line ∧ ExprForm line items e := by
  rw [expr] at h
  obtain ⟨line, hl, h⟩ := bind_eq_ok_iff.1 h
  refine ⟨line, hl, ?_⟩
  split at h
  case h_1 | h_2 | h_3 =>
    obtain ⟨o, ho, h⟩ := bind_eq_ok_iff.1 h
    obtain ⟨a, ha, h⟩ := bind_eq_ok_iff.1 h
    obtain ⟨b, hb, h⟩ := bind_eq_ok_iff.1 h
    cases h
    constructor <;> assumption
  case h_4 =>
    obtain ⟨o, ho, h⟩ := bind_eq_ok_iff.1 h
    obtain ⟨e, he, h⟩ := bind_eq_ok_iff.1 h
    cases h
    exact .unary ho he
  case h_5 =>
    obtain ⟨⟨callee, args⟩, hc, h⟩ := bind_eq_ok_iff.1 h
    cases h
    exact .call hc
  all_goals cases h

theorem expr_of_form {inherited line : Int} {start : Nat} {metadata : List (String × Datum)} {items : List Datum}
    {e : Expr} (hl : lineOf start metadata inherited = .ok line) (h : ExprForm line items e) :
    expr inherited (.list start metadata items) = .ok e := by
  rw [expr, bind_eq_ok_iff]
  refine ⟨line, hl, ?_⟩
  cases h with
  | arithmetic ho ha hb | logical ho ha hb | relational ho ha hb =>
    exact bind_eq_ok_iff.2 ⟨_, ho, bind_eq_ok_iff.2 ⟨_, ha, bind_eq_ok_iff.2 ⟨_, hb, rfl⟩⟩⟩
  | unary ho he => exact bind_eq_ok_iff.2 ⟨_, ho, bind_eq_ok_iff.2 ⟨_, he, rfl⟩⟩
  | call h => exact bind_eq_ok_iff.2 ⟨_, call_start h, rfl⟩

/-- The data that are expressions. -/
theorem expr_cases {inherited : Int} {d : Datum} {e : Expr} (h : expr inherited d = .ok e) :
    (∃ l text, d = .symbol l text ∧ e = word inherited text) ∨
    (∃ l text, d = .string l text ∧ e = .string inherited text) ∨
    (∃ l text, d = .number l text ∧ checkNumber l text = .ok () ∧ e = .number inherited text) ∨
    ∃ start metadata items line, d = .list start metadata items ∧ lineOf start metadata inherited = .ok line ∧
      ExprForm line items e := by
  cases d with
  | symbol l text =>
    rw [expr] at h
    cases h
    exact .inl ⟨l, text, rfl, rfl⟩
  | string l text =>
    rw [expr] at h
    cases h
    exact .inr (.inl ⟨l, text, rfl, rfl⟩)
  | number l text =>
    rw [expr] at h
    obtain ⟨_, hc, h⟩ := bind_eq_ok_iff.1 h
    cases h
    exact .inr (.inr (.inl ⟨l, text, rfl, hc, rfl⟩))
  | list start metadata items =>
    obtain ⟨line, hl, hf⟩ := exprForm_of_eq_ok h
    exact .inr (.inr (.inr ⟨start, metadata, items, line, rfl, hl, hf⟩))
  | array l items | map l entries =>
    rw [expr] at h
    · cases h
    all_goals simp

/-! ### Statements -/

/-- The data that are items of a declaration. -/
theorem declItem_cases {inherited : Int} {d : Datum} {item : DeclItem} (h : declItem inherited d = .ok item) :
    (∃ l text x, d = .symbol l text ∧ ident inherited d = .ok x ∧ item = ⟨x, none⟩) ∨
    ∃ start metadata l target value line x e, d = .list start metadata [.symbol l "init", target, value] ∧
      lineOf start metadata inherited = .ok line ∧ ident line target = .ok x ∧ expr line value = .ok e ∧
      item = ⟨x, some e⟩ := by
  rw [declItem.eq_def] at h
  split at h
  · obtain ⟨x, hx, h⟩ := bind_eq_ok_iff.1 h
    cases h
    exact .inl ⟨_, _, x, rfl, hx, rfl⟩
  · obtain ⟨line, hl, h⟩ := bind_eq_ok_iff.1 h
    obtain ⟨x, hx, h⟩ := bind_eq_ok_iff.1 h
    obtain ⟨e, he, h⟩ := bind_eq_ok_iff.1 h
    cases h
    exact .inr ⟨_, _, _, _, _, line, x, e, rfl, hl, hx, he, rfl⟩
  all_goals cases h

theorem declItem_init {inherited line : Int} {start l : Nat} {metadata : List (String × Datum)} {target value : Datum}
    {x : Ident} {e : Expr} (hl : lineOf start metadata inherited = .ok line) (hx : ident line target = .ok x)
    (he : expr line value = .ok e) :
    declItem inherited (.list start metadata [.symbol l "init", target, value]) = .ok ⟨x, some e⟩ :=
  bind_eq_ok_iff.2 ⟨_, hl, bind_eq_ok_iff.2 ⟨_, hx, bind_eq_ok_iff.2 ⟨_, he, rfl⟩⟩⟩

theorem declItems_eq_ok_iff {line : Int} {data : List Datum} {items : List DeclItem} :
    declItems line data = .ok items ↔ List.Forall₂ (fun d item => declItem line d = .ok item) data items := by
  induction data generalizing items with
  | nil => simp [declItems, eq_comm]
  | cons d rest ih =>
    rw [declItems, bind_eq_ok_iff, List.forall₂_cons_left_iff]
    constructor
    · rintro ⟨later, hl, h⟩
      obtain ⟨item, hi, h⟩ := bind_eq_ok_iff.1 h
      cases h
      exact ⟨item, later, hi, ih.1 hl, rfl⟩
    · rintro ⟨item, later, hi, hl, rfl⟩
      exact ⟨later, ih.2 hl, bind_eq_ok_iff.2 ⟨item, hi, rfl⟩⟩

/-- The items of a list that is a statement on the given line. -/
inductive StmtForm (line : Int) : List Datum → Stmt → Prop
  | declare {l : Nat} {t : Datum} {data : List Datum} {ty : Ty} {items : List DeclItem}
      (ht : type Ty.isVariable t = .ok ty) (hne : data ≠ []) (hi : declItems line data = .ok items) :
      StmtForm line (.symbol l "decl" :: t :: data) (.declare line ty items)
  | assign {l : Nat} {target value : Datum} {x : Ident} {e : Expr}
      (hx : ident line target = .ok x) (he : expr line value = .ok e) :
      StmtForm line [.symbol l "assign", target, value] (.assign line x e)
  | increment {l : Nat} {op target : Datum} {o : StepOp} {x : Ident}
      (ho : operator StepOp.known StepOp.symbol op = .ok o) (hx : ident line target = .ok x) :
      StmtForm line [.symbol l "increment", op, target] (.increment line o x)
  | call {l start : Nat} {operands : List Datum} {callee : Ident} {args : List Expr}
      (h : call start line operands = .ok (callee, args)) :
      StmtForm line (.symbol l "call" :: operands) (.call line callee args)
  | ifThen {l m : Nat} {cond : Datum} {block : List Datum} {c : Expr} {body : List Stmt}
      (hc : expr line cond = .ok c) (hb : stmts line block = .ok body) :
      StmtForm line [.symbol l "if", cond, .array m block] (.ifThen line c body)
  | ifElse {l m n : Nat} {cond : Datum} {first second : List Datum} {c : Expr} {body other : List Stmt}
      (hc : expr line cond = .ok c) (hb : stmts line first = .ok body) (ho : stmts line second = .ok other) :
      StmtForm line [.symbol l "if", cond, .array m first, .array n second] (.ifElse line c body other)
  | whileDo {l m : Nat} {cond : Datum} {block : List Datum} {c : Expr} {body : List Stmt}
      (hc : expr line cond = .ok c) (hb : stmts line block = .ok body) :
      StmtForm line [.symbol l "while", cond, .array m block] (.whileDo line c body)
  | forDo {l m : Nat} {init cond step : Datum} {block : List Datum} {i s : Stmt} {c : Expr} {body : List Stmt}
      (hi : stmt line init = .ok i) (hc : expr line cond = .ok c) (hs : stmt line step = .ok s)
      (hb : stmts line block = .ok body) :
      StmtForm line [.symbol l "for", init, cond, step, .array m block] (.forDo line i c s body)
  | read {l : Nat} {target : Datum} {x : Ident} (hx : ident line target = .ok x) :
      StmtForm line [.symbol l "read", target] (.read line x)
  | print {l : Nat} {value : Datum} {e : Expr} (he : expr line value = .ok e) :
      StmtForm line [.symbol l "print", value] (.print line e)
  | leave {l : Nat} : StmtForm line [.symbol l "return"] (.ret line none)
  | result {l : Nat} {value : Datum} {e : Expr} (he : expr line value = .ok e) :
      StmtForm line [.symbol l "return", value] (.ret line (some e))

theorem stmts_eq_ok_iff {line : Int} {items : List Datum} {ss : List Stmt} :
    stmts line items = .ok ss ↔ List.Forall₂ (fun d s => stmt line d = .ok s) items ss := by
  induction items generalizing ss with
  | nil => simp [stmts, eq_comm]
  | cons d rest ih =>
    rw [stmts, bind_eq_ok_iff, List.forall₂_cons_left_iff]
    constructor
    · rintro ⟨s, hs, h⟩
      obtain ⟨others, ho, h⟩ := bind_eq_ok_iff.1 h
      cases h
      exact ⟨s, others, hs, ih.1 ho, rfl⟩
    · rintro ⟨s, others, hs, ho, rfl⟩
      exact ⟨s, hs, bind_eq_ok_iff.2 ⟨others, ih.2 ho, rfl⟩⟩

theorem block_eq_ok_iff {line : Int} {d : Datum} {ss : List Stmt} :
    block line d = .ok ss ↔ ∃ l items, d = .array l items ∧ stmts line items = .ok ss := by
  cases d <;> simp [block, wrong]

/-- The data that are statements. -/
theorem stmt_cases {inherited : Int} {d : Datum} {s : Stmt} (h : stmt inherited d = .ok s) :
    ∃ start metadata items line, d = .list start metadata items ∧ lineOf start metadata inherited = .ok line ∧
      StmtForm line items s := by
  cases d with
  | list start metadata items =>
    rw [stmt] at h
    obtain ⟨line, hl, h⟩ := bind_eq_ok_iff.1 h
    refine ⟨start, metadata, items, line, rfl, hl, ?_⟩
    split at h
    case h_1 =>
      rw [declaration.eq_def] at h
      split at h
      · obtain ⟨t, ht, h⟩ := bind_eq_ok_iff.1 h
        obtain ⟨its, hi, h⟩ := bind_eq_ok_iff.1 h
        cases h
        exact .declare ht (List.cons_ne_nil _ _) hi
      · cases h
    case h_2 =>
      obtain ⟨x, hx, h⟩ := bind_eq_ok_iff.1 h
      obtain ⟨e, he, h⟩ := bind_eq_ok_iff.1 h
      cases h
      exact .assign hx he
    case h_3 =>
      obtain ⟨o, ho, h⟩ := bind_eq_ok_iff.1 h
      obtain ⟨x, hx, h⟩ := bind_eq_ok_iff.1 h
      cases h
      exact .increment ho hx
    case h_4 =>
      obtain ⟨⟨callee, args⟩, hc, h⟩ := bind_eq_ok_iff.1 h
      cases h
      exact .call hc
    case h_5 | h_7 =>
      obtain ⟨c, hc, h⟩ := bind_eq_ok_iff.1 h
      obtain ⟨body, hb, h⟩ := bind_eq_ok_iff.1 h
      cases h
      obtain ⟨m, block, rfl, hb⟩ := block_eq_ok_iff.1 hb
      constructor <;> assumption
    case h_6 =>
      obtain ⟨c, hc, h⟩ := bind_eq_ok_iff.1 h
      obtain ⟨body, hb, h⟩ := bind_eq_ok_iff.1 h
      obtain ⟨other, ho, h⟩ := bind_eq_ok_iff.1 h
      cases h
      obtain ⟨m, first, rfl, hb⟩ := block_eq_ok_iff.1 hb
      obtain ⟨n, second, rfl, ho⟩ := block_eq_ok_iff.1 ho
      exact .ifElse hc hb ho
    case h_8 =>
      obtain ⟨i, hi, h⟩ := bind_eq_ok_iff.1 h
      obtain ⟨c, hc, h⟩ := bind_eq_ok_iff.1 h
      obtain ⟨s, hs, h⟩ := bind_eq_ok_iff.1 h
      obtain ⟨body, hb, h⟩ := bind_eq_ok_iff.1 h
      cases h
      obtain ⟨m, block, rfl, hb⟩ := block_eq_ok_iff.1 hb
      exact .forDo hi hc hs hb
    case h_9 =>
      obtain ⟨x, hx, h⟩ := bind_eq_ok_iff.1 h
      cases h
      exact .read hx
    case h_10 =>
      obtain ⟨e, he, h⟩ := bind_eq_ok_iff.1 h
      cases h
      exact .print he
    case h_11 =>
      cases h
      exact .leave
    case h_12 =>
      obtain ⟨e, he, h⟩ := bind_eq_ok_iff.1 h
      cases h
      exact .result he
    all_goals cases h
  | _ =>
    rw [stmt] at h
    · cases h
    all_goals simp

theorem stmt_of_form {inherited line : Int} {start : Nat} {metadata : List (String × Datum)} {items : List Datum}
    {s : Stmt} (hl : lineOf start metadata inherited = .ok line) (h : StmtForm line items s) :
    stmt inherited (.list start metadata items) = .ok s := by
  rw [stmt, bind_eq_ok_iff]
  refine ⟨line, hl, ?_⟩
  cases h with
  | declare ht hne hi =>
    obtain ⟨d, rest, rfl⟩ := List.exists_cons_of_ne_nil hne
    exact bind_eq_ok_iff.2 ⟨_, ht, bind_eq_ok_iff.2 ⟨_, hi, rfl⟩⟩
  | assign hx he => exact bind_eq_ok_iff.2 ⟨_, hx, bind_eq_ok_iff.2 ⟨_, he, rfl⟩⟩
  | increment ho hx => exact bind_eq_ok_iff.2 ⟨_, ho, bind_eq_ok_iff.2 ⟨_, hx, rfl⟩⟩
  | call h => exact bind_eq_ok_iff.2 ⟨_, call_start h, rfl⟩
  | ifThen hc hb | whileDo hc hb => exact bind_eq_ok_iff.2 ⟨_, hc, bind_eq_ok_iff.2 ⟨_, hb, rfl⟩⟩
  | ifElse hc hb ho =>
    exact bind_eq_ok_iff.2 ⟨_, hc, bind_eq_ok_iff.2 ⟨_, hb, bind_eq_ok_iff.2 ⟨_, ho, rfl⟩⟩⟩
  | forDo hi hc hs hb =>
    exact bind_eq_ok_iff.2 ⟨_, hi, bind_eq_ok_iff.2 ⟨_, hc, bind_eq_ok_iff.2 ⟨_, hs, bind_eq_ok_iff.2 ⟨_, hb, rfl⟩⟩⟩⟩
  | read hx => exact bind_eq_ok_iff.2 ⟨_, hx, rfl⟩
  | print he => exact bind_eq_ok_iff.2 ⟨_, he, rfl⟩
  | leave => rfl
  | result he => exact bind_eq_ok_iff.2 ⟨_, he, rfl⟩

/-! ### Functions and programs -/

/-- The data that are parameters. -/
theorem param_cases {inherited : Int} {d : Datum} {p : Param} (h : param inherited d = .ok p) :
    ∃ start metadata l t target line ty x, d = .list start metadata [.symbol l "param", t, target] ∧
      lineOf start metadata inherited = .ok line ∧ type Ty.isVariable t = .ok ty ∧ ident line target = .ok x ∧
      p = ⟨line, ty, x⟩ := by
  rw [param.eq_def] at h
  split at h
  · obtain ⟨line, hl, h⟩ := bind_eq_ok_iff.1 h
    obtain ⟨ty, ht, h⟩ := bind_eq_ok_iff.1 h
    obtain ⟨x, hx, h⟩ := bind_eq_ok_iff.1 h
    cases h
    exact ⟨_, _, _, _, _, line, ty, x, rfl, hl, ht, hx, rfl⟩
  all_goals cases h

theorem param_of_parts {inherited line : Int} {start l : Nat} {metadata : List (String × Datum)} {t target : Datum}
    {ty : Ty} {x : Ident} (hl : lineOf start metadata inherited = .ok line) (ht : type Ty.isVariable t = .ok ty)
    (hx : ident line target = .ok x) :
    param inherited (.list start metadata [.symbol l "param", t, target]) = .ok ⟨line, ty, x⟩ :=
  bind_eq_ok_iff.2 ⟨_, hl, bind_eq_ok_iff.2 ⟨_, ht, bind_eq_ok_iff.2 ⟨_, hx, rfl⟩⟩⟩

private theorem mapM_eq_ok_iff {ε α β : Type} {f : α → Except ε β} {xs : List α} {ys : List β} :
    xs.mapM f = .ok ys ↔ List.Forall₂ (fun x y => f x = .ok y) xs ys := by
  induction xs generalizing ys with
  | nil => simp [pure, Except.pure, eq_comm]
  | cons x xs ih =>
    rw [List.mapM_cons, bind_eq_ok_iff, List.forall₂_cons_left_iff]
    constructor
    · rintro ⟨y, hy, h⟩
      obtain ⟨others, ho, h⟩ := bind_eq_ok_iff.1 h
      cases h
      exact ⟨y, others, hy, ih.1 ho, rfl⟩
    · rintro ⟨y, others, hy, ho, rfl⟩
      exact ⟨y, hy, bind_eq_ok_iff.2 ⟨others, ih.2 ho, rfl⟩⟩

theorem params_eq_ok_iff {line : Int} {d : Datum} {ps : List Param} :
    params line d = .ok ps ↔
      ∃ l items, d = .array l items ∧ List.Forall₂ (fun d p => param line d = .ok p) items ps := by
  cases d <;> simp [params, wrong, mapM_eq_ok_iff]

/-- The data that are functions. The type of the result may be left out. -/
theorem function_cases {inherited : Int} {d : Datum} {f : Function} (h : function inherited d = .ok f) :
    ∃ start metadata l called between ps body line, d = .list start metadata
        (.symbol l "func" :: called :: (between ++ [ps, body])) ∧
      lineOf start metadata inherited = .ok line ∧ f.line = line ∧ name .function called = .ok f.name ∧
      ((between = [] ∧ f.result = .void) ∨ ∃ t, between = [t] ∧ type isResult t = .ok f.result) ∧
      params line ps = .ok f.params ∧ block line body = .ok f.body ∧ f.flaw = none := by
  rw [function.eq_def] at h
  split at h
  · obtain ⟨line, hl, h⟩ := bind_eq_ok_iff.1 h
    obtain ⟨n, hn, h⟩ := bind_eq_ok_iff.1 h
    obtain ⟨ps, hp, h⟩ := bind_eq_ok_iff.1 h
    obtain ⟨body, hb, h⟩ := bind_eq_ok_iff.1 h
    cases h
    exact ⟨_, _, _, _, [], _, _, line, rfl, hl, rfl, hn, .inl ⟨rfl, rfl⟩, hp, hb, rfl⟩
  · obtain ⟨line, hl, h⟩ := bind_eq_ok_iff.1 h
    obtain ⟨n, hn, h⟩ := bind_eq_ok_iff.1 h
    obtain ⟨t, ht, h⟩ := bind_eq_ok_iff.1 h
    obtain ⟨ps, hp, h⟩ := bind_eq_ok_iff.1 h
    obtain ⟨body, hb, h⟩ := bind_eq_ok_iff.1 h
    cases h
    exact ⟨_, _, _, _, [_], _, _, line, rfl, hl, rfl, hn, .inr ⟨_, rfl, ht⟩, hp, hb, rfl⟩
  all_goals cases h

theorem function_of_parts {inherited line : Int} {start l : Nat} {metadata : List (String × Datum)}
    {called t ps body : Datum} {f : Function} (hl : lineOf start metadata inherited = .ok line) (hline : f.line = line)
    (hn : name .function called = .ok f.name) (ht : type isResult t = .ok f.result) (hp : params line ps = .ok f.params)
    (hb : block line body = .ok f.body) (hf : f.flaw = none) :
    function inherited (.list start metadata [.symbol l "func", called, t, ps, body]) = .ok f := by
  obtain ⟨line, name, result, params, body, flaw⟩ := f
  subst hline hf
  exact bind_eq_ok_iff.2 ⟨_, hl, bind_eq_ok_iff.2 ⟨_, hn, bind_eq_ok_iff.2 ⟨_, ht, bind_eq_ok_iff.2 ⟨_, hp,
    bind_eq_ok_iff.2 ⟨_, hb, rfl⟩⟩⟩⟩⟩

/-- The data that are programs. -/
theorem program_cases {d : Datum} {p : Program} (h : program d = .ok p) :
    ∃ start metadata l items, d = .list start metadata (.symbol l "program" :: items) ∧
      lineOf start metadata 1 = .ok p.line ∧
      List.Forall₂ (fun d f => function p.line d = .ok f) items p.functions := by
  rw [program.eq_def] at h
  split at h
  · obtain ⟨line, hl, h⟩ := bind_eq_ok_iff.1 h
    obtain ⟨fs, hf, h⟩ := bind_eq_ok_iff.1 h
    cases h
    exact ⟨_, _, _, _, rfl, hl, mapM_eq_ok_iff.1 hf⟩
  · cases h

theorem program_of_parts {start l : Nat} {metadata : List (String × Datum)} {items : List Datum} {p : Program}
    (hl : lineOf start metadata 1 = .ok p.line)
    (hf : List.Forall₂ (fun d f => function p.line d = .ok f) items p.functions) :
    program (.list start metadata (.symbol l "program" :: items)) = .ok p :=
  bind_eq_ok_iff.2 ⟨_, hl, bind_eq_ok_iff.2 ⟨_, mapM_eq_ok_iff.2 hf, rfl⟩⟩

end Load

/-- A text holds a program exactly if it holds a datum that is one. -/
theorem Program.load_eq_ok_iff {text : List Char} {p : Program} :
    Program.load text = .ok p ↔ ∃ d, Datum.parse text = .ok d ∧ Load.program d = .ok p := by
  rw [Program.load]
  cases Datum.parse text <;> simp

end Arvore
