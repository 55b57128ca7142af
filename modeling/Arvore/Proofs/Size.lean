import Mathlib
import Arvore.Proofs.Analysis.Layout
import Arvore.Proofs.Load.Form
import Arvore.Proofs.Reading.Datum
import Arvore.Proofs.Simulation.Shape

/-!
# Programs are no larger than their text

A text has at least as many characters as tokens, and a datum takes a token for each of its parts. So the number of
variables of a function and the depth of its expressions are bounded by the length of the text that it was loaded from
(`Program.size_le_of_load`), and a frame fits into memory if the text does.
-/

namespace Arvore

/-! ### Data -/

namespace Datum

mutual

/-- The number of parts of a datum, metadata and the entries of maps not counted. -/
def size : Datum → Nat
  | list _ _ items | array _ items => sizeAll items + 1
  | symbol .. | string .. | number .. | map .. => 1

/-- The number of parts of several data. -/
def sizeAll : List Datum → Nat
  | [] => 0
  | d :: rest => size d + sizeAll rest

end

@[simp] theorem sizeAll_append (a b : List Datum) : sizeAll (a ++ b) = sizeAll a + sizeAll b := by
  induction a with
  | nil => simp [sizeAll]
  | cons d rest ih => simp only [List.cons_append, sizeAll, ih, Nat.add_assoc]

theorem sizeAll_reverse (ds : List Datum) : sizeAll ds.reverse = sizeAll ds := by
  induction ds with
  | nil => rfl
  | cons d rest ih => simp [sizeAll, ih, Nat.add_comm]

theorem size_pos (d : Datum) : 0 < d.size := by cases d <;> simp [size]

theorem length_le_sizeAll (ds : List Datum) : ds.length ≤ sizeAll ds := by
  induction ds with
  | nil => simp
  | cons d rest ih =>
    have := d.size_pos
    rw [List.length_cons, sizeAll]
    omega

theorem size_le_sizeAll {d : Datum} {ds : List Datum} (h : d ∈ ds) : d.size ≤ sizeAll ds := by
  induction ds with
  | nil => cases h
  | cons d' rest ih =>
    rw [sizeAll]
    rcases List.mem_cons.1 h with rfl | h
    · omega
    · have := ih h
      omega

/-- The number of parts in a structure that is open. -/
def Frame.size : Frame → Nat
  | .list _ _ items | .caret _ _ items | .array _ items => sizeAll items + 1
  | .key .. | .colon .. | .value .. | .comma .. => 1

/-- The number of parts that the reader has taken. -/
def State.size : State → Nat
  | .reading stack => (stack.map Frame.size).sum
  | .done d => d.size

attribute [local simp] size sizeAll Frame.size State.size

theorem complete_size (d : Datum) (stack : List Frame) :
    (complete d stack).size ≤ d.size + (State.reading stack).size := by
  unfold complete
  split
  case h_3 =>
    split <;> simp only [State.size, List.map_cons, List.sum_cons, Frame.size, sizeAll]
    all_goals omega
  all_goals
    simp only [State.size, List.map_cons, List.map_nil, List.sum_cons, Frame.size, sizeAll]
    omega

theorem begin_size {line : Nat} {stack : List Frame} {token : Token} {next : State}
    (h : begin line stack token = .ok next) : next.size ≤ (State.reading stack).size + 1 := by
  unfold begin at h
  split at h
  case h_1 | h_2 | h_3 =>
    cases h
    refine (complete_size _ _).trans ?_
    simp [Nat.add_comm]
  case h_4 | h_5 | h_6 =>
    cases h
    simp only [State.size, List.map_cons, List.sum_cons, Frame.size, sizeAll]
    omega
  case h_7 => cases h

/-- Every token is at most one part. -/
theorem step_size {line : Nat} {token : Token} {state next : State} (h : step line token state = .ok next) :
    next.size ≤ state.size + 1 := by
  cases moves_of_step h with
  | begins h => exact begin_size h
  | listEnd | arrayEnd =>
    refine (complete_size _ _).trans ?_
    simp [sizeAll_reverse]
  | emptyEnd | mapEnd =>
    refine (complete_size _ _).trans ?_
    simp
  | metadata =>
    simp
    omega
  | caret | key | colon | comma => simp

theorem run_size {state : State} {tokens : List Token.Placed} {d : Datum} (h : run state tokens = .ok d) :
    d.size ≤ state.size + tokens.length := by
  induction tokens generalizing state with
  | nil =>
    rw [run, mapError_eq_ok_iff] at h
    unfold finish at h
    split at h
    · cases h
      simp
    all_goals cases h
  | cons t rest ih =>
    rw [run] at h
    split at h
    · rename_i next hn
      have h1 := ih h
      have h2 := step_size hn
      simp only [List.length_cons]
      omega
    · cases h

end Datum

theorem Token.length_scan_le (line : Nat) (text : List Char) : (scan line text).tokens.length ≤ text.length := by
  fun_induction Token.scan line text with
  | case1 => simp
  | case2 => simp
  | case3 line c rest _ _ ih =>
    rw [List.length_cons]
    omega
  | case4 line rest _ _ ih =>
    have := (List.dropWhile_suffix (l := rest) inComment).length_le
    rw [List.length_cons]
    omega
  | case5 line c rest _ _ _ t ends rest' hn after ih =>
    have hrest := next_length hn
    have htokens : after.tokens.length ≤ rest'.length := ih
    simp only [List.length_cons]
    omega
  | case6 => simp

theorem Datum.size_le_of_parse {text : List Char} {d : Datum} (h : Datum.parse text = .ok d) :
    d.size ≤ text.length := by
  have hscan := Token.length_scan_le 1 text
  have hsize := run_size (parse_eq_ok_iff.1 h).1
  simp only [State.size, List.map_nil, List.sum_nil] at hsize
  omega

/-! ### Expressions and statements -/

namespace Load

attribute [local simp] Datum.size Datum.sizeAll Expr.depth Stmt.depth Stmt.nested Stmt.variables

theorem word_depth (line : Int) (text : String) : (word line text).depth = 0 := by
  simp only [word]
  split <;> rfl

/-- An expression is no deeper than its datum is large. -/
theorem depth_lt_size {inherited : Int} {d : Datum} {e : Expr} (h : expr inherited d = .ok e) : e.depth < d.size := by
  induction d generalizing inherited e with
  | list start metadata items ih =>
    obtain ⟨line, -, hf⟩ := exprForm_of_eq_ok h
    cases hf with
    | arithmetic _ ha hb | logical _ ha hb | relational _ ha hb =>
      have h1 := ih _ (by simp) ha
      have h2 := ih _ (by simp) hb
      simp only [Expr.depth, Datum.size, Datum.sizeAll]
      omega
    | unary _ he =>
      have h1 := ih _ (by simp) he
      simp only [Expr.depth, Datum.size, Datum.sizeAll]
      omega
    | call => simp
  | _ =>
    rcases expr_cases h with ⟨_, _, hd, rfl⟩ | ⟨_, _, hd, rfl⟩ | ⟨_, _, hd, -, rfl⟩ | ⟨_, _, _, _, hd, -⟩
    all_goals cases hd
    all_goals simp [word_depth]

/-- A statement computes no deeper, and declares no more variables, than its datum is large. -/
structure Bounded (d : Datum) (s : Stmt) : Prop where
  depth : s.depth < d.size
  names : (s.nested.flatMap Stmt.variables).length < d.size

theorem length_variables_nestedAll (s : Stmt) (rest : List Stmt) :
    ((Stmt.nestedAll (s :: rest)).flatMap Stmt.variables).length =
      (s.nested.flatMap Stmt.variables).length + ((Stmt.nestedAll rest).flatMap Stmt.variables).length := by
  rw [Stmt.nestedAll, List.flatMap_append, List.length_append]

theorem bounded_block {line : Int} {items : List Datum} {body : List Stmt}
    (ih : ∀ d ∈ items, ∀ {s}, stmt line d = .ok s → Bounded d s) (h : stmts line items = .ok body) :
    Stmt.depthAll body ≤ Datum.sizeAll items ∧
      ((Stmt.nestedAll body).flatMap Stmt.variables).length ≤ Datum.sizeAll items := by
  have hforall := forall₂_imp_of_mem ih (stmts_eq_ok_iff.1 h)
  clear h ih
  induction hforall with
  | nil => simp [Stmt.depthAll, Stmt.nestedAll]
  | cons hb _ ih =>
    obtain ⟨h1, h2⟩ := hb
    rw [length_variables_nestedAll, Stmt.depthAll, Datum.sizeAll]
    omega

theorem bounded_declItems {line : Int} {data : List Datum} {items : List DeclItem}
    (h : declItems line data = .ok items) :
    (∀ type, (Stmt.declare line type items).depth ≤ Datum.sizeAll data) ∧ items.length ≤ Datum.sizeAll data := by
  have hforall := declItems_eq_ok_iff.1 h
  clear h
  induction hforall with
  | nil => simp
  | @cons d item data items hi _ ih =>
    have hpos := d.size_pos
    have hinit : (item.init.map Expr.depth).getD 0 ≤ d.size := by
      rcases declItem_cases hi with ⟨_, _, _, rfl, -, rfl⟩ | ⟨_, _, _, _, _, _, _, _, rfl, -, -, he, rfl⟩
      · simp
      · have := depth_lt_size he
        simp only [Option.map_some, Option.getD_some, Datum.size, Datum.sizeAll]
        omega
    simp only [Stmt.depth, forall_const, List.map_cons, List.foldr_cons, List.length_cons, Datum.sizeAll] at ih ⊢
    omega

theorem bounded {inherited : Int} {d : Datum} {s : Stmt} (h : stmt inherited d = .ok s) : Bounded d s := by
  induction d using Datum.forms_induction generalizing inherited s with
  | list start metadata items ih ih' =>
    obtain ⟨_, _, _, line, hd, -, hf⟩ := stmt_cases h
    cases hd
    have block {m : Nat} {inner : List Datum} {body : List Stmt} (hm : .array m inner ∈ items)
        (hb : stmts line inner = .ok body) := bounded_block (fun d hd s hs => ih' m inner hm d hd hs) hb
    cases hf with
    | declare _ _ hi =>
      have hb := bounded_declItems hi
      constructor
      · simp only [Datum.size, Datum.sizeAll]
        have := hb.1 ‹Ty›
        omega
      · simp only [Stmt.nested, List.flatMap_cons, List.flatMap_nil, List.append_nil, Stmt.variables, List.length_map,
          Datum.size, Datum.sizeAll]
        omega
    | assign _ he | print he | result he =>
      have := depth_lt_size he
      constructor <;> simp
      try omega
    | increment | call | read | leave =>
      constructor <;> simp
    | @ifThen _ m _ _ _ _ hc hb | @whileDo _ m _ _ _ _ hc hb =>
      have h1 := depth_lt_size hc
      have h2 := block (m := m) (by simp) hb
      constructor
      all_goals
        simp only [Stmt.depth, Stmt.nested, List.flatMap_cons, Stmt.variables, List.nil_append, Datum.size,
          Datum.sizeAll]
        omega
    | @ifElse _ m n _ _ _ _ _ _ hc hb ho =>
      have h1 := depth_lt_size hc
      have h2 := block (m := m) (by simp) hb
      have h3 := block (m := n) (by simp) ho
      constructor
      · simp only [Stmt.depth, Datum.size, Datum.sizeAll]
        omega
      · simp only [Stmt.nested, List.cons_append, List.flatMap_cons, List.flatMap_append, Stmt.variables,
          List.nil_append, List.length_append, Datum.size, Datum.sizeAll]
        omega
    | @forDo _ m _ _ _ _ _ _ _ _ hi hc hs hb =>
      have h1 := (ih _ (by simp) hi).depth
      have h2 := depth_lt_size hc
      have h3 := (ih _ (by simp) hs).depth
      have h4 := block (m := m) (by simp) hb
      constructor
      all_goals
        simp only [Stmt.depth, Stmt.nested, List.flatMap_cons, Stmt.variables, List.nil_append, Datum.size,
          Datum.sizeAll]
        omega
  | _ =>
    obtain ⟨_, _, _, _, hd, -⟩ := stmt_cases h
    cases hd

end Load

/-! ### Functions -/

/-- The words that the expressions of a function need on the stack. -/
def Function.depth (f : Function) : Nat := Stmt.depthAll f.body

theorem Load.function_size {line : Int} {d : Datum} {f : Function} (h : function line d = .ok f) :
    f.depth ≤ d.size ∧ f.variables.length ≤ d.size := by
  obtain ⟨start, metadata, l, called, between, ps, body, line', rfl, -, -, -, -, hp, hb, -⟩ := function_cases h
  obtain ⟨m, params, rfl, hps⟩ := params_eq_ok_iff.1 hp
  obtain ⟨n, block, rfl, hb⟩ := block_eq_ok_iff.1 hb
  have hbody := bounded_block (fun d _ s hs => bounded hs) hb
  have hparams := hps.length_eq ▸ Datum.length_le_sizeAll params
  rw [Function.depth, Function.variables, List.length_append, List.length_map]
  simp only [Datum.size, Datum.sizeAll, Datum.sizeAll_append]
  omega

/-- A function is no larger than the text of its program. -/
theorem Program.size_le_of_load {text : List Char} {p : Program} (h : Program.load text = .ok p) :
    ∀ f ∈ p.functions, f.depth ≤ text.length ∧ f.variables.length ≤ text.length := by
  obtain ⟨d, hd, hp⟩ := Program.load_eq_ok_iff.1 h
  have hsize := Datum.size_le_of_parse hd
  obtain ⟨start, metadata, l, items, rfl, -, hf⟩ := Load.program_cases hp
  refine forall_mem_of_forall₂ hf (P := fun d => d.size ≤ text.length) (fun d hm => ?_) fun d _ f hd h => ?_
  · have := Datum.size_le_sizeAll hm
    simp only [Datum.size, Datum.sizeAll] at hsize
    omega
  · have := Load.function_size h
    omega

/-- The variables of a function take at most eight bytes each. -/
theorem Variable.total_le (vs : List Variable) : total vs ≤ 8 * vs.length := by
  induction vs with
  | nil => simp
  | cons v rest ih =>
    have hv : v.bytes ≤ 8 := by
      rw [Variable.bytes]
      cases v.type <;> simp [Ty.size?]
    rw [total_cons, List.length_cons]
    omega

end Arvore
