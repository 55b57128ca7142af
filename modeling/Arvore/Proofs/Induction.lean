import Mathlib
import Arvore.Datum.Basic
import Arvore.Program.Basic

/-!
# Induction over trees

Data, expressions and statements are trees whose nodes hold lists of trees again. In an induction over one of them the
hypothesis holds for all members of such a list.
-/

namespace Arvore

/-- Induction over the items of data. Entries of maps and metadata are never loaded as parts of a program. -/
@[induction_eliminator]
theorem Datum.items_induction {motive : Datum → Prop}
    (symbol : ∀ line text, motive (.symbol line text))
    (string : ∀ line text, motive (.string line text))
    (number : ∀ line text, motive (.number line text))
    (list : ∀ line metadata items, (∀ d ∈ items, motive d) → motive (.list line metadata items))
    (array : ∀ line items, (∀ d ∈ items, motive d) → motive (.array line items))
    (map : ∀ line entries, motive (.map line entries))
    (d : Datum) : motive d :=
  @Datum.rec motive (fun _ => True) (fun items => ∀ d ∈ items, motive d) (fun _ => True) symbol string number
    (fun line metadata items _ items_ih => list line metadata items items_ih)
    array (fun line entries _ => map line entries) trivial (fun _ _ _ _ => trivial)
    (fun _ h => absurd h List.not_mem_nil)
    (fun _ _ head_ih tail_ih d h => by
      rcases List.mem_cons.1 h with rfl | h
      · exact head_ih
      · exact tail_ih d h)
    (fun _ _ _ => trivial) d

/-- Induction over the forms that programs are written in: lists whose items are data or arrays of data. -/
theorem Datum.forms_induction {motive : Datum → Prop}
    (symbol : ∀ line text, motive (.symbol line text))
    (string : ∀ line text, motive (.string line text))
    (number : ∀ line text, motive (.number line text))
    (list : ∀ line metadata items, (∀ d ∈ items, motive d) →
      (∀ l inner, .array l inner ∈ items → ∀ d ∈ inner, motive d) → motive (.list line metadata items))
    (array : ∀ line items, motive (.array line items))
    (map : ∀ line entries, motive (.map line entries))
    (d : Datum) : motive d := by
  suffices h : motive d ∧ ∀ l inner, d = .array l inner → ∀ x ∈ inner, motive x from h.1
  induction d with
  | symbol line text => exact ⟨symbol line text, fun _ _ h => by cases h⟩
  | string line text => exact ⟨string line text, fun _ _ h => by cases h⟩
  | number line text => exact ⟨number line text, fun _ _ h => by cases h⟩
  | list line metadata items ih =>
    refine ⟨list line metadata items (fun d h => (ih d h).1) ?_, fun _ _ h => by cases h⟩
    exact fun l inner h => (ih _ h).2 l inner rfl
  | array line items ih =>
    refine ⟨array line items, fun l inner h => ?_⟩
    cases h
    exact fun d hd => (ih d hd).1
  | map line entries => exact ⟨map line entries, fun _ _ h => by cases h⟩

/-- Induction over expressions. -/
@[induction_eliminator]
theorem Expr.args_induction {motive : Expr → Prop}
    (number : ∀ line text, motive (.number line text))
    (string : ∀ line text, motive (.string line text))
    (boolean : ∀ line word, motive (.boolean line word))
    (var : ∀ line name, motive (.var line name))
    (arithmetic : ∀ line op left right, motive left → motive right → motive (.arithmetic line op left right))
    (logical : ∀ line op left right, motive left → motive right → motive (.logical line op left right))
    (relational : ∀ line op left right, motive left → motive right → motive (.relational line op left right))
    (unary : ∀ line op operand, motive operand → motive (.unary line op operand))
    (call : ∀ line callee args, (∀ e ∈ args, motive e) → motive (.call line callee args))
    (foreign : ∀ line kind, motive (.foreign line kind))
    (absent : motive .absent)
    (e : Expr) : motive e :=
  @Expr.rec motive (fun args => ∀ e ∈ args, motive e) number string boolean var arithmetic logical relational unary
    call foreign absent
    (fun _ h => absurd h List.not_mem_nil)
    (fun _ _ head_ih tail_ih e h => by
      rcases List.mem_cons.1 h with rfl | h
      · exact head_ih
      · exact tail_ih e h) e

/-- Induction over statements. -/
@[induction_eliminator]
theorem Stmt.blocks_induction {motive : Stmt → Prop}
    (declare : ∀ line type items, motive (.declare line type items))
    (assign : ∀ line target value, motive (.assign line target value))
    (increment : ∀ line op target, motive (.increment line op target))
    (call : ∀ line callee args, motive (.call line callee args))
    (ifThen : ∀ line cond body, (∀ s ∈ body, motive s) → motive (.ifThen line cond body))
    (ifElse : ∀ line cond body other, (∀ s ∈ body, motive s) → (∀ s ∈ other, motive s) →
      motive (.ifElse line cond body other))
    (whileDo : ∀ line cond body, (∀ s ∈ body, motive s) → motive (.whileDo line cond body))
    (forDo : ∀ line init cond step body, motive init → motive step → (∀ s ∈ body, motive s) →
      motive (.forDo line init cond step body))
    (read : ∀ line target, motive (.read line target))
    (print : ∀ line value, motive (.print line value))
    (ret : ∀ line value, motive (.ret line value))
    (foreign : ∀ line kind, motive (.foreign line kind))
    (incomplete : ∀ line kind, motive (.incomplete line kind))
    (s : Stmt) : motive s :=
  @Stmt.rec motive (fun body => ∀ s ∈ body, motive s) declare assign increment call ifThen ifElse whileDo
    (fun line init cond step body => forDo line init cond step body) read print ret foreign incomplete
    (fun _ h => absurd h List.not_mem_nil)
    (fun _ _ head_ih tail_ih s h => by
      rcases List.mem_cons.1 h with rfl | h
      · exact head_ih
      · exact tail_ih s h) s

/-! ### Lists side by side -/

/-- Two lists stay related if the relation of each member is changed. -/
theorem forall₂_imp_of_mem {α β : Type} {R S : α → β → Prop} {xs : List α} {ys : List β}
    (himp : ∀ x ∈ xs, ∀ {y}, R x y → S x y) (h : List.Forall₂ R xs ys) : List.Forall₂ S xs ys := by
  induction h with
  | nil => exact .nil
  | cons hr _ ih =>
    simp only [List.forall_mem_cons] at himp
    exact .cons (himp.1 hr) (ih himp.2)

/-- What holds for the members of one list carries over to the members of a related one. -/
theorem forall_mem_of_forall₂ {α β : Type} {P : α → Prop} {Q : β → Prop} {R : α → β → Prop} {xs : List α}
    {ys : List β} (h : List.Forall₂ R xs ys) (hp : ∀ x ∈ xs, P x) (hq : ∀ x ∈ xs, ∀ y, P x → R x y → Q y) :
    ∀ y ∈ ys, Q y := by
  induction h with
  | nil => simp
  | cons hr _ ih =>
    simp only [List.forall_mem_cons] at hp hq ⊢
    exact ⟨hq.1 _ hp.1 hr, ih hp.2 hq.2⟩

end Arvore
