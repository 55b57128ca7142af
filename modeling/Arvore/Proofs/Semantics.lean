import Mathlib
import Arvore.Analysis.Typing

/-!
# What programs on integers and truth values mean

The meaning of expressions and statements that neither call nor read nor write, given by evaluation and by rules for
whole runs. Integers have 32 bits and wrap around; division drops the fraction and fails for zero; both operands of
`&&` and `||` are computed; a truth value is compared as zero or one. A variable that is declared without a value keeps
what it held.
-/

namespace Arvore

/-- An integer of 32 bits or a truth value. -/
inductive Value where
  | int (n : BitVec 32)
  | truth (b : Bool)
  deriving DecidableEq, Repr

namespace Value

/-- The number that a value counts as. -/
def number : Value → Int
  | int n => n.toInt
  | truth b => b.toInt

/-- The truth value that a value counts as. -/
def isTrue : Value → Bool
  | int n => n ≠ 0
  | truth b => b

/-- The integer of 32 bits for a number. -/
def ofInt (n : Int) : Value := int (BitVec.ofInt 32 n)

/-- The type that a value has. -/
def type : Value → Ty
  | int _ => .integer
  | truth _ => .logical

end Value

/-- The values of variables. -/
abbrev Store := String → Value

/-- The store with another value for a variable. -/
def Store.set (σ : Store) (x : String) (v : Value) : Store := Function.update σ x v

/-! ### Expressions -/

/-- The result of an operation on two integers, before it is cut to 32 bits. -/
def ArithmeticOp.eval (op : ArithmeticOp) (a b : Int) : Option Int :=
  match op with
  | add => some (a + b)
  | sub => some (a - b)
  | mul => some (a * b)
  | div => if b = 0 then none else some (a.tdiv b)
  | other _ => none

/-- The result of an operation on two truth values. -/
def LogicalOp.eval (op : LogicalOp) (a b : Bool) : Option Bool :=
  match op with
  | and => some (a && b)
  | or => some (a || b)
  | other _ => none

/-- The result of a comparison. -/
def RelationalOp.eval (op : RelationalOp) (a b : Int) : Option Bool :=
  match op with
  | lt => some (a < b)
  | le => some (a ≤ b)
  | gt => some (b < a)
  | ge => some (b ≤ a)
  | eq => some (a = b)
  | ne => some (a ≠ b)
  | other _ => none

/-- The result of an operation on one operand. -/
def UnaryOp.eval (op : UnaryOp) (v : Value) : Option Value :=
  match op with
  | neg => some (.ofInt (-v.number))
  | not => some (.truth !v.isTrue)
  | other _ => none

/-- The value of an expression. There is none if a divisor is zero, and none for what is neither an integer nor a truth
value. -/
def Expr.eval (σ : Store) : Expr → Option Value
  | number _ text => (Numeral.integer? text).map .ofInt
  | boolean _ word => some (.truth (word = trueWord))
  | var _ name => some (σ name)
  | arithmetic _ op a b => do
    let x ← eval σ a
    let y ← eval σ b
    return .ofInt (← op.eval x.number y.number)
  | logical _ op a b => do
    let x ← eval σ a
    let y ← eval σ b
    return .truth (← op.eval x.isTrue y.isTrue)
  | relational _ op a b => do
    let x ← eval σ a
    let y ← eval σ b
    return .truth (← op.eval x.number y.number)
  | unary _ op e => do op.eval (← eval σ e)
  | string .. | call .. | foreign .. | absent => none

/-! ### Statements -/

/-- Gives the declared variable its initial value, if it has one. -/
def DeclItem.exec (σ : Store) (item : DeclItem) : Option Store :=
  match item.init with
  | none => some σ
  | some e => (e.eval σ).map (σ.set item.target.name)

/-- The number that is added to a variable. -/
def StepOp.amount : StepOp → Int
  | down => -1
  | _ => 1

/-- How a run ends: behind what was run, or with a return and perhaps a result. -/
inductive Outcome where
  | next (σ : Store)
  | done (σ : Store) (result : Option Value)

/-- The values of variables at the end. -/
def Outcome.store : Outcome → Store
  | next σ | done σ _ => σ

/-- The result that is returned. -/
def Outcome.result : Outcome → Option Value
  | next _ => none
  | done _ result => result

/-- What is run: a statement, the statements of a block, or a loop from its condition on, with statements that are run
after its body. -/
inductive Task where
  | stmt (s : Stmt)
  | block (body : List Stmt)
  | loop (cond : Expr) (body step : List Stmt)

/-- Whole runs. -/
inductive Exec : Store → Task → Outcome → Prop
  | declare {σ σ' line type items} (h : items.foldlM DeclItem.exec σ = some σ') :
      Exec σ (.stmt (.declare line type items)) (.next σ')
  | assign {σ line x e v} (h : e.eval σ = some v) : Exec σ (.stmt (.assign line x e)) (.next (σ.set x.name v))
  | increment {σ line op x} :
      Exec σ (.stmt (.increment line op x)) (.next (σ.set x.name (.ofInt ((σ x.name).number + op.amount))))
  | ifThen {σ line c body v o} (hc : c.eval σ = some v) (h : Exec σ (.block (if v.isTrue then body else [])) o) :
      Exec σ (.stmt (.ifThen line c body)) o
  | ifElse {σ line c body other v o} (hc : c.eval σ = some v)
      (h : Exec σ (.block (if v.isTrue then body else other)) o) : Exec σ (.stmt (.ifElse line c body other)) o
  | whileDo {σ line c body o} (h : Exec σ (.loop c body []) o) : Exec σ (.stmt (.whileDo line c body)) o
  | forDo {σ σ' line i c s body o} (hi : Exec σ (.stmt i) (.next σ')) (h : Exec σ' (.loop c body [s]) o) :
      Exec σ (.stmt (.forDo line i c s body)) o
  | leave {σ line} : Exec σ (.stmt (.ret line none)) (.done σ none)
  | result {σ line e v} (h : e.eval σ = some v) : Exec σ (.stmt (.ret line (some e))) (.done σ (some v))
  | nil {σ} : Exec σ (.block []) (.next σ)
  | cons {σ σ' s rest o} (h : Exec σ (.stmt s) (.next σ')) (hr : Exec σ' (.block rest) o) :
      Exec σ (.block (s :: rest)) o
  | consDone {σ σ' s rest r} (h : Exec σ (.stmt s) (.done σ' r)) : Exec σ (.block (s :: rest)) (.done σ' r)
  | loopEnd {σ c body step v} (hc : c.eval σ = some v) (hv : v.isTrue = false) :
      Exec σ (.loop c body step) (.next σ)
  | loopNext {σ σ' σ'' c body step v o} (hc : c.eval σ = some v) (hv : v.isTrue = true)
      (hb : Exec σ (.block body) (.next σ')) (hs : Exec σ' (.block step) (.next σ''))
      (h : Exec σ'' (.loop c body step) o) : Exec σ (.loop c body step) o
  | loopDone {σ σ' c body step v r} (hc : c.eval σ = some v) (hv : v.isTrue = true)
      (hb : Exec σ (.block body) (.done σ' r)) : Exec σ (.loop c body step) (.done σ' r)

/-! ### The part of the language that has a meaning here -/

/-- Expressions on integers of 32 bits and truth values. -/
def Expr.isScalar : Expr → Bool
  | number _ text => (Numeral.immediate? text).isSome
  | boolean .. | var .. => true
  | arithmetic _ _ a b | logical _ _ a b | relational _ _ a b => isScalar a && isScalar b
  | unary _ _ e => isScalar e
  | string .. | call .. | foreign .. | absent => false

/-- The types of variables for which there are values. -/
def Ty.isScalar (t : Ty) : Bool := t = .integer || t = .logical

namespace Stmt

mutual

/-- Statements that neither call nor read nor write, with expressions on integers and truth values. -/
def isScalar : Stmt → Bool
  | declare _ _ items => items.all fun item => item.init.all Expr.isScalar
  | assign _ _ e => e.isScalar
  | increment .. => true
  | ifThen _ c body => c.isScalar && allScalar body
  | ifElse _ c body other => c.isScalar && allScalar body && allScalar other
  | whileDo _ c body => c.isScalar && allScalar body
  | forDo _ i c s body => isScalar i && c.isScalar && isScalar s && allScalar body
  | ret _ value => value.all Expr.isScalar
  | call .. | read .. | print .. | foreign .. | incomplete .. => false

/-- All statements of a block are of this kind. -/
def allScalar : List Stmt → Bool
  | [] => true
  | s :: rest => isScalar s && allScalar rest

end

theorem allScalar_iff {body : List Stmt} : allScalar body = true ↔ ∀ s ∈ body, s.isScalar = true := by
  induction body with
  | nil => simp [allScalar]
  | cons s rest ih => simp [allScalar, ih]

end Stmt

end Arvore
