import Mathlib
import Arvore.Proofs.Program.Lines
import Arvore.Proofs.Relabelling.Program

/-!
# Programs on one line

Two programs that differ in nothing but their lines become the same program when all of it is put on the first line
(`oneLine`), which is a relabelling that keeps names. A well-formed program stays well formed there, so it is known from
its tree on one line (`Program.oneLine_eq_of_toTree`). A program that is written and read again comes back on other
lines, but is the same on one line (`Program.oneLine_relined`).
-/

namespace Arvore

/-! ### Trees -/

namespace Tree

mutual

/-- A tree with all of its nodes on the first line. -/
def oneLine : Tree → Tree
  | ⟨kind, value, _, children⟩ => ⟨kind, value, 1, oneLineAll children⟩

/-- Several trees with all of their nodes on the first line. -/
def oneLineAll : List Tree → List Tree
  | [] => []
  | t :: rest => oneLine t :: oneLineAll rest

end

@[simp] theorem oneLineAll_eq_map (ts : List Tree) : oneLineAll ts = ts.map oneLine := by
  induction ts with
  | nil => rfl
  | cons t rest ih => rw [oneLineAll, ih, List.map_cons]

@[simp] theorem oneLine_mk (kind : Kind) (value : String) (line : Int) (children : List Tree) :
    oneLine ⟨kind, value, line, children⟩ = ⟨kind, value, 1, children.map oneLine⟩ := by
  rw [oneLine, oneLineAll_eq_map]

mutual

/-- Decides whether two trees are the same. -/
def decEq : (t u : Tree) → Decidable (t = u)
  | ⟨kind, value, line, children⟩, ⟨kind', value', line', children'⟩ =>
    have := decEqAll children children'
    decidable_of_iff (kind = kind' ∧ value = value' ∧ line = line' ∧ children = children') (by rw [Tree.mk.injEq])

/-- Decides whether two lists of trees are the same. -/
def decEqAll : (ts us : List Tree) → Decidable (ts = us)
  | [], [] => .isTrue rfl
  | [], _ :: _ | _ :: _, [] => .isFalse (by simp)
  | t :: ts, u :: us =>
    have := decEq t u
    have := decEqAll ts us
    decidable_of_iff (t = u ∧ ts = us) (by rw [List.cons.injEq])

end

instance : DecidableEq Tree := decEq

end Tree

/-! ### Programs -/

/-- The relabelling that puts everything on the first line and keeps names. -/
def Relabelling.firstLine : Relabelling := { line := fun _ => 1 }

@[simp] theorem Relabelling.line_firstLine (line : Int) : firstLine.line line = 1 := rfl

@[simp] theorem Relabelling.name_firstLine (name : String) : firstLine.name name = name := rfl

/-- A name on the first line. -/
abbrev Ident.oneLine (x : Ident) : Ident := x.relabel .firstLine

/-- An expression on the first line. -/
abbrev Expr.oneLine (e : Expr) : Expr := e.relabel .firstLine

/-- An item of a declaration on the first line. -/
abbrev DeclItem.oneLine (item : DeclItem) : DeclItem := item.relabel .firstLine

/-- A statement on the first line. -/
abbrev Stmt.oneLine (s : Stmt) : Stmt := s.relabel .firstLine

/-- A parameter on the first line. -/
abbrev Param.oneLine (p : Param) : Param := p.relabel .firstLine

/-- A function on the first line. -/
abbrev Function.oneLine (f : Function) : Function := f.relabel .firstLine

/-- A program on the first line. -/
def Program.oneLine (p : Program) : Program := p.relabel (fun _ => 1) fun _ => id

theorem Program.oneLine_eq (p : Program) : p.oneLine = ⟨1, p.functions.map Function.oneLine⟩ := by
  rw [oneLine, relabel, Program.mk.injEq]
  refine ⟨rfl, List.ext_getElem? fun i => ?_⟩
  rw [List.getElem?_mapIdx, List.getElem?_map]
  rfl

attribute [local simp] Ident.relabel Ident.toTree Ident.relined Expr.relabel Expr.toTree
  Expr.relined Stmt.relabel Stmt.toTree Stmt.relined

/-! ### A program is known from its tree -/

section WellFormed

variable {L : Lexicon}

theorem isLine_one : IsLine 1 := ⟨le_rfl, by omega⟩

theorem Ident.wellFormed_oneLine {x : Ident} (h : x.WellFormed L) : x.oneLine.WellFormed L :=
  ⟨isLine_one, h.name, h.notTruth⟩

theorem Ident.isCallee_oneLine {x : Ident} (h : x.IsCallee L) : x.oneLine.IsCallee L := ⟨isLine_one, h.name⟩

theorem Expr.wellFormed_oneLine {e : Expr} (h : e.WellFormed L) : e.oneLine.WellFormed L := by
  induction h with
  | number hl hw hr => exact .number isLine_one hw hr
  | string hl hw => exact .string isLine_one hw
  | boolean hl hw ht => exact .boolean isLine_one hw ht
  | var hx => exact .var (Ident.wellFormed_oneLine hx)
  | arithmetic hl ho _ _ iha ihb => exact .arithmetic isLine_one ho iha ihb
  | logical hl ho _ _ iha ihb => exact .logical isLine_one ho iha ihb
  | relational hl ho _ _ iha ihb => exact .relational isLine_one ho iha ihb
  | unary hl ho _ ih => exact .unary isLine_one ho ih
  | call hl hc _ ih =>
    rw [oneLine, relabel, relabelAll_eq_map]
    exact .call isLine_one (Ident.isCallee_oneLine hc) (List.forall_mem_map.2 ih)

theorem Expr.toTree_oneLine {e : Expr} (h : e.WellFormed L) : e.oneLine.toTree = e.toTree.oneLine := by
  induction h with
  | number | string | boolean | var => simp
  | arithmetic hl ho _ _ iha ihb | logical hl ho _ _ iha ihb | relational hl ho _ _ iha ihb =>
    simp [operatorTree, iha, ihb]
  | unary hl ho _ ih => simp [operatorTree, ih]
  | call hl hc _ ih => simpa using ih

namespace DeclItem

theorem wellFormed_oneLine {item : DeclItem} (h : item.WellFormed L) : item.oneLine.WellFormed L := by
  refine ⟨Ident.wellFormed_oneLine h.target, fun e he => ?_⟩
  obtain ⟨e', he', rfl⟩ := Option.map_eq_some_iff.1 he
  exact Expr.wellFormed_oneLine (h.init e' he')

theorem chain_oneLine {items : List DeclItem} (h : ∀ item ∈ items, item.WellFormed L) :
    chain (items.map oneLine) = (chain items).map Tree.oneLine := by
  induction items with
  | nil => rfl
  | cons item rest ih =>
    simp only [List.forall_mem_cons] at h
    have hinit : (item.init.map Expr.oneLine).map Expr.toTree = (item.init.map Expr.toTree).map Tree.oneLine := by
      rcases hi : item.init with _ | e
      · rfl
      · simp [Expr.toTree_oneLine (h.1.init e hi)]
    simp [chain, relabel, ih h.2, hinit, Option.toList_map]

end DeclItem

namespace Stmt

theorem wellFormed_oneLine {s : Stmt} (h : s.WellFormed L) : s.oneLine.WellFormed L := by
  induction h with
  | declare hl ht hne hi =>
    exact .declare isLine_one ht (by simpa using hne)
      (List.forall_mem_map.2 fun item h => DeclItem.wellFormed_oneLine (hi item h))
  | assign hl hx he => exact .assign isLine_one (Ident.wellFormed_oneLine hx) (Expr.wellFormed_oneLine he)
  | increment hl ho hx => exact .increment isLine_one ho (Ident.wellFormed_oneLine hx)
  | call hl hc ha =>
    exact .call isLine_one (Ident.isCallee_oneLine hc)
      (List.forall_mem_map.2 fun e he => Expr.wellFormed_oneLine (ha e he))
  | ifThen hl hc _ ih =>
    rw [oneLine, relabel, relabelAll_eq_map]
    exact .ifThen isLine_one (Expr.wellFormed_oneLine hc) (List.forall_mem_map.2 ih)
  | ifElse hl hc _ _ ihb iho =>
    rw [oneLine, relabel, relabelAll_eq_map, relabelAll_eq_map]
    exact .ifElse isLine_one (Expr.wellFormed_oneLine hc) (List.forall_mem_map.2 ihb) (List.forall_mem_map.2 iho)
  | whileDo hl hc _ ih =>
    rw [oneLine, relabel, relabelAll_eq_map]
    exact .whileDo isLine_one (Expr.wellFormed_oneLine hc) (List.forall_mem_map.2 ih)
  | forDo hl _ hc _ _ ihi ihs ih =>
    rw [oneLine, relabel, relabelAll_eq_map]
    exact .forDo isLine_one ihi (Expr.wellFormed_oneLine hc) ihs (List.forall_mem_map.2 ih)
  | read hl hx => exact .read isLine_one (Ident.wellFormed_oneLine hx)
  | print hl he => exact .print isLine_one (Expr.wellFormed_oneLine he)
  | ret hl he =>
    refine .ret isLine_one fun e h => ?_
    obtain ⟨e', he', rfl⟩ := Option.map_eq_some_iff.1 h
    exact Expr.wellFormed_oneLine (he e' he')

theorem toTree_oneLine {s : Stmt} (h : s.WellFormed L) : s.oneLine.toTree = s.toTree.oneLine := by
  induction h with
  | declare hl ht hne hi => simp [Ty.toTree, DeclItem.chain_oneLine hi]
  | assign hl hx he =>
    simp [Expr.operatorTree, Expr.toTree_oneLine he]
  | increment hl ho hx => simp [Expr.operatorTree]
  | call hl hc ha =>
    simpa using fun e he => Expr.toTree_oneLine (ha e he)
  | ifThen hl hc _ ih | whileDo hl hc _ ih => simpa [Expr.toTree_oneLine hc] using ih
  | ifElse hl hc _ _ ihb iho => simpa [Expr.toTree_oneLine hc] using ⟨ihb, iho⟩
  | forDo hl _ hc _ _ ihi ihs ih => simpa [Expr.toTree_oneLine hc, ihi, ihs] using ih
  | read hl hx => simp
  | print hl he => simp [Expr.toTree_oneLine he]
  | @ret line value hl he =>
    cases value with
    | none => simp
    | some e => simp [Expr.toTree_oneLine (he e rfl)]

end Stmt

theorem Param.wellFormed_oneLine {p : Param} (h : p.WellFormed L) : p.oneLine.WellFormed L :=
  ⟨isLine_one, h.type, Ident.wellFormed_oneLine h.target⟩

theorem Param.toTree_oneLine (p : Param) : p.oneLine.toTree = p.toTree.oneLine := by
  simp [relabel, toTree, Ty.toTree]

theorem Function.wellFormed_oneLine {f : Function} (h : f.WellFormed L) : f.oneLine.WellFormed L :=
  ⟨isLine_one, h.name, h.result, List.forall_mem_map.2 fun p hp => Param.wellFormed_oneLine (h.params p hp),
    List.forall_mem_map.2 fun s hs => Stmt.wellFormed_oneLine (h.body s hs), h.flaw⟩

theorem Function.toTree_oneLine {f : Function} (h : f.WellFormed L) : f.oneLine.toTree = f.toTree.oneLine := by
  simpa [relabel, toTree, Ty.toTree, Param.toTree_oneLine] using fun s hs => Stmt.toTree_oneLine (h.body s hs)

theorem Program.wellFormed_oneLine {p : Program} (h : p.WellFormed L) : p.oneLine.WellFormed L := by
  rw [oneLine_eq]
  exact ⟨isLine_one, List.forall_mem_map.2 fun f hf => Function.wellFormed_oneLine (h.functions f hf)⟩

theorem Program.toTree_oneLine {p : Program} (h : p.WellFormed L) : p.oneLine.toTree = p.toTree.oneLine := by
  simpa [oneLine_eq, toTree] using fun f hf => Function.toTree_oneLine (h.functions f hf)

/-- Programs whose trees differ in nothing but the lines are the same on one line. -/
theorem Program.oneLine_eq_of_toTree {p q : Program} (hp : p.WellFormed L) (hq : q.WellFormed L)
    (h : p.toTree.oneLine = q.toTree.oneLine) : p.oneLine = q.oneLine := by
  rw [← Program.ofTree_toTree (wellFormed_oneLine hp), toTree_oneLine hp, h, ← toTree_oneLine hq,
    Program.ofTree_toTree (wellFormed_oneLine hq)]

end WellFormed

/-! ### Programs as they are read -/

theorem Expr.oneLine_relined (e : Expr) (line : Int) : (e.relined line).oneLine = e.oneLine := by
  induction e generalizing line with
  | call l callee args ih => simpa using fun e he => ih e he l
  | _ => simp_all

theorem DeclItem.oneLine_relined (item : DeclItem) (line : Int) : (item.relined line).oneLine = item.oneLine := by
  simp [relined, relabel, Function.comp_def, Expr.oneLine_relined]

theorem Stmt.oneLine_relined (s : Stmt) : s.relined.oneLine = s.oneLine := by
  induction s with
  | ifThen line c body ih | whileDo line c body ih => simpa [Expr.oneLine_relined] using ih
  | ifElse line c body other ihb iho => simpa [Expr.oneLine_relined] using ⟨ihb, iho⟩
  | forDo line i c s body ihi ihs ih => simpa [Expr.oneLine_relined, ihi, ihs] using ih
  | _ =>
    simp [Function.comp_def, DeclItem.oneLine_relined, Expr.oneLine_relined]

theorem Function.oneLine_relined (f : Function) : f.relined.oneLine = f.oneLine := by
  simp [relined, relabel, Param.relined, Param.relabel, Function.comp_def, Stmt.oneLine_relined]

/-- Reading the text of a program moves its parts to other lines and changes nothing else. -/
theorem Program.oneLine_relined (p : Program) : p.relined.oneLine = p.oneLine := by
  simp [relined, oneLine_eq, Function.oneLine_relined]

end Arvore
