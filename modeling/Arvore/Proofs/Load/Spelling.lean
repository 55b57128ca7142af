import Mathlib
import Arvore.Compilation
import Arvore.Proofs.Induction
import Arvore.Proofs.Load.Form
import Arvore.Proofs.Text.SmallLetters

/-!
# The spelling of names is irrelevant

Two data are spelled alike if they differ only in symbols with the same normal form. Loading either of them gives the
same program, or gives no program for both (`loading_ignores_spelling`). Names are compared by their normal form
wherever they are read; the words that are compared as they stand, the heads of forms and the types, are words of small
letters, which have one spelling only.
-/

namespace Arvore

namespace Datum

mutual

/-- The datum with every symbol in its normal form. -/
def composed : Datum → Datum
  | symbol l text => symbol l (Text.nfc text)
  | string l text => string l text
  | number l text => number l text
  | list l metadata items => list l (composedEntries metadata) (composedAll items)
  | array l items => array l (composedAll items)
  | map l entries => map l (composedEntries entries)

/-- Several data with their symbols in normal form. -/
def composedAll : List Datum → List Datum
  | [] => []
  | d :: rest => composed d :: composedAll rest

/-- Entries with the symbols of their values in normal form. -/
def composedEntries : List (String × Datum) → List (String × Datum)
  | [] => []
  | (key, d) :: rest => (key, composed d) :: composedEntries rest

end

/-- Two data are the same but for the spelling of symbols. -/
def SpelledAlike (d d' : Datum) : Prop := d.composed = d'.composed

theorem SpelledAlike.symm {d d' : Datum} (h : SpelledAlike d d') : SpelledAlike d' d := Eq.symm h

theorem composedAll_eq_map (ds : List Datum) : composedAll ds = ds.map composed := by
  induction ds with
  | nil => rw [composedAll, List.map_nil]
  | cons d rest ih => rw [composedAll, ih, List.map_cons]

theorem forall₂_of_composedAll {ds ds' : List Datum} (h : composedAll ds = composedAll ds') :
    List.Forall₂ SpelledAlike ds ds' := by
  rw [composedAll_eq_map, composedAll_eq_map, ← List.forall₂_eq_eq_eq, List.forall₂_map_left_iff,
    List.forall₂_map_right_iff] at h
  exact h

section Cases

variable {l : Nat} {text : String} {metadata : List (String × Datum)} {items : List Datum} {d : Datum}

attribute [local simp] SpelledAlike composed

theorem SpelledAlike.of_symbol (h : SpelledAlike (symbol l text) d) :
    ∃ text', d = symbol l text' ∧ Text.nfc text = Text.nfc text' := by
  cases d <;> simp_all

theorem SpelledAlike.of_string (h : SpelledAlike (string l text) d) : d = string l text := by
  cases d <;> simp_all

theorem SpelledAlike.of_number (h : SpelledAlike (number l text) d) : d = number l text := by
  cases d <;> simp_all

theorem SpelledAlike.of_list (h : SpelledAlike (list l metadata items) d) :
    ∃ metadata' items', d = list l metadata' items' ∧ composedEntries metadata = composedEntries metadata' ∧
      List.Forall₂ SpelledAlike items items' := by
  cases d with
  | list l' metadata' items' =>
    simp only [SpelledAlike, composed, list.injEq] at h
    obtain ⟨rfl, hmetadata, hitems⟩ := h
    exact ⟨metadata', items', rfl, hmetadata, forall₂_of_composedAll hitems⟩
  | _ => simp at h

theorem SpelledAlike.of_array (h : SpelledAlike (array l items) d) :
    ∃ items', d = array l items' ∧ List.Forall₂ SpelledAlike items items' := by
  cases d with
  | array l' items' =>
    simp only [SpelledAlike, composed, array.injEq] at h
    obtain ⟨rfl, hitems⟩ := h
    exact ⟨items', rfl, forall₂_of_composedAll hitems⟩
  | _ => simp at h

/-- A word of small letters is spelled the same in both. -/
theorem SpelledAlike.of_word (hs : Text.Small text.toList) (h : SpelledAlike (symbol l text) d) :
    d = symbol l text := by
  obtain ⟨text', rfl, hnfc⟩ := h.of_symbol
  rw [Text.nfc_eq_self hs] at hnfc
  rw [(Text.nfc_eq_iff hs).1 hnfc.symm]

end Cases

/-- Metadata that are spelled alike have values that are spelled alike, under the same keys. -/
theorem lookup_composedEntries (es : List (String × Datum)) (key : String) :
    (composedEntries es).lookup key = (es.lookup key).map composed := by
  induction es with
  | nil => rfl
  | cons e rest ih =>
    obtain ⟨k, d⟩ := e
    rw [composedEntries, List.lookup_cons, List.lookup_cons]
    cases key == k with
    | true => rfl
    | false => exact ih

end Datum

/-- A relation to the members of one list carries over to a list that is spelled alike. -/
theorem forall₂_of_spelledAlike {β : Type} {R : Datum → β → Prop} {ds ds' : List Datum} {ys : List β}
    (h : List.Forall₂ R ds ys) (ha : List.Forall₂ Datum.SpelledAlike ds ds')
    (himp : ∀ d ∈ ds, ∀ {d' y}, Datum.SpelledAlike d d' → R d y → R d' y) : List.Forall₂ R ds' ys := by
  induction h generalizing ds' with
  | nil =>
    cases ha
    exact .nil
  | cons hr _ ih =>
    simp only [List.forall_mem_cons] at himp
    cases ha with
    | cons hd hrest => exact .cons (himp.1 hd hr) (ih hrest himp.2)

namespace Load

open Datum (SpelledAlike)

/-! ### Parts -/

theorem lineOf_of_spelledAlike {start : Nat} {metadata metadata' : List (String × Datum)} {inherited line : Int}
    (ha : Datum.composedEntries metadata = Datum.composedEntries metadata')
    (h : lineOf start metadata inherited = .ok line) : lineOf start metadata' inherited = .ok line := by
  have hlookup := congrArg (List.lookup "line") ha
  rw [Datum.lookup_composedEntries, Datum.lookup_composedEntries] at hlookup
  unfold lineOf at h ⊢
  cases hd : metadata.lookup "line" with
  | none =>
    rw [hd, Option.map_none, eq_comm, Option.map_eq_none_iff] at hlookup
    rw [hlookup]
    rwa [hd] at h
  | some d =>
    rw [hd, Option.map_some, eq_comm, Option.map_eq_some_iff] at hlookup
    obtain ⟨d', hd', hcomposed⟩ := hlookup
    rw [hd']
    rw [hd] at h
    cases d with
    | number l text =>
      rw [SpelledAlike.of_number hcomposed.symm]
      exact h
    | _ => cases h

theorem name_of_spelledAlike {role : LoadError.NameRole} {d d' : Datum} {n : String} (ha : SpelledAlike d d')
    (h : name role d = .ok n) : name role d' = .ok n := by
  obtain ⟨l, text, rfl, rfl⟩ := name_eq_ok_iff.1 h
  obtain ⟨text', rfl, hnfc⟩ := ha.of_symbol
  exact name_eq_ok_iff.2 ⟨l, text', rfl, hnfc⟩

theorem ident_of_spelledAlike {line : Int} {d d' : Datum} {x : Ident} (ha : SpelledAlike d d')
    (h : ident line d = .ok x) : ident line d' = .ok x := by
  obtain ⟨l, text, rfl, rfl, htruth⟩ := ident_eq_ok_iff.1 h
  obtain ⟨text', rfl, hnfc⟩ := ha.of_symbol
  exact ident_eq_ok_iff.2 ⟨l, text', rfl, by rw [hnfc], hnfc ▸ htruth⟩

theorem small_word {t : Ty} (h : isResult t = true) : Text.Small t.word.toList := by
  cases t with
  | function | other word => cases h
  | _ => simp [Ty.word, Text.Small]

theorem isResult_of_isVariable {t : Ty} (h : t.isVariable = true) : isResult t = true := by
  cases t <;> simp_all [Ty.isVariable, isResult]

theorem type_of_spelledAlike {allowed : Ty → Bool} (hallowed : ∀ t, allowed t = true → isResult t = true)
    {d d' : Datum} {t : Ty} (ha : SpelledAlike d d') (h : type allowed d = .ok t) : type allowed d' = .ok t := by
  obtain ⟨l, text, rfl, rfl, ht⟩ := type_eq_ok_iff.1 h
  have hsmall := small_word (hallowed _ ht)
  rw [Ty.word_ofWord] at hsmall
  rwa [ha.of_word hsmall]

theorem operator_of_spelledAlike {α : Type} {known : List α} {symbol : α → String} {d d' : Datum} {op : α}
    (ha : SpelledAlike d d') (h : operator known symbol d = .ok op) : operator known symbol d' = .ok op := by
  obtain ⟨l, text, rfl, -⟩ := operator_eq_ok_iff.1 h
  rwa [ha.of_string]

/-! ### Expressions -/

theorem call_of_spelledAlike {start : Nat} {line : Int} {operands operands' : List Datum} {callee : Ident}
    {args : List Expr} (ha : List.Forall₂ SpelledAlike operands operands')
    (h : call start line operands = .ok (callee, args))
    (ih : ∀ l inner, .array l inner ∈ operands → ∀ d ∈ inner, ∀ {d' e}, SpelledAlike d d' → expr line d = .ok e →
      expr line d' = .ok e) : call start line operands' = .ok (callee, args) := by
  obtain ⟨d, hn, hline, hargs⟩ := call_eq_ok_iff.1 h
  rw [call_eq_ok_iff]
  rcases hargs with ⟨rfl, rfl⟩ | ⟨l, items, rfl, he⟩
  · obtain _ | ⟨hd, _ | _⟩ := ha
    exact ⟨_, name_of_spelledAlike hd hn, hline, .inl ⟨rfl, rfl⟩⟩
  · obtain _ | ⟨hd, _ | ⟨hitems, _ | _⟩⟩ := ha
    obtain ⟨items', rfl, hdata⟩ := hitems.of_array
    refine ⟨_, name_of_spelledAlike hd hn, hline, .inr ⟨l, items', rfl, exprs_eq_ok_iff.2 ?_⟩⟩
    exact forall₂_of_spelledAlike (exprs_eq_ok_iff.1 he) hdata (ih l items (by simp))

theorem exprForm_of_spelledAlike {line : Int} {items items' : List Datum} {e : Expr}
    (ha : List.Forall₂ SpelledAlike items items') (hf : ExprForm line items e)
    (ih : ∀ d ∈ items, ∀ {d' e}, SpelledAlike d d' → expr line d = .ok e → expr line d' = .ok e)
    (ih' : ∀ l inner, .array l inner ∈ items → ∀ d ∈ inner, ∀ {d' e}, SpelledAlike d d' → expr line d = .ok e →
      expr line d' = .ok e) : ExprForm line items' e := by
  cases hf with
  | arithmetic ho hl hr | logical ho hl hr | relational ho hl hr =>
    obtain _ | ⟨hhead, _ | ⟨hop, _ | ⟨hleft, _ | ⟨hright, _ | _⟩⟩⟩⟩ := ha
    rw [hhead.of_word (by simp [Text.Small])]
    constructor
    · exact operator_of_spelledAlike hop ho
    · exact ih _ (by simp) hleft hl
    · exact ih _ (by simp) hright hr
  | unary ho he =>
    obtain _ | ⟨hhead, _ | ⟨hop, _ | ⟨hoperand, _ | _⟩⟩⟩ := ha
    rw [hhead.of_word (by simp [Text.Small])]
    exact .unary (operator_of_spelledAlike hop ho) (ih _ (by simp) hoperand he)
  | call hc =>
    obtain _ | ⟨hhead, hoperands⟩ := ha
    rw [hhead.of_word (by simp [Text.Small])]
    exact .call (call_of_spelledAlike hoperands hc fun l inner hm => ih' l inner (List.mem_cons_of_mem _ hm))

theorem expr_of_spelledAlike {inherited : Int} {d d' : Datum} {e : Expr} (ha : SpelledAlike d d')
    (h : expr inherited d = .ok e) : expr inherited d' = .ok e := by
  induction d using Datum.forms_induction generalizing inherited d' e with
  | list start metadata items ih ih' =>
    obtain ⟨metadata', items', rfl, hmetadata, hitems⟩ := ha.of_list
    obtain ⟨line, hline, hf⟩ := exprForm_of_eq_ok h
    exact expr_of_form (lineOf_of_spelledAlike hmetadata hline)
      (exprForm_of_spelledAlike hitems hf (fun d hm _ _ => ih d hm) fun l inner hm d hd _ _ => ih' l inner hm d hd)
  | symbol l text =>
    obtain ⟨text', rfl, hnfc⟩ := ha.of_symbol
    rw [expr, word, hnfc] at h
    rwa [expr, word]
  | string l text => rwa [ha.of_string]
  | number l text => rwa [ha.of_number]
  | _ => rcases expr_cases h with ⟨_, _, h, _⟩ | ⟨_, _, h, _⟩ | ⟨_, _, h, _⟩ | ⟨_, _, _, _, h, _⟩ <;> cases h

/-! ### Statements -/

theorem declItem_of_spelledAlike {line : Int} {d d' : Datum} {item : DeclItem} (ha : SpelledAlike d d')
    (h : declItem line d = .ok item) : declItem line d' = .ok item := by
  rcases declItem_cases h with ⟨l, text, x, rfl, hx, rfl⟩ |
    ⟨start, metadata, l, target, value, line', x, e, rfl, hline, hx, he, rfl⟩
  · have hx' := ident_of_spelledAlike ha hx
    obtain ⟨text', rfl, -⟩ := ha.of_symbol
    exact bind_eq_ok_iff.2 ⟨x, hx', rfl⟩
  · obtain ⟨metadata', _, rfl, hmetadata, _ | ⟨hhead, _ | ⟨htarget, _ | ⟨hvalue, _ | _⟩⟩⟩⟩ := ha.of_list
    rw [hhead.of_word (by simp [Text.Small])]
    exact declItem_init (lineOf_of_spelledAlike hmetadata hline) (ident_of_spelledAlike htarget hx)
      (expr_of_spelledAlike hvalue he)

theorem stmtForm_of_spelledAlike {line : Int} {items items' : List Datum} {s : Stmt}
    (ha : List.Forall₂ SpelledAlike items items') (hf : StmtForm line items s)
    (ih : ∀ d ∈ items, ∀ {d' s}, SpelledAlike d d' → stmt line d = .ok s → stmt line d' = .ok s)
    (ih' : ∀ l inner, .array l inner ∈ items → ∀ d ∈ inner, ∀ {d' s}, SpelledAlike d d' → stmt line d = .ok s →
      stmt line d' = .ok s) : StmtForm line items' s := by
  -- the statements of a block are read from an array, one level deeper
  have block : ∀ {l inner d' body}, SpelledAlike (.array l inner) d' → .array l inner ∈ items →
      stmts line inner = .ok body → ∃ inner', d' = .array l inner' ∧ stmts line inner' = .ok body := by
    intro l inner d' body hd hm hb
    obtain ⟨inner', rfl, hinner⟩ := hd.of_array
    exact ⟨inner', rfl, stmts_eq_ok_iff.2 (forall₂_of_spelledAlike (stmts_eq_ok_iff.1 hb) hinner (ih' l inner hm))⟩
  cases hf with
  | declare ht hne hi =>
    obtain _ | ⟨hhead, _ | ⟨htype, hdata⟩⟩ := ha
    rw [hhead.of_word (by simp [Text.Small])]
    refine .declare (type_of_spelledAlike (fun t => isResult_of_isVariable) htype ht) ?_ ?_
    · rintro rfl
      cases hdata
      exact hne rfl
    · exact declItems_eq_ok_iff.2 (forall₂_of_spelledAlike (declItems_eq_ok_iff.1 hi) hdata
        fun _ _ _ _ => declItem_of_spelledAlike)
  | assign hx he =>
    obtain _ | ⟨hhead, _ | ⟨htarget, _ | ⟨hvalue, _ | _⟩⟩⟩ := ha
    rw [hhead.of_word (by simp [Text.Small])]
    exact .assign (ident_of_spelledAlike htarget hx) (expr_of_spelledAlike hvalue he)
  | increment ho hx =>
    obtain _ | ⟨hhead, _ | ⟨hop, _ | ⟨htarget, _ | _⟩⟩⟩ := ha
    rw [hhead.of_word (by simp [Text.Small])]
    exact .increment (operator_of_spelledAlike hop ho) (ident_of_spelledAlike htarget hx)
  | call hc =>
    obtain _ | ⟨hhead, hoperands⟩ := ha
    rw [hhead.of_word (by simp [Text.Small])]
    exact .call (call_of_spelledAlike hoperands hc fun _ _ _ _ _ _ _ => expr_of_spelledAlike)
  | ifThen hc hb | whileDo hc hb =>
    obtain _ | ⟨hhead, _ | ⟨hcond, _ | ⟨hbody, _ | _⟩⟩⟩ := ha
    obtain ⟨inner', rfl, hb⟩ := block hbody (by simp) hb
    rw [hhead.of_word (by simp [Text.Small])]
    constructor
    · exact expr_of_spelledAlike hcond hc
    · exact hb
  | ifElse hc hb ho =>
    obtain _ | ⟨hhead, _ | ⟨hcond, _ | ⟨hbody, _ | ⟨hother, _ | _⟩⟩⟩⟩ := ha
    obtain ⟨inner', rfl, hb⟩ := block hbody (by simp) hb
    obtain ⟨other', rfl, ho⟩ := block hother (by simp) ho
    rw [hhead.of_word (by simp [Text.Small])]
    exact .ifElse (expr_of_spelledAlike hcond hc) hb ho
  | forDo hi hc hs hb =>
    obtain _ | ⟨hhead, _ | ⟨hinit, _ | ⟨hcond, _ | ⟨hstep, _ | ⟨hbody, _ | _⟩⟩⟩⟩⟩ := ha
    obtain ⟨inner', rfl, hb⟩ := block hbody (by simp) hb
    rw [hhead.of_word (by simp [Text.Small])]
    exact .forDo (ih _ (by simp) hinit hi) (expr_of_spelledAlike hcond hc) (ih _ (by simp) hstep hs)
      hb
  | read hx =>
    obtain _ | ⟨hhead, _ | ⟨htarget, _ | _⟩⟩ := ha
    rw [hhead.of_word (by simp [Text.Small])]
    exact .read (ident_of_spelledAlike htarget hx)
  | print he =>
    obtain _ | ⟨hhead, _ | ⟨hvalue, _ | _⟩⟩ := ha
    rw [hhead.of_word (by simp [Text.Small])]
    exact .print (expr_of_spelledAlike hvalue he)
  | leave =>
    obtain _ | ⟨hhead, _ | _⟩ := ha
    rw [hhead.of_word (by simp [Text.Small])]
    exact .leave
  | result he =>
    obtain _ | ⟨hhead, _ | ⟨hvalue, _ | _⟩⟩ := ha
    rw [hhead.of_word (by simp [Text.Small])]
    exact .result (expr_of_spelledAlike hvalue he)

theorem stmt_of_spelledAlike {inherited : Int} {d d' : Datum} {s : Stmt} (ha : SpelledAlike d d')
    (h : stmt inherited d = .ok s) : stmt inherited d' = .ok s := by
  induction d using Datum.forms_induction generalizing inherited d' s with
  | list start metadata items ih ih' =>
    obtain ⟨metadata', items', rfl, hmetadata, hitems⟩ := ha.of_list
    obtain ⟨_, _, _, line, hd, hline, hf⟩ := stmt_cases h
    cases hd
    exact stmt_of_form (lineOf_of_spelledAlike hmetadata hline)
      (stmtForm_of_spelledAlike hitems hf (fun d hm _ _ => ih d hm) fun l inner hm d hd _ _ => ih' l inner hm d hd)
  | _ =>
    obtain ⟨_, _, _, _, hd, _⟩ := stmt_cases h
    cases hd

theorem block_of_spelledAlike {line : Int} {d d' : Datum} {ss : List Stmt} (ha : SpelledAlike d d')
    (h : block line d = .ok ss) : block line d' = .ok ss := by
  obtain ⟨l, items, rfl, hs⟩ := block_eq_ok_iff.1 h
  obtain ⟨items', rfl, hitems⟩ := ha.of_array
  exact block_eq_ok_iff.2 ⟨l, items', rfl, stmts_eq_ok_iff.2
    (forall₂_of_spelledAlike (stmts_eq_ok_iff.1 hs) hitems fun _ _ _ _ => stmt_of_spelledAlike)⟩

/-! ### Functions and programs -/

theorem param_of_spelledAlike {line : Int} {d d' : Datum} {p : Param} (ha : SpelledAlike d d')
    (h : param line d = .ok p) : param line d' = .ok p := by
  obtain ⟨start, metadata, l, t, target, line', ty, x, rfl, hline, ht, hx, rfl⟩ := param_cases h
  obtain ⟨metadata', _, rfl, hmetadata, _ | ⟨hhead, _ | ⟨htype, _ | ⟨htarget, _ | _⟩⟩⟩⟩ := ha.of_list
  rw [hhead.of_word (by simp [Text.Small])]
  exact param_of_parts (lineOf_of_spelledAlike hmetadata hline)
    (type_of_spelledAlike (fun t => isResult_of_isVariable) htype ht) (ident_of_spelledAlike htarget hx)

theorem params_of_spelledAlike {line : Int} {d d' : Datum} {ps : List Param} (ha : SpelledAlike d d')
    (h : params line d = .ok ps) : params line d' = .ok ps := by
  obtain ⟨l, items, rfl, hps⟩ := params_eq_ok_iff.1 h
  obtain ⟨items', rfl, hitems⟩ := ha.of_array
  exact params_eq_ok_iff.2 ⟨l, items', rfl, forall₂_of_spelledAlike hps hitems fun _ _ _ _ => param_of_spelledAlike⟩

/-- A function that gives no type for its result. -/
theorem function_of_parts' {inherited line : Int} {start l : Nat} {metadata : List (String × Datum)}
    {called ps body : Datum} {f : Function} (hl : lineOf start metadata inherited = .ok line) (hline : f.line = line)
    (hn : name .function called = .ok f.name) (hvoid : f.result = .void) (hp : params line ps = .ok f.params)
    (hb : block line body = .ok f.body) (hf : f.flaw = none) :
    function inherited (.list start metadata [.symbol l "func", called, ps, body]) = .ok f := by
  obtain ⟨line, name, result, params, body, flaw⟩ := f
  subst hline hf hvoid
  exact bind_eq_ok_iff.2 ⟨_, hl, bind_eq_ok_iff.2 ⟨_, hn, bind_eq_ok_iff.2 ⟨_, hp, bind_eq_ok_iff.2 ⟨_, hb, rfl⟩⟩⟩⟩

theorem function_of_spelledAlike {line : Int} {d d' : Datum} {f : Function} (ha : SpelledAlike d d')
    (h : function line d = .ok f) : function line d' = .ok f := by
  obtain ⟨start, metadata, l, called, between, ps, body, line', rfl, hline, hfline, hn, hres, hp, hb, hflaw⟩ :=
    function_cases h
  rcases hres with ⟨rfl, hvoid⟩ | ⟨t, rfl, ht⟩
  · obtain ⟨metadata', _, rfl, hmetadata, _ | ⟨hhead, _ | ⟨hcalled, _ | ⟨hps, _ | ⟨hbody, _ | _⟩⟩⟩⟩⟩ := ha.of_list
    rw [hhead.of_word (by simp [Text.Small])]
    exact function_of_parts' (lineOf_of_spelledAlike hmetadata hline) hfline (name_of_spelledAlike hcalled hn) hvoid
      (params_of_spelledAlike hps hp) (block_of_spelledAlike hbody hb) hflaw
  · obtain ⟨metadata', _, rfl, hmetadata,
      _ | ⟨hhead, _ | ⟨hcalled, _ | ⟨htype, _ | ⟨hps, _ | ⟨hbody, _ | _⟩⟩⟩⟩⟩⟩ := ha.of_list
    rw [hhead.of_word (by simp [Text.Small])]
    exact function_of_parts (lineOf_of_spelledAlike hmetadata hline) hfline (name_of_spelledAlike hcalled hn)
      (type_of_spelledAlike (fun _ => id) htype ht) (params_of_spelledAlike hps hp)
      (block_of_spelledAlike hbody hb) hflaw

theorem program_of_spelledAlike {d d' : Datum} {p : Program} (ha : SpelledAlike d d') (h : program d = .ok p) :
    program d' = .ok p := by
  obtain ⟨start, metadata, l, items, rfl, hline, hf⟩ := program_cases h
  obtain ⟨metadata', _, rfl, hmetadata, _ | ⟨hhead, hitems⟩⟩ := ha.of_list
  rw [hhead.of_word (by simp [Text.Small])]
  exact program_of_parts (lineOf_of_spelledAlike hmetadata hline)
    (forall₂_of_spelledAlike hf hitems fun _ _ _ _ => function_of_spelledAlike)

end Load

theorem Program.load_of_spelledAlike {text text' : List Char} {d d' : Datum} {p : Program}
    (hd : Datum.parse text = .ok d) (hd' : Datum.parse text' = .ok d') (ha : Datum.SpelledAlike d d')
    (h : Program.load text = .ok p) : Program.load text' = .ok p := by
  obtain ⟨_, hparse, hp⟩ := Program.load_eq_ok_iff.1 h
  cases hd.symm.trans hparse
  exact Program.load_eq_ok_iff.2 ⟨d', hd', Load.program_of_spelledAlike ha hp⟩

/-- How names are spelled is irrelevant. Two texts that hold the same datum but for the spelling of symbols are both
rejected, or hold the same program, with the same outcome of compilation. -/
theorem loading_ignores_spelling {text text' : List Char} {d d' : Datum} (hd : Datum.parse text = .ok d)
    (hd' : Datum.parse text' = .ok d') (ha : Datum.SpelledAlike d d') :
    (∃ error error', Program.load text = .error error ∧ Program.load text' = .error error') ∨
    ∃ p, Program.load text = .ok p ∧ Program.load text' = .ok p ∧
      ∀ align, compileText align text = compileText align text' := by
  cases h : Program.load text with
  | ok p =>
    have h' := Program.load_of_spelledAlike hd hd' ha h
    exact .inr ⟨p, rfl, h', fun align => by rw [compileText, compileText, h, h']⟩
  | error error =>
    cases h' : Program.load text' with
    | ok p =>
      -- a program of the second text would be one of the first
      rw [Program.load_of_spelledAlike hd' hd ha.symm h'] at h
      cases h
    | error error' => exact .inl ⟨error, error', rfl, rfl⟩

namespace Accents

/-- A program that declares a name with composed letters and uses it with combining marks. -/
def composed : List Char :=
  "(program (func \u00E1rea [] [(decl inteiro \u00FAtil) (print \u00FAtil)]))".toList

/-- The same program, with the names spelled the other way. -/
def combining : List Char :=
  "(program (func a\u0301rea [] [(decl inteiro \u00FAtil) (print u\u0301til)]))".toList

def datum (name declared used : String) : Datum :=
  .list 1 [] [.symbol 1 "program", .list 1 [] [.symbol 1 "func", .symbol 1 name, .array 1 [], .array 1 [
    .list 1 [] [.symbol 1 "decl", .symbol 1 "inteiro", .symbol 1 declared],
    .list 1 [] [.symbol 1 "print", .symbol 1 used]]]]

set_option maxRecDepth 4000 in
theorem parse_composed : Datum.parse composed = .ok (datum "\u00E1rea" "\u00FAtil" "\u00FAtil") := by
  apply of_literal (P := (Datum.parse · = _))
  cbv

set_option maxRecDepth 4000 in
theorem parse_combining : Datum.parse combining = .ok (datum "a\u0301rea" "\u00FAtil" "u\u0301til") := by
  apply of_literal (P := (Datum.parse · = _))
  cbv

theorem spelledAlike : Datum.SpelledAlike (datum "\u00E1rea" "\u00FAtil" "\u00FAtil")
    (datum "a\u0301rea" "\u00FAtil" "u\u0301til") := by
  have hname : Text.nfc "\u00E1rea" = Text.nfc "a\u0301rea" := by decide +kernel
  have hused : Text.nfc "\u00FAtil" = Text.nfc "u\u0301til" := by decide +kernel
  simp only [Datum.SpelledAlike, datum, Datum.composed, Datum.composedAll, Datum.composedEntries, hname, hused]

def program : Program where
  line := 1
  functions := [
    { line := 1, name := "\u00E1rea", result := .void, params := []
      body := [.declare 1 .integer [⟨⟨1, "\u00FAtil"⟩, none⟩], .print 1 (.var 1 "\u00FAtil")] }]

theorem load : Program.load composed = .ok program :=
  Program.load_eq_ok_iff.2 ⟨_, parse_composed, by rfl⟩

end Accents

theorem accents_load_alike :
    Program.load Accents.composed = .ok Accents.program ∧ Program.load Accents.combining = .ok Accents.program ∧
    ∀ align, compileText align Accents.composed = compileText align Accents.combining := by
  rcases loading_ignores_spelling Accents.parse_composed Accents.parse_combining Accents.spelledAlike with
    ⟨_, _, herror, _⟩ | ⟨p, hp, hp', hcompile⟩
  · cases Accents.load.symm.trans herror
  · obtain rfl : Accents.program = p := Except.ok.inj (Accents.load.symm.trans hp)
    exact ⟨hp, hp', hcompile⟩

end Arvore
