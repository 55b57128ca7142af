import Mathlib
import Arvore.Proofs.Program.Lines
import Arvore.Proofs.Reading.Spelling

/-!
# Programs are read back from their texts

The text that is written for a program can be loaded again, and gives the program back, on the lines that the text
carries (`Program.load_text`).
-/

namespace Arvore

open Datum (Reads forall₂_reads)
open Arvore.Tree (form bracketed lineText)

/-- The words that are read as what they were written for: symbols in normal form, strings without the character that
ends a text, and numbers. -/
def Lexicon.readable : Lexicon where
  name text := Token.IsSymbol text ∧ Text.nfc text = text
  string text := Token.nul ∉ text.toList
  number text := Token.Spells (.number text) 0 text.toList

/-! ### Heads -/

/-- The words that stand at the head of a form. -/
def heads : List String :=
  ["program", "func", "param", "decl", "init", "assign", "increment", "call", "if", "while", "for", "read", "print",
    "return", "binary", "logical", "relational", "unary"]

theorem reads_head {head : String} (h : head ∈ heads) : Reads head fun d => ∃ l, d = .symbol l head := by
  have hsymbol : ∀ head ∈ heads, Token.IsSymbol head := by decide +kernel
  exact Datum.reads_symbol (hsymbol head h)

/-! ### Lines -/

theorem Numeral.isDigits_toDigits (n : Nat) : isDigits (Nat.toDigits 10 n) = true := by
  have hdigit : ∀ c ∈ Nat.toDigits 10 n, c.isDigit = true :=
    fun c hc => Nat.isDigit_of_mem_toDigits (by decide) (by decide) hc
  simpa [isDigits, Nat.toDigits_ne_nil] using hdigit

theorem Decimal.digitsValue_toDigits (n : Nat) : digitsValue (Nat.toDigits 10 n) = n := by
  have h := Nat.ofDigitChars_ten_toDigits (n := n)
  rw [Nat.ofDigitChars_eq_foldl] at h
  simpa [digitsValue, Nat.mul_comm] using h

private theorem Decimal.toList_toString (n : Nat) : (toString n).toList = Nat.toDigits 10 n := by
  rw [Nat.toString_eq_ofList_toDigits, String.toList_ofList]

/-- The digits of a number do not begin with a sign. -/
theorem Decimal.takeSign_toDigits (n : Nat) : takeSign (Nat.toDigits 10 n) = (false, Nat.toDigits 10 n) := by
  have hdigit : ∀ c ∈ Nat.toDigits 10 n, c.isDigit = true :=
    fun c hc => Nat.isDigit_of_mem_toDigits (by decide) (by decide) hc
  unfold takeSign
  split
  · rename_i heq
    exact absurd (hdigit '-' (by simp [heq])) (by decide)
  · rename_i heq
    exact absurd (hdigit '+' (by simp [heq])) (by decide)
  · rfl

/-- An integer of 64 bits is read back from its digits. -/
theorem Numeral.integer?_toString {z : Int} (h : fits 64 z = true) : integer? (toString z) = some z := by
  cases z with
  | ofNat n =>
    have htext : (toString (Int.ofNat n)).toList = Nat.toDigits 10 n := Decimal.toList_toString n
    simp only [integer?, htext, Decimal.takeSign_toDigits, isDigits_toDigits, Decimal.digitsValue_toDigits, if_true,
      Bool.false_eq_true, if_false]
    exact if_pos h
  | negSucc n =>
    have htext : (toString (Int.negSucc n)).toList = '-' :: Nat.toDigits 10 (n + 1) := by
      rw [← Decimal.toList_toString]
      exact String.toList_append
    simp only [integer?, htext, Decimal.takeSign, isDigits_toDigits, Decimal.digitsValue_toDigits, if_true]
    exact if_pos h

/-- The items of a list with a line, and the line that it is loaded with. -/
theorem reads_lined {line : Int} (hl : IsLine line) {text : String} {P : Datum → Prop} {before texts : List String}
    {Ps Qs : List (Datum → Prop)} (hr : Reads text P) (hb : List.Forall₂ Reads before Ps)
    (h : List.Forall₂ Reads texts Qs) : Reads (form (text :: (before ++ lineText line :: texts)))
      fun d => ∃ start metadata ds es, d = .list start metadata (ds ++ es) ∧
        (∀ inherited, Load.lineOf start metadata inherited = .ok line) ∧
        List.Forall₂ (fun P d => P d) (P :: Ps) ds ∧ List.Forall₂ (fun P d => P d) Qs es := by
  obtain ⟨n, rfl⟩ := Int.eq_ofNat_of_zero_le (by have := hl.1; omega : 0 ≤ line)
  refine (Datum.reads_lined hr hb h).mono ?_
  rintro d ⟨l, m, ds, es, rfl, hds, hes⟩
  refine ⟨l, _, ds, es, rfl, fun inherited => ?_, hds, hes⟩
  have hn : Numeral.integer? (toString n) = some (n : Int) :=
    Numeral.integer?_toString (z := n) (Numeral.fits_iff.2 ⟨by omega, hl.2⟩)
  simp only [Load.lineOf, List.lookup_cons_self, hn, hl.1, if_true]

/-- The same with the head alone before the line. -/
theorem reads_headed {line : Int} (hl : IsLine line) {head : String} (hh : head ∈ heads) {texts : List String}
    {Ps : List (Datum → Prop)} (h : List.Forall₂ Reads texts Ps) : Reads (form (head :: lineText line :: texts))
      fun d => ∃ start metadata l ds, d = .list start metadata (.symbol l head :: ds) ∧
        (∀ inherited, Load.lineOf start metadata inherited = .ok line) ∧ List.Forall₂ (fun P d => P d) Ps ds := by
  refine (reads_lined hl (reads_head hh) List.Forall₂.nil h).mono ?_
  rintro d ⟨start, metadata, _, ds, rfl, hline, _ | ⟨⟨l, rfl⟩, _ | _⟩, hds⟩
  exact ⟨start, metadata, l, ds, rfl, hline, hds⟩

/-! ### Words -/

theorem reads_name {n : String} (h : Lexicon.readable.name n) :
    Reads n fun d => ∀ role, Load.name role d = .ok n := by
  refine (Datum.reads_symbol h.1).mono ?_
  rintro d ⟨l, rfl⟩ role
  exact Load.name_eq_ok_iff.2 ⟨l, n, rfl, h.2.symm⟩

theorem Ident.reads {x : Ident} (h : x.WellFormed .readable) :
    Reads x.name fun d => ∀ line, Load.ident line d = .ok (x.relined line) := by
  refine (Datum.reads_symbol h.name.1).mono ?_
  rintro d ⟨l, rfl⟩ line
  have hn := h.name.2
  exact Load.ident_eq_ok_iff.2 ⟨l, x.name, rfl, by rw [hn]; rfl, by rw [hn]; exact h.notTruth⟩

theorem Ty.reads {t : Ty} (allowed : Ty → Bool) (ht : Load.isResult t = true) (ha : allowed t = true) :
    Reads t.word fun d => Load.type allowed d = .ok t := by
  have hs : Token.IsSymbol t.word := by
    cases t with
    | function | other word => cases ht
    | _ => decide +kernel
  refine (Datum.reads_symbol hs).mono ?_
  rintro d ⟨l, rfl⟩
  exact Load.type_eq_ok_iff.2 ⟨l, t.word, rfl, (Ty.ofWord_word ht).symm, ha⟩

/-- Operators that are told apart by their symbols, which are written as they are. -/
theorem reads_operator {α : Type} {known : List α} {symbol : α → String} {op : α} (ho : op ∈ known)
    (hk : ∀ op ∈ known, known.find? (symbol · = symbol op) = some op ∧
      Text.quoted (symbol op) = (Datum.string 0 (symbol op)).render ∧ Token.nul ∉ (symbol op).toList) :
    Reads (Text.quoted (symbol op)) fun d => Load.operator known symbol d = .ok op := by
  obtain ⟨hfind, hquoted, hnul⟩ := hk op ho
  rw [hquoted]
  refine (Datum.reads_string hnul).mono ?_
  rintro d ⟨l, rfl⟩
  exact Load.operator_eq_ok_iff.2 ⟨l, symbol op, rfl, hfind⟩

section Parts

variable {α β : Type} {xs : List α} {text : α → String}

theorem forall₂_loaded {f : α → β} {R : Datum → β → Prop} {ds : List Datum}
    (h : List.Forall₂ (fun P d => P d) (xs.map fun x d => R d (f x)) ds) : List.Forall₂ R ds (xs.map f) := by
  rw [List.forall₂_map_left_iff] at h
  exact List.forall₂_map_right_iff.2 h.flip

/-- An array of parts that are each loaded from their texts. -/
theorem reads_all (f : α → β) (R : Datum → β → Prop) (h : ∀ x ∈ xs, Reads (text x) fun d => R d (f x)) :
    Reads (bracketed (xs.map text)) fun d => ∃ l ds, d = .array l ds ∧ List.Forall₂ R ds (xs.map f) := by
  refine (Datum.reads_bracketed (forall₂_reads h)).mono ?_
  rintro d ⟨l, ds, rfl, hds⟩
  exact ⟨l, ds, rfl, forall₂_loaded hds⟩

end Parts

/-! ### Expressions -/

theorem Load.checkNumber_of_representable {text : String} (h : Numeral.Representable text) (line : Nat) :
    checkNumber line text = .ok () := by
  obtain ⟨hliteral, hint, hreal⟩ := h
  rw [checkNumber]
  cases hi : Numeral.isIntegral text with
  | true =>
    obtain ⟨v, hv⟩ := hint hi
    simp [hliteral, hv]
  | false =>
    obtain ⟨v, hv⟩ := hreal hi
    simp [hliteral, hv]

/-- A call is loaded from its name and its arguments. -/
theorem reads_call {line : Int} {callee : Ident} {args : List Expr} (hl : IsLine line)
    (hc : callee.IsCallee .readable)
    (ha : ∀ e ∈ args, Reads e.text fun d => ∀ inherited, Load.expr inherited d = .ok (e.relined inherited)) :
    Reads (Expr.call line callee args).text fun d => ∃ start metadata l operands,
      d = .list start metadata (.symbol l "call" :: operands) ∧
      (∀ inherited, Load.lineOf start metadata inherited = .ok line) ∧
      Load.call start line operands = .ok (callee.relined line, args.map (Expr.relined line)) := by
  have hargs := reads_all (Expr.relined line) (fun d e => Load.expr line d = .ok e) fun e he =>
    (ha e he).mono fun d h => h line
  rw [Expr.text, Expr.texts_eq_map]
  refine (reads_headed hl (by simp [heads]) (.cons (reads_name hc.name) (.cons hargs .nil))).mono ?_
  rintro d ⟨start, metadata, l, _, rfl, hline, _ | ⟨hname, _ | ⟨⟨m, ds, rfl, hds⟩, _ | _⟩⟩⟩
  refine ⟨start, metadata, l, _, rfl, hline, ?_⟩
  exact Load.call_eq_ok_iff.2 ⟨_, hname _, rfl, .inr ⟨m, ds, rfl, Load.exprs_eq_ok_iff.2 hds⟩⟩

namespace Expr

theorem reads {e : Expr} (h : e.WellFormed .readable) :
    Reads e.text fun d => ∀ inherited, Load.expr inherited d = .ok (e.relined inherited) := by
  induction h with
  | number _ hw hr =>
    refine (Datum.reads_number hw).mono ?_
    rintro d ⟨l, rfl⟩ inherited
    rw [Load.expr, Load.checkNumber_of_representable hr]
    rfl
  | string _ hw =>
    refine (Datum.reads_string hw).mono ?_
    rintro d ⟨l, rfl⟩ inherited
    rw [Load.expr, relined]
  | boolean _ hw ht =>
    refine (Datum.reads_symbol hw.1).mono ?_
    rintro d ⟨l, rfl⟩ inherited
    simp [Load.expr, Load.word, relined, hw.2, ht]
  | var hx =>
    refine (Datum.reads_symbol hx.name.1).mono ?_
    rintro d ⟨l, rfl⟩ inherited
    have hn := hx.name.2
    have ht := hx.notTruth
    simp [Load.expr, Load.word, relined, hn, ht]
  | arithmetic _ ho _ _ iha ihb =>
    refine (Datum.reads_form (reads_head (by simp [heads]))
      (.cons (reads_operator ho (by decide +kernel)) (.cons iha (.cons ihb .nil)))).mono ?_
    rintro d ⟨l, ds, rfl, _ | ⟨⟨m, rfl⟩, _ | ⟨ho, _ | ⟨ha, _ | ⟨hb, _ | _⟩⟩⟩⟩⟩ inherited
    exact Load.expr_of_form rfl (.arithmetic ho (ha inherited) (hb inherited))
  | logical _ ho _ _ iha ihb =>
    refine (Datum.reads_form (reads_head (by simp [heads]))
      (.cons (reads_operator ho (by decide +kernel)) (.cons iha (.cons ihb .nil)))).mono ?_
    rintro d ⟨l, ds, rfl, _ | ⟨⟨m, rfl⟩, _ | ⟨ho, _ | ⟨ha, _ | ⟨hb, _ | _⟩⟩⟩⟩⟩ inherited
    exact Load.expr_of_form rfl (.logical ho (ha inherited) (hb inherited))
  | relational _ ho _ _ iha ihb =>
    refine (Datum.reads_form (reads_head (by simp [heads]))
      (.cons (reads_operator ho (by decide +kernel)) (.cons iha (.cons ihb .nil)))).mono ?_
    rintro d ⟨l, ds, rfl, _ | ⟨⟨m, rfl⟩, _ | ⟨ho, _ | ⟨ha, _ | ⟨hb, _ | _⟩⟩⟩⟩⟩ inherited
    exact Load.expr_of_form rfl (.relational ho (ha inherited) (hb inherited))
  | unary _ ho _ ih =>
    refine (Datum.reads_form (reads_head (by simp [heads]))
      (.cons (reads_operator ho (by decide +kernel)) (.cons ih .nil))).mono ?_
    rintro d ⟨l, ds, rfl, _ | ⟨⟨m, rfl⟩, _ | ⟨ho, _ | ⟨he, _ | _⟩⟩⟩⟩ inherited
    exact Load.expr_of_form rfl (.unary ho (he inherited))
  | call hl hc _ ih =>
    refine (reads_call hl hc ih).mono ?_
    rintro d ⟨start, metadata, l, operands, rfl, hline, hcall⟩ inherited
    rw [relined, relinedAll_eq_map]
    exact Load.expr_of_form (hline inherited) (.call hcall)

end Expr

/-! ### Statements -/

theorem DeclItem.reads {item : DeclItem} (h : item.WellFormed .readable) (line : Int) :
    Reads item.text fun d => Load.declItem line d = .ok (item.relined line) := by
  obtain ⟨x, init⟩ := item
  cases init with
  | none =>
    refine (Datum.reads_symbol h.target.name.1).mono ?_
    rintro d ⟨l, rfl⟩
    have hn := h.target.name.2
    have hx : Load.ident line (.symbol l x.name) = .ok (x.relined line) :=
      Load.ident_eq_ok_iff.2 ⟨l, x.name, rfl, by rw [hn]; rfl, by rw [hn]; exact h.target.notTruth⟩
    exact bind_eq_ok_iff.2 ⟨_, hx, rfl⟩
  | some e =>
    refine (Datum.reads_form (reads_head (by simp [heads]))
      (.cons (Ident.reads h.target) (.cons (Expr.reads (h.init e rfl)) .nil))).mono ?_
    rintro d ⟨l, ds, rfl, _ | ⟨⟨m, rfl⟩, _ | ⟨hx, _ | ⟨he, _ | _⟩⟩⟩⟩
    exact Load.declItem_init rfl (hx line) (he line)

namespace Stmt

theorem reads_block {body : List Stmt}
    (h : ∀ s ∈ body, Reads s.text fun d => ∀ inherited, Load.stmt inherited d = .ok s.relined) :
    Reads (bracketed (body.map text)) fun d => ∃ l ds, d = .array l ds ∧
      ∀ line, Load.stmts line ds = .ok (body.map relined) := by
  refine (reads_all relined (fun d s => ∀ inherited, Load.stmt inherited d = .ok s) h).mono ?_
  rintro d ⟨l, ds, rfl, hds⟩
  exact ⟨l, ds, rfl, fun line => Load.stmts_eq_ok_iff.2 (hds.imp fun d s h => h line)⟩

theorem reads {s : Stmt} (h : s.WellFormed .readable) :
    Reads s.text fun d => ∀ inherited, Load.stmt inherited d = .ok s.relined := by
  induction h with
  | @declare line type items hl ht hne hi =>
    have htype := Ty.reads Ty.isVariable (Ty.isResult_of_isVariable ht) ht
    have hitems := forall₂_reads fun item hm => DeclItem.reads (hi item hm) line
    refine (reads_lined hl (reads_head (by simp [heads])) (.cons htype .nil) hitems).mono ?_
    rintro d ⟨start, metadata, _, ds, rfl, hline, _ | ⟨⟨l, rfl⟩, _ | ⟨ht, _ | _⟩⟩, hds⟩ inherited
    have hloaded : List.Forall₂ (fun d item => Load.declItem line d = .ok item) ds
        (items.map (DeclItem.relined line)) := forall₂_loaded hds
    have hne' : ds ≠ [] := by
      rintro rfl
      cases items with
      | nil => exact hne rfl
      | cons => cases hloaded
    exact Load.stmt_of_form (hline inherited) (.declare ht hne' (Load.declItems_eq_ok_iff.2 hloaded))
  | assign hl hx he =>
    refine (reads_headed hl (by simp [heads]) (.cons (Ident.reads hx) (.cons (Expr.reads he) .nil))).mono ?_
    rintro d ⟨start, metadata, l, _, rfl, hline, _ | ⟨hx, _ | ⟨he, _ | _⟩⟩⟩ inherited
    exact Load.stmt_of_form (hline inherited) (.assign (hx _) (he _))
  | increment hl ho hx =>
    refine (reads_headed hl (by simp [heads]) (.cons (reads_operator ho (by decide +kernel))
      (.cons (Ident.reads hx) .nil))).mono ?_
    rintro d ⟨start, metadata, l, _, rfl, hline, _ | ⟨ho, _ | ⟨hx, _ | _⟩⟩⟩ inherited
    exact Load.stmt_of_form (hline inherited) (.increment ho (hx _))
  | call hl hc ha =>
    refine (reads_call hl hc fun e he => Expr.reads (ha e he)).mono ?_
    rintro d ⟨start, metadata, l, operands, rfl, hline, hcall⟩ inherited
    exact Load.stmt_of_form (hline inherited) (.call hcall)
  | ifThen hl hc _ ih =>
    rw [text, texts_eq_map]
    refine (reads_headed hl (by simp [heads]) (.cons (Expr.reads hc) (.cons (reads_block ih) .nil))).mono ?_
    rintro d ⟨start, metadata, l, _, rfl, hline, _ | ⟨hc, _ | ⟨⟨m, ds, rfl, hb⟩, _ | _⟩⟩⟩ inherited
    rw [relined, relinedAll_eq_map]
    exact Load.stmt_of_form (hline inherited) (.ifThen (hc _) (hb _))
  | ifElse hl hc _ _ ihb iho =>
    rw [text, texts_eq_map, texts_eq_map]
    refine (reads_headed hl (by simp [heads])
      (.cons (Expr.reads hc) (.cons (reads_block ihb) (.cons (reads_block iho) .nil)))).mono ?_
    rintro d ⟨start, metadata, l, _, rfl, hline,
      _ | ⟨hc, _ | ⟨⟨m, ds, rfl, hb⟩, _ | ⟨⟨n, es, rfl, ho⟩, _ | _⟩⟩⟩⟩ inherited
    rw [relined, relinedAll_eq_map, relinedAll_eq_map]
    exact Load.stmt_of_form (hline inherited) (.ifElse (hc _) (hb _) (ho _))
  | whileDo hl hc _ ih =>
    rw [text, texts_eq_map]
    refine (reads_headed hl (by simp [heads]) (.cons (Expr.reads hc) (.cons (reads_block ih) .nil))).mono ?_
    rintro d ⟨start, metadata, l, _, rfl, hline, _ | ⟨hc, _ | ⟨⟨m, ds, rfl, hb⟩, _ | _⟩⟩⟩ inherited
    rw [relined, relinedAll_eq_map]
    exact Load.stmt_of_form (hline inherited) (.whileDo (hc _) (hb _))
  | forDo hl _ hc _ _ ihi ihs ih =>
    rw [text, texts_eq_map]
    refine (reads_headed hl (by simp [heads])
      (.cons ihi (.cons (Expr.reads hc) (.cons ihs (.cons (reads_block ih) .nil))))).mono ?_
    rintro d ⟨start, metadata, l, _, rfl, hline,
      _ | ⟨hi, _ | ⟨hc, _ | ⟨hs, _ | ⟨⟨m, ds, rfl, hb⟩, _ | _⟩⟩⟩⟩⟩ inherited
    rw [relined, relinedAll_eq_map]
    exact Load.stmt_of_form (hline inherited) (.forDo (hi _) (hc _) (hs _) (hb _))
  | read hl hx =>
    refine (reads_headed hl (by simp [heads]) (.cons (Ident.reads hx) .nil)).mono ?_
    rintro d ⟨start, metadata, l, _, rfl, hline, _ | ⟨hx, _ | _⟩⟩ inherited
    exact Load.stmt_of_form (hline inherited) (.read (hx _))
  | print hl he =>
    refine (reads_headed hl (by simp [heads]) (.cons (Expr.reads he) .nil)).mono ?_
    rintro d ⟨start, metadata, l, _, rfl, hline, _ | ⟨he, _ | _⟩⟩ inherited
    exact Load.stmt_of_form (hline inherited) (.print (he _))
  | @ret line value hl he =>
    cases value with
    | none =>
      refine (reads_headed hl (by simp [heads]) .nil).mono ?_
      rintro d ⟨start, metadata, l, _, rfl, hline, _ | _⟩ inherited
      exact Load.stmt_of_form (hline inherited) .leave
    | some e =>
      refine (reads_headed hl (by simp [heads]) (.cons (Expr.reads (he e rfl)) .nil)).mono ?_
      rintro d ⟨start, metadata, l, _, rfl, hline, _ | ⟨he, _ | _⟩⟩ inherited
      exact Load.stmt_of_form (hline inherited) (.result (he _))

end Stmt

/-! ### Programs -/

theorem Param.reads {p : Param} (h : p.WellFormed .readable) (line : Int) :
    Reads p.text fun d => Load.param line d = .ok (p.relined line) := by
  have htype := Ty.reads Ty.isVariable (Ty.isResult_of_isVariable h.type) h.type
  refine (Datum.reads_form (reads_head (by simp [heads]))
    (.cons htype (.cons (Ident.reads h.target) .nil))).mono ?_
  rintro d ⟨l, ds, rfl, _ | ⟨⟨m, rfl⟩, _ | ⟨ht, _ | ⟨hx, _ | _⟩⟩⟩⟩
  exact Load.param_of_parts rfl ht (hx line)

theorem Function.reads {f : Function} (h : f.WellFormed .readable) :
    Reads f.text fun d => ∀ inherited, Load.function inherited d = .ok f.relined := by
  have htype := Ty.reads Load.isResult h.result h.result
  have hparams := reads_all (Param.relined f.line) (fun d p => Load.param f.line d = .ok p) fun p hp =>
    Param.reads (h.params p hp) f.line
  have hbody := Stmt.reads_block fun s hs => Stmt.reads (h.body s hs)
  refine (reads_lined h.line (reads_head (by simp [heads])) (.cons (reads_name h.name) (.cons htype .nil))
    (.cons hparams (.cons hbody .nil))).mono ?_
  rintro d ⟨start, metadata, _, _, rfl, hline, _ | ⟨⟨l, rfl⟩, _ | ⟨hn, _ | ⟨ht, _ | _⟩⟩⟩,
    _ | ⟨⟨m, ps, rfl, hp⟩, _ | ⟨⟨n, body, rfl, hb⟩, _ | _⟩⟩⟩ inherited
  exact Load.function_of_parts (hline inherited) rfl (hn _) ht (Load.params_eq_ok_iff.2 ⟨m, ps, rfl, hp⟩)
    (Load.block_eq_ok_iff.2 ⟨n, body, rfl, hb _⟩) h.flaw

theorem Program.reads {p : Program} (h : p.WellFormed .readable) :
    Reads p.text fun d => Load.program d = .ok p.relined := by
  have hgap : Datum.IsGap ['\n', ' ', ' '] := ⟨by simp, by simp⟩
  have htext : p.text.toList = '(' :: ("program".toList ++ Datum.spaced ['\n', ' ', ' ']
      (p.functions.map Function.text) ++ [')']) := by
    simp [Program.text, Datum.spaced, String.toList_join, List.flatMap_map]
  have hfunctions := forall₂_reads fun f hf => Function.reads (h.functions f hf)
  refine (Datum.reads_list hgap htext (reads_head (by simp [heads])) hfunctions).mono ?_
  rintro d ⟨l, _, rfl, _ | ⟨⟨m, rfl⟩, hds⟩⟩
  have hloaded := forall₂_loaded (f := Function.relined) (R := fun d f => ∀ i, Load.function i d = .ok f) hds
  exact Load.program_of_parts rfl (hloaded.imp fun d f h => h 1)

/-- A program that can be written is loaded from its text, on the lines that the text carries. -/
theorem Program.load_text {p : Program} (h : p.WellFormed .readable) :
    Program.load p.text.toList = .ok p.relined :=
  Program.load_eq_ok_iff.2 (Program.reads h).parse

/-! ### Texts -/

namespace Token

/-- The normal form of a symbol is a symbol again, and normal. -/
def Normalizes (text : String) : Prop := IsSymbol (Text.nfc text) ∧ Text.nfc (Text.nfc text) = Text.nfc text

instance : DecidablePred Normalizes := fun _ => inferInstanceAs (Decidable (_ ∧ _))

/-- The words of a text can be read back, if this is so for its symbols. -/
theorem spelled_of_normalizes {text : List Char} (hn : ∀ x ∈ symbols text, Normalizes x) :
    ∀ t ∈ (scan 1 text).tokens, t.token.Spelled .readable := by
  rintro ⟨line, t⟩ ht
  have hlexed := scan_lexed 1 text _ ht
  cases t with
  | symbol x => exact hn x (List.mem_filterMap.2 ⟨_, ht, rfl⟩)
  | string | number => exact hlexed
  | _ => trivial

end Token

/-- Writing a program that was loaded, and loading what was written, loses nothing but lines that are not written. The
text of the program can be loaded, as a program with the same tree up to such lines, and its text is the same. The
normal forms of the symbols in the first text have to be symbols and normal. -/
theorem loaded_program_reloads {text : List Char} {p : Program} (h : Program.load text = .ok p)
    (hn : ∀ x ∈ Token.symbols text, Token.Normalizes x) :
    ∃ s q, p.toTree.render = .ok s ∧ Program.load s.toList = .ok q ∧ q.toTree.carried = p.toTree.carried ∧
      q.toTree.render = .ok s := by
  obtain ⟨d, hd, hp⟩ := Program.load_eq_ok_iff.1 h
  have hw := Load.program_wellFormed (Datum.spelled_of_parse (Token.spelled_of_normalizes hn) hd) hp
  have hq := Program.load_text hw
  refine ⟨p.text, p.relined, Program.render_toTree hw, hq, p.carried_relined, ?_⟩
  rw [Program.render_toTree (Program.wellFormed_of_load hq), p.text_relined]

/-- A program with an accent that is written as a mark, with two names in one declaration and a string with a quote and
a line end. -/
def accented : List Char :=
  "(program (func principal [] [(decl ^\x7bline: 2\x7d inteiro n (init u\u0301til -3))
    (if verdadeiro [(print \"a\\\"b\\n\")] [(return)])]))".toList

theorem accented_program_reloads : ∃ p s q, Program.load accented = .ok p ∧ p.toTree.render = .ok s ∧
    Program.load s.toList = .ok q ∧ q.toTree.carried = p.toTree.carried ∧ q.toTree.render = .ok s := by
  obtain ⟨p, hp, -⟩ : ∃ p, Program.load accented = .ok p ∧ p.line = 1 := by
    apply exists_of_literal
    decide +kernel
  have hsymbols : ∀ x ∈ Token.symbols accented, Token.Normalizes x := by
    apply of_literal (P := fun text => ∀ x ∈ Token.symbols text, Token.Normalizes x)
    decide +kernel
  obtain ⟨s, q, h⟩ := loaded_program_reloads hp hsymbols
  exact ⟨p, s, q, hp, h⟩

end Arvore
