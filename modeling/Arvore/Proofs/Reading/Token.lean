import Mathlib
import Arvore.Datum.Printer
import Arvore.Datum.Token

/-!
# The characters of a token

A symbol or a number ends before the first character that cannot belong to it. So the characters of a token are read
as this token again wherever a delimiter follows (`Token.Spells`). This holds of symbols (`IsSymbol.spells`), of every
number that was itself read from a text (`scan_lexed`), of natural numbers (`spells_natural`), and of strings, once
their quotes and backslashes are escaped (`spells_stringText`).
-/

namespace Arvore.Token

/-! ### Delimiters -/

/-- Characters with which neither a symbol nor a number goes on. -/
def isDelimiter (c : Char) : Bool :=
  c = ' ' || c = '\n' || c = ')' || c = ']' || c = ':' || c = ',' || c = '\x7d'

/-- A text that is empty or starts with a delimiter. -/
def Delimits (rest : List Char) : Prop := ∀ c ∈ rest.head?, isDelimiter c = true

theorem delimits_cons {c : Char} {rest : List Char} (h : isDelimiter c = true) : Delimits (c :: rest) := by
  simpa [Delimits] using h

theorem isSymbolChar_of_isDelimiter {c : Char} (h : isDelimiter c = true) : isSymbolChar c = false := by
  simp only [isDelimiter, Bool.or_eq_true, decide_eq_true_eq, or_assoc] at h
  rcases h with rfl | rfl | rfl | rfl | rfl | rfl | rfl <;> decide +kernel

theorem isDecimalDigit_of_isDelimiter {c : Char} (h : isDelimiter c = true) : Text.isDecimalDigit c = false := by
  have hs := isSymbolChar_of_isDelimiter h
  simp only [isSymbolChar, Bool.or_eq_false_iff] at hs
  exact hs.1.2

/-- None of these characters goes on with a number. -/
theorem numeric_of_isDelimiter {c : Char} (h : isDelimiter c = true) :
    c ≠ '.' ∧ c ≠ 'e' ∧ c ≠ 'E' ∧ isSign c = false := by
  simp only [isDelimiter, Bool.or_eq_true, decide_eq_true_eq, or_assoc] at h
  rcases h with rfl | rfl | rfl | rfl | rfl | rfl | rfl <;> decide

/-- The longest run of characters of one sort ends before a character of another. -/
theorem takeWhile_append_eq {p : Char → Bool} {run rest : List Char} (h : ∀ c ∈ run, p c = true)
    (hr : ∀ c ∈ rest.head?, p c = false) : (run ++ rest).takeWhile p = run := by
  rw [List.takeWhile_append_of_pos h]
  cases rest with
  | nil => simp
  | cons c rest => simp [hr c (by simp)]

theorem dropWhile_append_eq {p : Char → Bool} {run rest : List Char} (h : ∀ c ∈ run, p c = true)
    (hr : ∀ c ∈ rest.head?, p c = false) : (run ++ rest).dropWhile p = rest := by
  rw [List.dropWhile_append_of_pos h]
  cases rest with
  | nil => simp
  | cons c rest => simp [hr c (by simp)]

/-- The characters of a token: they are read as this token, with so many line ends inside, wherever a delimiter
follows. -/
inductive Spells (t : Token) (ends : Nat) : List Char → Prop
  | intro {c : Char} {body : List Char} (hnul : c ≠ nul) (hblank : Text.isBlank c = false) (hcomment : c ≠ ';')
      (hnext : ∀ rest, Delimits rest → next c (body ++ rest) = .token t ends rest) : Spells t ends (c :: body)

/-! ### Numbers -/

/-- What follows the digits of a number: nothing that they would go on with. -/
def EndsDigits (rest : List Char) : Prop := ∀ c ∈ rest.head?, Text.isDecimalDigit c = false

theorem Delimits.endsDigits {rest : List Char} (h : Delimits rest) : EndsDigits rest :=
  fun c hc => isDecimalDigit_of_isDelimiter (h c hc)

theorem mem_takeDigits (text : List Char) : ∀ c ∈ text.takeWhile Text.isDecimalDigit, Text.isDecimalDigit c = true :=
  fun _ hc => List.mem_takeWhile_imp hc

theorem sign_append (text : List Char) {rest : List Char} (hr : ∀ c ∈ rest.head?, isSign c = false) :
    sign ((sign text).1 ++ rest) = ((sign text).1, rest) := by
  have hnone : sign rest = ([], rest) := by
    cases rest with
    | nil => rfl
    | cons c rest => simp [sign, hr c (by simp)]
  cases text with
  | nil => exact hnone
  | cons c text =>
    by_cases hc : isSign c = true
    · simp [sign, hc]
    · simpa [sign, hc] using hnone

/-- The signs, the point and the letters inside a number are no digits. -/
theorem isDecimalDigit_mark {c : Char} (h : c ∈ ['+', '-', '.', 'e', 'E']) : Text.isDecimalDigit c = false := by
  simp only [List.mem_cons, List.not_mem_nil, or_false] at h
  rcases h with rfl | rfl | rfl | rfl | rfl <;> decide +kernel

theorem isSign_of_isDecimalDigit {c : Char} (h : Text.isDecimalDigit c = true) : isSign c = false := by
  by_contra hc
  have hmark : c ∈ ['+', '-', '.', 'e', 'E'] := by
    simp only [isSign, Bool.not_eq_false, Bool.or_eq_true, decide_eq_true_eq] at hc
    rcases hc with rfl | rfl <;> simp
  rw [isDecimalDigit_mark hmark] at h
  cases h

theorem exponent_append (text : List Char) {rest : List Char} (hr : Delimits rest) :
    exponent ((exponent text).1 ++ rest) = ((exponent text).1, rest) := by
  have hnone : exponent rest = ([], rest) := by
    cases rest with
    | nil => rfl
    | cons c rest =>
      have hc := numeric_of_isDelimiter (hr c (by simp))
      simp [exponent, hc.2.1, hc.2.2.1]
  cases text with
  | nil => exact hnone
  | cons c text =>
    by_cases hc : (c = 'e' || c = 'E') = true
    · have hdigits := mem_takeDigits (sign text).2
      -- no sign follows the one that was taken: a digit is none, nor is a delimiter
      have hs : ∀ d ∈ ((sign text).2.takeWhile Text.isDecimalDigit ++ rest).head?, isSign d = false := by
        intro d hd
        rw [List.head?_append, Option.mem_def, Option.or_eq_some_iff] at hd
        rcases hd with hd | ⟨-, hd⟩
        · exact isSign_of_isDecimalDigit (hdigits d (List.mem_of_mem_head? hd))
        · exact (numeric_of_isDelimiter (hr d hd)).2.2.2
      simp only [exponent, hc, if_true, List.cons_append, List.append_assoc, sign_append text hs,
        takeWhile_append_eq hdigits hr.endsDigits, dropWhile_append_eq hdigits hr.endsDigits]
    · simpa [exponent, hc] using hnone

/-- The exponent starts with its letter. -/
theorem head_exponent (text : List Char) {rest : List Char} (hr : Delimits rest) :
    ∀ c ∈ ((exponent text).1 ++ rest).head?, Text.isDecimalDigit c = false ∧ c ≠ '.' := by
  have hrest : ∀ c ∈ rest.head?, Text.isDecimalDigit c = false ∧ c ≠ '.' :=
    fun c hc => ⟨hr.endsDigits c hc, (numeric_of_isDelimiter (hr c hc)).1⟩
  cases text with
  | nil => exact hrest
  | cons e text =>
    by_cases he : (e = 'e' || e = 'E') = true
    · intro c hc
      simp only [exponent, he, if_true, List.cons_append, List.head?_cons, Option.mem_some_iff] at hc
      subst hc
      simp only [Bool.or_eq_true, decide_eq_true_eq] at he
      rcases he with rfl | rfl <;> exact ⟨isDecimalDigit_mark (by simp), by decide⟩
    · simpa [exponent, he] using hrest

theorem fraction_append (text : List Char) {rest : List Char}
    (hr : ∀ c ∈ rest.head?, Text.isDecimalDigit c = false ∧ c ≠ '.') :
    fraction ((fraction text).1 ++ rest) = ((fraction text).1, rest) ∧ EndsDigits ((fraction text).1 ++ rest) := by
  have hdigits : EndsDigits rest := fun c hc => (hr c hc).1
  have hnone : fraction rest = ([], rest) ∧ EndsDigits rest := by
    refine ⟨?_, hdigits⟩
    cases rest with
    | nil => rfl
    | cons c rest =>
      rw [fraction.eq_def]
      split
      · exact absurd rfl (hr '.' (by simp_all)).2
      · rfl
  rw [fraction.eq_def text]
  split
  · split
    · rename_i d rest' hd
      have hrun := mem_takeDigits rest'
      refine ⟨?_, fun c hc => ?_⟩
      · simp [fraction, hd, takeWhile_append_eq hrun hdigits, dropWhile_append_eq hrun hdigits]
      · simp only [List.cons_append, List.head?_cons, Option.mem_some_iff] at hc
        subst hc
        exact isDecimalDigit_mark (by simp)
    · exact hnone
  · exact hnone

/-- The characters of a number behind the first one are read again. -/
theorem numberText_append (c : Char) (text : List Char) {rest : List Char} (hr : Delimits rest) :
    numberText c ((numberText c text).1.tail ++ rest) = ((numberText c text).1, rest) := by
  have hwhole := mem_takeDigits text
  generalize hp : (fraction (text.dropWhile Text.isDecimalDigit)).2 = behind
  have he := exponent_append behind hr
  obtain ⟨hf, hd⟩ := fraction_append (text.dropWhile Text.isDecimalDigit) (head_exponent behind hr)
  simp only [numberText, List.cons_append, List.tail_cons, List.append_assoc, hp,
    takeWhile_append_eq hwhole hd, dropWhile_append_eq hwhole hd, hf, he]

theorem startsNumber_append {c : Char} {text : List Char} (h : startsNumber c text = true) (rest : List Char) :
    startsNumber c ((numberText c text).1.tail ++ rest) = true := by
  by_cases hc : Text.isDecimalDigit c = true
  · simp [startsNumber, hc]
  · cases text with
    | nil => simp [startsNumber, hc] at h
    | cons d text =>
      have hd : isSign c = true ∧ Text.isDecimalDigit d = true := by simpa [startsNumber, hc] using h
      simp [startsNumber, numberText, hd.1, hd.2]

/-- A number that was read is read again. -/
theorem spells_numberText {c : Char} {text : List Char} (hnul : c ≠ nul) (hblank : Text.isBlank c = false)
    (hcomment : c ≠ ';') (hmark : punctuation? c = none) (hquote : c ≠ '"') (h : startsNumber c text = true) :
    Spells (.number (String.ofList (numberText c text).1)) 0 (numberText c text).1 := by
  have hcons : (numberText c text).1 = c :: (numberText c text).1.tail := rfl
  rw [hcons]
  refine .intro hnul hblank hcomment fun rest hr => ?_
  simp [next, hmark, hquote, startsNumber_append h rest, numberText_append c text hr, ← hcons]

theorem isDecimalDigit_of_isDigit {c : Char} (h : c.isDigit = true) : Text.isDecimalDigit c = true := by
  simp only [Char.isDigit, Bool.and_eq_true, decide_eq_true_eq, UInt32.le_iff_toNat_le] at h
  have hc : 0x30 ≤ c.toNat ∧ c.toNat ≤ 0x39 := h
  simp only [Text.isDecimalDigit, Text.decimalDigitRanges, Text.Ranges.contains]
  simp [hc.2, Nat.not_lt.2 hc.1]

/-- No digit is a mark of another sort. -/
theorem plain_of_isDigit {c : Char} (h : c.isDigit = true) :
    c ≠ nul ∧ Text.isBlank c = false ∧ c ≠ ';' ∧ punctuation? c = none ∧ c ≠ '"' := by
  obtain ⟨n, hn, rfl⟩ : ∃ n < 10, c = Char.ofNat (0x30 + n) := by
    simp only [Char.isDigit, Bool.and_eq_true, decide_eq_true_eq, UInt32.le_iff_toNat_le] at h
    have hc : 0x30 ≤ c.toNat ∧ c.toNat ≤ 0x39 := h
    exact ⟨c.toNat - 0x30, by omega, by rw [Nat.add_sub_cancel' hc.1, Char.ofNat_toNat]⟩
  revert n
  decide +kernel

/-- Natural numbers are read back. -/
theorem spells_natural (n : Nat) : Spells (.number (toString n)) 0 (toString n).toList := by
  rw [Nat.toString_eq_ofList_toDigits, String.toList_ofList]
  obtain ⟨c, body, hcons⟩ := List.exists_cons_of_ne_nil (Nat.toDigits_ne_nil (n := n) (b := 10))
  have hdigit : ∀ d ∈ Nat.toDigits 10 n, d.isDigit = true :=
    fun d hd => Nat.isDigit_of_mem_toDigits (by decide) (by decide) hd
  rw [hcons] at hdigit ⊢
  rw [List.forall_mem_cons] at hdigit
  have hwhole : numberText c body = (c :: body, []) := by
    have htake : body.takeWhile Text.isDecimalDigit = body :=
      List.takeWhile_eq_self_iff.2 fun d hd => isDecimalDigit_of_isDigit (hdigit.2 d hd)
    have hdrop : body.dropWhile Text.isDecimalDigit = [] :=
      List.dropWhile_eq_nil_iff.2 fun d hd => isDecimalDigit_of_isDigit (hdigit.2 d hd)
    simp [numberText, htake, hdrop, fraction, exponent]
  obtain ⟨hnul, hblank, hcomment, hmark, hquote⟩ := plain_of_isDigit hdigit.1
  have hstart : startsNumber c body = true := by simp [startsNumber, isDecimalDigit_of_isDigit hdigit.1]
  simpa [hwhole] using spells_numberText hnul hblank hcomment hmark hquote hstart

/-! ### Strings -/

private theorem stringBody_quote (rest : List Char) : stringBody ('"' :: rest) = .closed [] 0 rest := by
  rw [stringBody.eq_def]
  rfl

private theorem stringBody_escape {e c : Char} (h : unescape? e = some c) (rest : List Char) :
    stringBody ('\\' :: e :: rest) = (stringBody rest).cons c 0 := by
  rw [stringBody.eq_def]
  simp [show '\\' ≠ nul by decide, h]

private theorem stringBody_plain {c : Char} (hq : c ≠ '"') (hn : c ≠ nul) (hb : c ≠ '\\') (rest : List Char) :
    stringBody (c :: rest) = (stringBody rest).cons c (lineEnd c) := by
  rw [stringBody.eq_def]
  simp [hq, hn, hb]

/-- A text is read back from what is written between quotes, unless it holds the character that ends a file. -/
theorem stringBody_escaped {text : List Char} (h : nul ∉ text) (rest : List Char) :
    stringBody (text.flatMap Datum.escapeChar ++ '"' :: rest) = .closed text (text.map lineEnd).sum rest := by
  induction text with
  | nil => exact stringBody_quote rest
  | cons c text ih =>
    rw [List.mem_cons, not_or] at h
    rw [List.flatMap_cons, List.append_assoc, Datum.escapeChar, List.map_cons, List.sum_cons]
    by_cases hc : c = '\\' ∨ c = '"'
    · have hescape : unescape? c = some c ∧ lineEnd c = 0 := by rcases hc with rfl | rfl <;> decide
      rw [if_pos (by simpa using hc), List.cons_append, List.cons_append, List.nil_append,
        stringBody_escape hescape.1, ih h.2, hescape.2]
      rfl
    · rw [if_neg (by simpa using hc), List.singleton_append]
      rw [not_or] at hc
      rw [stringBody_plain hc.2 (Ne.symm h.1) hc.1, ih h.2]
      rfl

theorem spells_stringText {text : String} (h : nul ∉ text.toList) :
    Spells (.string text) (text.toList.map lineEnd).sum (Datum.stringText text.toList) := by
  refine .intro (by decide) (by decide +kernel) (by decide) fun rest _ => ?_
  have hmark : punctuation? '"' = none := rfl
  simp [next, hmark, stringBody_escaped h rest]

/-- A string that was read holds no character that ends a file. -/
theorem nul_not_mem_of_stringBody {text value rest : List Char} {ends : Nat}
    (h : stringBody text = .closed value ends rest) : nul ∉ value := by
  fun_induction stringBody text generalizing value ends rest with
  | case1 | case3 | case4 | case6 => cases h
  | case2 =>
    cases h
    simp
  | case5 e text c hc _ _ ih =>
    have hn : c ≠ nul := by
      intro hn
      subst hn
      unfold unescape? at hc
      split at hc <;> simp [nul] at hc
    cases hb : stringBody text with
    | failed => rw [hb] at h; cases h
    | closed =>
      rw [hb] at h
      cases h
      simp [Ne.symm hn, ih hb]
  | case7 c text _ hn _ ih =>
    cases hb : stringBody text with
    | failed => rw [hb] at h; cases h
    | closed =>
      rw [hb] at h
      cases h
      simp [Ne.symm hn, ih hb]

/-! ### Symbols -/

/-- The text of a symbol. -/
def symbol? : Token → Option String
  | symbol text => some text
  | _ => none

/-- The symbols of a text. -/
def symbols (text : List Char) : List String := (scan 1 text).tokens.filterMap (·.token.symbol?)

/-- What stands where a symbol is read. -/
theorem next_symbol {c : Char} {text rest : List Char} {x : String} {ends : Nat}
    (h : next c text = .token (.symbol x) ends rest) :
    punctuation? c = none ∧ c ≠ '"' ∧ startsNumber c text = false ∧ isSymbolStart c = true ∧
      x.toList = c :: text.takeWhile isSymbolChar ∧ rest = text.dropWhile isSymbolChar := by
  rw [next] at h
  split at h
  · rename_i mark hm
    cases h
    unfold punctuation? at hm
    split at hm <;> cases hm
  · rename_i hm
    split at h
    · split at h <;> cases h
    · rename_i hq
      split at h
      · cases h
      · rename_i hs
        split at h
        · rename_i hstart
          cases h
          exact ⟨hm, hq, by simpa using hs, hstart, String.toList_ofList, rfl⟩
        · cases h

theorem isSign_of_isSymbolStart {c : Char} (h : isSymbolStart c = true) : isSign c = false := by
  by_contra hc
  simp only [isSign, Bool.not_eq_false, Bool.or_eq_true, decide_eq_true_eq] at hc
  rcases hc with rfl | rfl <;> revert h <;> decide +kernel

/-- A symbol that was read is read again. -/
theorem spells_symbol {c : Char} {text rest : List Char} {x : String} {ends : Nat} (hnul : c ≠ nul)
    (hblank : Text.isBlank c = false) (hcomment : c ≠ ';') (h : next c text = .token (.symbol x) ends rest) :
    Spells (.symbol x) 0 x.toList := by
  obtain ⟨hm, hq, hs, hstart, hx, -⟩ := next_symbol h
  have hchars : ∀ d ∈ text.takeWhile isSymbolChar, isSymbolChar d = true := fun _ hd => List.mem_takeWhile_imp hd
  rw [hx]
  refine .intro hnul hblank hcomment fun rest hr => ?_
  have hrest : ∀ d ∈ rest.head?, isSymbolChar d = false := fun d hd => isSymbolChar_of_isDelimiter (hr d hd)
  have hs' : startsNumber c (text.takeWhile isSymbolChar ++ rest) = false := by
    simp only [startsNumber, Bool.or_eq_false_iff] at hs
    simp [startsNumber, hs.1, isSign_of_isSymbolStart hstart]
  simp [next, hm, hq, hs', hstart, takeWhile_append_eq hchars hrest, dropWhile_append_eq hchars hrest, ← hx]

/-! ### One token of a text -/

section Scan

variable {line ends : Nat} {c : Char} {rest : List Char} (hnul : c ≠ nul) (hblank : Text.isBlank c = false)
  (hcomment : c ≠ ';')

include hnul hblank hcomment

/-- A token is scanned off a text. -/
theorem scan_token {rest' : List Char} {t : Token} (h : next c rest = .token t ends rest') : scan line (c :: rest) =
    { scan (line + ends) rest' with tokens := ⟨line, t⟩ :: (scan (line + ends) rest').tokens } := by
  rw [scan]
  simp only [hnul, hblank, hcomment, if_false, Bool.false_eq_true]
  split
  · rename_i hnext
    rw [h] at hnext
    cases hnext
    rfl
  · rename_i hnext
    rw [h] at hnext
    cases hnext

/-- An error ends the tokens. -/
theorem scan_failed {error : Error} (h : next c rest = .failed error ends) :
    scan line (c :: rest) = ⟨[], line + ends, some error⟩ := by
  rw [scan]
  simp only [hnul, hblank, hcomment, if_false, Bool.false_eq_true]
  split
  · rename_i hnext
    rw [h] at hnext
    cases hnext
  · rename_i hnext
    rw [h] at hnext
    cases hnext
    rfl

end Scan

/-! ### Tokens that were read -/

/-- What is known of a word that was read from a text. -/
def Lexed : Token → Prop
  | symbol text => Spells (.symbol text) 0 text.toList
  | string text => nul ∉ text.toList
  | number text => Spells (.number text) 0 text.toList
  | _ => True

theorem next_lexed {c : Char} {text rest : List Char} {t : Token} {ends : Nat} (hnul : c ≠ nul)
    (hblank : Text.isBlank c = false) (hcomment : c ≠ ';') (h : next c text = .token t ends rest) : t.Lexed := by
  have hsymbol : ∀ x, t = .symbol x → t.Lexed := by
    rintro x rfl
    exact spells_symbol hnul hblank hcomment h
  rw [next] at h
  split at h
  · rename_i mark hm
    cases h
    unfold punctuation? at hm
    split at hm <;> cases hm <;> trivial
  · rename_i hm
    split at h
    · split at h
      · rename_i hb
        cases h
        simpa [Lexed] using nul_not_mem_of_stringBody hb
      · cases h
    · rename_i hq
      split at h
      · rename_i hs
        cases h
        rw [Lexed, String.toList_ofList]
        exact spells_numberText hnul hblank hcomment hm hq hs
      · split at h <;> cases h
        exact hsymbol _ rfl

theorem scan_lexed (line : Nat) (text : List Char) : ∀ t ∈ (scan line text).tokens, t.token.Lexed := by
  fun_induction scan line text with
  | case1 | case2 => simp
  | case3 _ _ _ _ _ ih | case4 _ _ _ _ ih => exact ih
  | case5 line c rest hnul hblank hcomment t ends rest' hnext after ih =>
    simp only [List.forall_mem_cons]
    exact ⟨next_lexed hnul (by simpa using hblank) hcomment hnext, ih⟩
  | case6 => simp

/-! ### Texts of one symbol -/

/-- A text that is read as one symbol. -/
def IsSymbol (text : String) : Prop := scan 1 text.toList = ⟨[⟨1, .symbol text⟩], 1, none⟩

instance : DecidablePred IsSymbol := fun text => inferInstanceAs (Decidable (scan 1 text.toList = _))

/-- A symbol is not longer than the text that it was read from. -/
theorem length_symbol_le (line : Nat) (text : List Char) :
    ∀ t ∈ (scan line text).tokens, ∀ x, t.token = .symbol x → x.toList.length ≤ text.length := by
  fun_induction scan line text with
  | case1 | case2 | case6 => simp
  | case3 line c rest _ _ ih =>
    intro t ht x hx
    exact (ih t ht x hx).trans (Nat.le_succ _)
  | case4 line rest _ _ ih =>
    intro t ht x hx
    exact (ih t ht x hx).trans ((List.dropWhile_suffix _).length_le.trans (Nat.le_succ _))
  | case5 line c rest _ _ _ t ends rest' hnext after ih =>
    simp only [List.forall_mem_cons]
    refine ⟨fun x hx => ?_, fun t' ht x hx => (ih t' ht x hx).trans ((next_length hnext).trans (Nat.le_succ _))⟩
    subst hx
    rw [(next_symbol hnext).2.2.2.2.1, List.length_cons, List.length_cons]
    exact Nat.succ_le_succ (List.takeWhile_sublist _).length_le

/-- A symbol starts with a character that is no blank and no mark, and goes on to its end. -/
theorem IsSymbol.next_eq {text : String} (h : IsSymbol text) : ∃ c body rest ends, text.toList = c :: body ∧ c ≠ nul ∧
    Text.isBlank c = false ∧ c ≠ ';' ∧ next c body = .token (.symbol text) ends rest := by
  rw [IsSymbol] at h
  have hlen : ∀ line rest, (scan line rest).tokens = [⟨1, .symbol text⟩] → text.toList.length ≤ rest.length :=
    fun line rest hr => length_symbol_le line rest ⟨1, .symbol text⟩ (by simp [hr]) text rfl
  cases hcons : text.toList with
  | nil => simp [hcons, scan] at h
  | cons c body =>
    rw [hcons, scan] at h
    rw [hcons] at hlen
    split at h
    · cases h
    · rename_i hnul
      split at h
      · have := hlen _ _ (congrArg Scan.tokens h)
        simp at this
      · rename_i hblank
        split at h
        · have := (hlen _ _ (congrArg Scan.tokens h)).trans (List.dropWhile_suffix _).length_le
          simp at this
        · rename_i hcomment
          split at h
          · rename_i t ends rest hnext
            have ht := congrArg Scan.tokens h
            simp only [List.cons.injEq, Placed.mk.injEq, true_and] at ht
            exact ⟨c, body, rest, ends, rfl, hnul, by simpa using hblank, hcomment, ht.1 ▸ hnext⟩
          · cases h

theorem IsSymbol.spells {text : String} (h : IsSymbol text) : Spells (.symbol text) 0 text.toList := by
  obtain ⟨c, body, rest, ends, hcons, hnul, hblank, hcomment, hnext⟩ := h.next_eq
  exact spells_symbol hnul hblank hcomment hnext

end Arvore.Token
