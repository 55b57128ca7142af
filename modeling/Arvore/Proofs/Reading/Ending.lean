import Mathlib
import Arvore.Proofs.Reading.Token

/-!
# The end of a text

The character NUL ends a text wherever it stands, in a string, in a number or in a comment as between two tokens: a text
is cut into the same tokens as the part of it before the first NUL, and with the same error (`scan_cut`).
-/

namespace Arvore.Token

/-- The characters before the one that ends a text. -/
def cut (text : List Char) : List Char := text.takeWhile (· != nul)

theorem cut_cons {c : Char} (h : c ≠ nul) (rest : List Char) : cut (c :: rest) = c :: cut rest := by
  simp [cut, h]

theorem cut_nul (rest : List Char) : cut (nul :: rest) = [] := by simp [cut]

section Runs

variable {p : Char → Bool}

theorem takeWhile_cut (hp : p nul = false) (text : List Char) : (cut text).takeWhile p = text.takeWhile p := by
  induction text with
  | nil => rfl
  | cons c rest ih =>
    by_cases hc : c = nul
    · simp [hc, cut_nul, hp]
    · simp [cut_cons hc, List.takeWhile_cons, ih]

theorem dropWhile_cut (hp : p nul = false) (text : List Char) : (cut text).dropWhile p = cut (text.dropWhile p) := by
  induction text with
  | nil => rfl
  | cons c rest ih =>
    by_cases hc : c = nul
    · simp [hc, cut_nul, hp]
    · by_cases hq : p c = true
      · simp [cut_cons hc, hq, ih]
      · simp [cut_cons hc, hq]

end Runs

/-! ### Single tokens -/

/-- The outcome of reading a string, of what follows only the characters before the end of the text. -/
def StringBody.cut : StringBody → StringBody
  | closed text ends rest => closed text ends (Token.cut rest)
  | failed error ends => failed error ends

theorem StringBody.cut_cons (c : Char) (ends : Nat) (body : StringBody) :
    (body.cons c ends).cut = body.cut.cons c ends := by
  cases body <;> rfl

theorem stringBody_cut (text : List Char) : stringBody (cut text) = (stringBody text).cut := by
  fun_induction stringBody text with
  | case1 => rfl
  | case2 rest => rw [cut_cons (by decide), stringBody.eq_def]; rfl
  | case3 rest => rfl
  | case4 => rfl
  | case5 e rest c hc _ _ ih =>
    have he : e ≠ nul := by rintro rfl; cases hc
    rw [cut_cons (by decide), cut_cons he, stringBody.eq_def, StringBody.cut_cons, ← ih]
    simp [hc, nul]
  | case6 e rest he _ _ =>
    by_cases hn : e = nul
    · rw [cut_cons (by decide), hn, cut_nul]
      rfl
    · rw [cut_cons (by decide), cut_cons hn, stringBody.eq_def]
      simp [he, nul, StringBody.cut]
  | case7 c rest _ hn _ ih =>
    rw [cut_cons hn, stringBody.eq_def, StringBody.cut_cons, ← ih]
    simp [*]

theorem sign_cut (text : List Char) : sign (cut text) = ((sign text).1, cut (sign text).2) := by
  cases text with
  | nil => rfl
  | cons c rest =>
    by_cases hc : c = nul
    · rw [hc, cut_nul]
      rfl
    · rw [cut_cons hc, sign, sign]
      split
      · rfl
      · rw [cut_cons hc]

theorem isSymbolChar_nul : isSymbolChar nul = false := by decide +kernel

theorem isDecimalDigit_nul : Text.isDecimalDigit nul = false := by
  have h := isSymbolChar_nul
  simp only [isSymbolChar, Bool.or_eq_false_iff] at h
  exact h.1.2

theorem fraction_cut (text : List Char) : fraction (cut text) = ((fraction text).1, cut (fraction text).2) := by
  rw [fraction.eq_def text]
  split
  · rename_i d rest
    by_cases hd : d = nul
    · rw [cut_cons (by decide), hd, cut_nul, isDecimalDigit_nul]
      rfl
    · rw [cut_cons (by decide), cut_cons hd, fraction]
      split
      · rw [takeWhile_cut isDecimalDigit_nul, dropWhile_cut isDecimalDigit_nul]
      · rw [cut_cons (by decide), cut_cons hd]
  · rename_i h
    rw [fraction]
    intro d rest heq
    obtain ⟨behind, ht⟩ := List.takeWhile_prefix (p := (· != nul)) (l := text)
    exact h d (rest ++ behind) (by rw [← ht, ← cut, heq]; rfl)

theorem exponent_cut (text : List Char) : exponent (cut text) = ((exponent text).1, cut (exponent text).2) := by
  cases text with
  | nil => rfl
  | cons c rest =>
    by_cases hc : c = nul
    · rw [hc, cut_nul]
      rfl
    · rw [cut_cons hc, exponent, exponent]
      split
      · simp only [sign_cut, takeWhile_cut isDecimalDigit_nul, dropWhile_cut isDecimalDigit_nul]
      · rw [cut_cons hc]

theorem numberText_cut (c : Char) (rest : List Char) :
    numberText c (cut rest) = ((numberText c rest).1, cut (numberText c rest).2) := by
  simp only [numberText, takeWhile_cut isDecimalDigit_nul, dropWhile_cut isDecimalDigit_nul, fraction_cut,
    exponent_cut]

theorem startsNumber_cut (c : Char) (rest : List Char) : startsNumber c (cut rest) = startsNumber c rest := by
  cases rest with
  | nil => rfl
  | cons d rest =>
    by_cases hd : d = nul
    · simp [startsNumber, hd, cut_nul, isDecimalDigit_nul]
    · simp [startsNumber, cut_cons hd]

/-- The outcome of reading a token, of what follows only the characters before the end of the text. -/
def Next.cut : Next → Next
  | token t ends rest => token t ends (Token.cut rest)
  | failed error ends => failed error ends

theorem next_cut (c : Char) (rest : List Char) : next c (cut rest) = (next c rest).cut := by
  unfold next
  split
  · rfl
  · split
    · rw [stringBody_cut]
      cases stringBody rest <;> rfl
    · rw [startsNumber_cut]
      split
      · rw [numberText_cut]
        rfl
      · split
        · rw [takeWhile_cut isSymbolChar_nul, dropWhile_cut isSymbolChar_nul]
          rfl
        · rfl

/-! ### Whole texts -/

/-- Nothing behind the character that ends a text is ever read. -/
theorem scan_cut (line : Nat) (text : List Char) : scan line (cut text) = scan line text := by
  fun_induction scan line text with
  | case1 => rw [cut, List.takeWhile_nil, scan]
  | case2 line rest => rw [cut_nul, scan]
  | case3 line c rest hnul hblank ih => rw [cut_cons hnul, scan, if_neg hnul, if_pos hblank, ih]
  | case4 line rest hnul hblank ih =>
    rw [cut_cons hnul, scan, if_neg hnul, if_neg hblank, if_pos rfl, dropWhile_cut rfl, ih]
  | case5 line c rest hnul hblank hcomment t ends rest' hnext after ih =>
    have hcut : next c (cut rest) = .token t ends (cut rest') := by rw [next_cut, hnext]; rfl
    rw [cut_cons hnul, scan_token hnul (by simpa using hblank) hcomment hcut, ih]
  | case6 line c rest hnul hblank hcomment error ends hnext =>
    have hcut : next c (cut rest) = .failed error ends := by rw [next_cut, hnext]; rfl
    rw [cut_cons hnul, scan_failed hnul (by simpa using hblank) hcomment hcut]

end Arvore.Token
