import Mathlib
import Arvore.Proofs.Reading.Offsets

/-!
# Tokens on demand

A cursor stands before a character of a source and reads one token at a time, by loops that look at one character
after the other. Each loop is given a number of rounds and answers `none` if it needs more, so that a loop which
never ends answers `none` for every number. None of them does so, because no loop goes on with NUL, and NUL is what
the cursor reads behind the last byte. Every token that is read takes the cursor at least one byte further
(`Cursor.nextToken_eq`), and what it finds is what `scan` finds, up to the first error. Behind an error the cursor
can go on, which `scan` does not.
-/

namespace Arvore.Token

/-- A token with its line, or an end of the tokens. -/
structure Lexeme where
  line : Nat
  token : Option Token
  deriving DecidableEq

/-- A place behind so many bytes of a source, its line, and the errors that were met before it, with their lines. -/
structure Cursor where
  pos : Nat
  line : Nat
  errors : List (Nat × Error)
  deriving DecidableEq

namespace Cursor

variable (source : List UInt8)

/-! ### Reading tokens -/

/-- The character before which the cursor stands, NUL at the end. -/
def current (c : Cursor) : Char :=
  match source.drop c.pos with
  | [] => nul
  | a :: rest => (Text.Utf8.first a rest).1

/-- The number of bytes of this character. -/
def width (c : Cursor) : Nat :=
  match source.drop c.pos with
  | [] => 0
  | a :: rest => 1 + (Text.Utf8.first a rest).2

/-- Goes on by one character. -/
def read (c : Cursor) : Cursor :=
  { c with pos := c.pos + c.width source, line := c.line + lineEnd (c.current source) }

/-- Notes an error. -/
def fail (c : Cursor) (error : Error) : Cursor := { c with errors := c.errors ++ [(c.line, error)] }

/-- Reads all characters of one sort. -/
def span (p : Char → Bool) : Nat → Cursor → Option (List Char × Cursor)
  | 0, _ => none
  | n + 1, c =>
    if p (c.current source) then do
      let (more, c') ← span p n (c.read source)
      some (c.current source :: more, c')
    else some ([], c)

/-- Reads a string behind its opening quote. -/
def stringText : Nat → Cursor → Option (Except Error (List Char) × Cursor)
  | 0, _ => none
  | n + 1, c =>
    if c.current source = '"' then some (.ok [], c.read source)
    else if c.current source = nul then some (.error .unterminatedString, c)
    else if c.current source = '\\' then
      match unescape? ((c.read source).current source) with
      | some e => do
        let (result, c') ← stringText n ((c.read source).read source)
        some (result.map (e :: ·), c')
      | none => some (.error (.invalidEscape ((c.read source).current source)), c.read source)
    else do
      let (result, c') ← stringText n (c.read source)
      some (result.map (c.current source :: ·), c')

/-- Reads a sign, if one stands here, and the digits behind it. -/
def digits (n : Nat) (c : Cursor) : Option (List Char × Cursor) :=
  if isSign (c.current source) then do
    let (digits, c') ← span source Text.isDecimalDigit n (c.read source)
    some (c.current source :: digits, c')
  else span source Text.isDecimalDigit n c

/-- Reads a point and the digits behind it, if there are some. -/
def fraction (n : Nat) (c : Cursor) : Option (List Char × Cursor) :=
  if c.current source = '.' ∧ Text.isDecimalDigit ((c.read source).current source) then do
    let (digits, c') ← span source Text.isDecimalDigit n (c.read source)
    some ('.' :: digits, c')
  else some ([], c)

/-- Reads an exponent, if one stands here. -/
def exponent (n : Nat) (c : Cursor) : Option (List Char × Cursor) :=
  if c.current source = 'e' ∨ c.current source = 'E' then do
    let (power, c') ← digits source n (c.read source)
    some (c.current source :: power, c')
  else some ([], c)

/-- Reads a number. -/
def number (n : Nat) (c : Cursor) : Option (List Char × Cursor) := do
  let (whole, c) ← digits source n c
  let (part, c) ← fraction source n c
  let (power, c) ← exponent source n c
  some (whole ++ part ++ power, c)

/-- Reads the token that starts here. -/
def word (n : Nat) (c : Cursor) : Option (Lexeme × Cursor) :=
  match punctuation? (c.current source) with
  | some mark => some (⟨c.line, some mark⟩, c.read source)
  | none =>
    if c.current source = '"' then do
      let (result, c') ← stringText source n (c.read source)
      match result with
      | .ok text => some (⟨c.line, some (.string (String.ofList text))⟩, c')
      | .error error => some (⟨c.line, none⟩, c'.fail error)
    else if Text.isDecimalDigit (c.current source) ∨
        isSign (c.current source) ∧ Text.isDecimalDigit ((c.read source).current source) then do
      let (text, c') ← number source n c
      some (⟨c.line, some (.number (String.ofList text))⟩, c')
    else if isSymbolStart (c.current source) then do
      let (text, c') ← span source isSymbolChar n c
      some (⟨c.line, some (.symbol (String.ofList text))⟩, c')
    else some (⟨c.line, none⟩, c.fail (.unexpectedCharacter (c.current source)))

/-- Reads the next token, behind blanks and comments. An error is noted and answered like the end of the source. -/
def nextToken : Nat → Cursor → Option (Lexeme × Cursor)
  | 0, _ => none
  | n + 1, c => do
    let (_, c) ← span source Text.isBlank n c
    if c.current source = nul then some (⟨c.line, none⟩, c)
    else if c.current source = ';' then do
      let (_, c) ← span source inComment n c
      nextToken n c
    else word source n c

/-! ### What is ahead -/

/-- The characters that have not been read. -/
def ahead (c : Cursor) : List Char := Text.Utf8.decode (source.drop c.pos)

variable {source} {c c' c'' : Cursor} {n : Nat}

theorem length_ahead_le (c : Cursor) : (c.ahead source).length ≤ source.length := by
  have hdecode (bytes : List UInt8) : (Text.Utf8.decode bytes).length ≤ bytes.length := by
    fun_induction Text.Utf8.decode bytes with
    | case1 => exact Nat.le_refl _
    | case2 a rest ih =>
      rw [List.length_drop] at ih
      rw [List.length_cons, List.length_cons]
      omega
  exact (hdecode _).trans ((List.drop_sublist _ _).length_le)

/-- At the end the cursor stands still. -/
theorem current_of_nil (h : c.ahead source = []) : c.current source = nul := by
  rw [ahead] at h
  rw [current]
  split
  · rfl
  · rename_i hdrop
    rw [hdrop, Text.Utf8.decode] at h
    cases h

/-- Before the end the first of the characters ahead is read. -/
theorem ahead_of_cons {x : Char} {rest : List Char} (h : c.ahead source = x :: rest) :
    c.current source = x ∧ (c.read source).ahead source = rest ∧ c.pos < (c.read source).pos ∧
      (c.read source).pos ≤ source.length := by
  rw [ahead] at h
  simp only [read, current, width, ahead]
  cases hdrop : source.drop c.pos with
  | nil =>
    rw [hdrop, Text.Utf8.decode] at h
    cases h
  | cons a tail =>
    rw [hdrop, Text.Utf8.decode, List.cons.injEq] at h
    have hwidth := Text.Utf8.first_length_le a tail
    have hlength : source.length - c.pos = tail.length + 1 := by rw [← List.length_drop, hdrop, List.length_cons]
    dsimp only
    refine ⟨h.1, ?_, by omega, by omega⟩
    rw [← h.2, ← List.drop_drop, hdrop, Nat.add_comm 1, List.drop_succ_cons]

variable (source) in
/-- The cursor `c'` is the cursor `c` when the characters `body` have been read. -/
inductive Passes : Cursor → List Char → Cursor → Prop
  | nil {c : Cursor} : Passes c [] c
  | cons {c c' : Cursor} {x : Char} {rest body : List Char} (h : c.ahead source = x :: rest)
      (hp : Passes (c.read source) body c') : Passes c (x :: body) c'

namespace Passes

variable {body more : List Char}

theorem trans (h : Passes source c body c') (h' : Passes source c' more c'') :
    Passes source c (body ++ more) c'' := by
  induction h with
  | nil => exact h'
  | cons hx _ ih => exact .cons hx (ih h')

theorem single {x : Char} {rest : List Char} (h : c.ahead source = x :: rest) :
    Passes source c [x] (c.read source) := .cons h .nil

theorem ahead_eq (h : Passes source c body c') : c.ahead source = body ++ c'.ahead source := by
  induction h with
  | nil => rfl
  | cons hx _ ih => rw [hx, List.cons_append, ← ih, (ahead_of_cons hx).2.1]

theorem line_eq (h : Passes source c body c') : c'.line = c.line + body.count '\n' := by
  induction h with
  | nil => rfl
  | @cons c c' x rest body hx _ ih =>
    have hline : (c.read source).line = c.line + lineEnd x := by rw [← (ahead_of_cons hx).1]; rfl
    rw [ih, hline, List.count_cons, lineEnd, Nat.add_assoc, Nat.add_comm (List.count _ _)]
    simp only [beq_iff_eq]

theorem length_eq (h : Passes source c body c') :
    (c.ahead source).length = body.length + (c'.ahead source).length := by
  rw [h.ahead_eq, List.length_append]

theorem errors_eq (h : Passes source c body c') : c'.errors = c.errors := by
  induction h with
  | nil => rfl
  | cons _ _ ih => exact ih

theorem pos_le (h : Passes source c body c') (hc : c.pos ≤ source.length) :
    c.pos + body.length ≤ c'.pos ∧ c'.pos ≤ source.length := by
  induction h with
  | nil => exact ⟨Nat.le_refl _, hc⟩
  | cons hx _ ih =>
    obtain ⟨-, -, hlt, hle⟩ := ahead_of_cons hx
    have := ih hle
    rw [List.length_cons]
    omega

/-- What is read and what is ahead of it are both known from what was ahead. -/
theorem body_eq {rest : List Char} (h : Passes source c body c') (hc : c.ahead source = more ++ rest)
    (hc' : c'.ahead source = rest) : body = more := by
  rw [h.ahead_eq, hc'] at hc
  exact List.append_cancel_right hc

end Passes

/-! ### Single tokens -/

variable (source) in
/-- A loop has answered with the characters `taken` that it has read, and before the characters `rest`. -/
def Gives (c : Cursor) (answer : Option (List Char × Cursor)) (taken rest : List Char) : Prop :=
  ∃ c', answer = some (taken, c') ∧ Passes source c taken c' ∧ c'.ahead source = rest

section Gives

variable {answer : Option (List Char × Cursor)} {taken rest : List Char}

theorem gives_nil (h : c.ahead source = rest) : Gives source c (some ([], c)) [] rest := ⟨c, rfl, .nil, h⟩

/-- One character is read before a loop. -/
theorem Gives.cons {x : Char} {text : List Char} (hx : c.ahead source = x :: text)
    (h : Gives source (c.read source) answer taken rest) :
    Gives source c (do let (more, c') ← answer; some (x :: more, c')) (x :: taken) rest := by
  obtain ⟨c', rfl, hp, hc'⟩ := h
  exact ⟨c', rfl, .cons hx hp, hc'⟩

theorem Gives.length_lt {text : List Char} (h : Gives source c answer taken rest) (htext : c.ahead source = text)
    (hn : text.length < n) : rest.length < n := by
  obtain ⟨c', -, hp, rfl⟩ := h
  have := hp.length_eq
  rw [htext] at this
  omega

theorem gives_span {p : Char → Bool} (hp : p nul = false) {text : List Char} (htext : c.ahead source = text)
    (hn : text.length < n) : Gives source c (span source p n c) (text.takeWhile p) (text.dropWhile p) := by
  induction n generalizing c text with
  | zero => cases hn
  | succ n ih =>
    rw [span]
    cases text with
    | nil =>
      rw [current_of_nil htext, hp]
      exact gives_nil htext
    | cons x rest =>
      obtain ⟨hx, hrest, -⟩ := ahead_of_cons htext
      rw [hx]
      by_cases hpx : p x = true
      · rw [if_pos hpx, List.takeWhile_cons_of_pos hpx, List.dropWhile_cons_of_pos hpx]
        exact (ih hrest (Nat.lt_of_succ_lt_succ hn)).cons htext
      · rw [if_neg hpx, List.takeWhile_cons_of_neg hpx, List.dropWhile_cons_of_neg hpx]
        exact gives_nil htext

theorem gives_digits {text : List Char} (htext : c.ahead source = text) (hn : text.length < n) :
    Gives source c (digits source n c) ((sign text).1 ++ (sign text).2.takeWhile Text.isDecimalDigit)
      ((sign text).2.dropWhile Text.isDecimalDigit) := by
  have hspan := gives_span isDecimalDigit_nul htext hn
  rw [digits]
  cases text with
  | nil =>
    rw [current_of_nil htext]
    exact hspan
  | cons x rest =>
    obtain ⟨hx, hrest, -⟩ := ahead_of_cons htext
    rw [hx, sign]
    split
    · exact (gives_span isDecimalDigit_nul hrest (Nat.lt_of_succ_lt hn)).cons htext
    · exact hspan

theorem gives_fraction {text : List Char} (htext : c.ahead source = text) (hn : text.length < n) :
    Gives source c (fraction source n c) (Token.fraction text).1 (Token.fraction text).2 := by
  rw [fraction]
  rcases text with _ | ⟨x, _ | ⟨d, rest⟩⟩
  · rw [current_of_nil htext]
    exact gives_nil htext
  · obtain ⟨-, hrest, -⟩ := ahead_of_cons htext
    rw [current_of_nil hrest, isDecimalDigit_nul, if_neg (by simp), Token.fraction]
    · exact gives_nil htext
    · simp
  · obtain ⟨hx, hrest, -⟩ := ahead_of_cons htext
    rw [hx, (ahead_of_cons hrest).1]
    by_cases hpoint : x = '.'
    · subst hpoint
      have hdigits := gives_span isDecimalDigit_nul hrest (Nat.lt_of_succ_lt hn)
      rw [Token.fraction]
      by_cases hd : Text.isDecimalDigit d = true
      · rw [List.takeWhile_cons_of_pos hd, List.dropWhile_cons_of_pos hd] at hdigits
        rw [if_pos ⟨rfl, hd⟩, if_pos hd]
        exact hdigits.cons htext
      · rw [if_neg (fun h => hd h.2), if_neg hd]
        exact gives_nil htext
    · rw [if_neg (fun h => hpoint h.1), Token.fraction]
      · exact gives_nil htext
      · exact fun _ _ h => hpoint (List.cons.inj h).1

theorem gives_exponent {text : List Char} (htext : c.ahead source = text) (hn : text.length < n) :
    Gives source c (exponent source n c) (Token.exponent text).1 (Token.exponent text).2 := by
  rw [exponent]
  cases text with
  | nil =>
    rw [current_of_nil htext]
    exact gives_nil htext
  | cons x rest =>
    obtain ⟨hx, hrest, -⟩ := ahead_of_cons htext
    rw [hx, Token.exponent]
    by_cases he : x = 'e' ∨ x = 'E'
    · rw [if_pos he, if_pos (by simpa using he)]
      exact (gives_digits hrest (Nat.lt_of_succ_lt hn)).cons htext
    · rw [if_neg he, if_neg (by simpa using he)]
      exact gives_nil htext

theorem gives_number {x : Char} {text : List Char} (htext : c.ahead source = x :: text)
    (hn : (x :: text).length < n) (hs : startsNumber x text = true) :
    Gives source c (number source n c) (numberText x text).1 (numberText x text).2 := by
  have hfirst : (sign (x :: text)).1 ++ (sign (x :: text)).2.takeWhile Text.isDecimalDigit =
      x :: text.takeWhile Text.isDecimalDigit ∧
      (sign (x :: text)).2.dropWhile Text.isDecimalDigit = text.dropWhile Text.isDecimalDigit := by
    rw [sign]
    split
    · exact ⟨rfl, rfl⟩
    · rename_i hsign
      have hdigit : Text.isDecimalDigit x = true := by simpa [startsNumber, hsign] using hs
      rw [List.nil_append, List.takeWhile_cons_of_pos hdigit, List.dropWhile_cons_of_pos hdigit]
      exact ⟨rfl, rfl⟩
  have hdigits := gives_digits htext hn
  rw [hfirst.1, hfirst.2] at hdigits
  have hn₁ := hdigits.length_lt htext hn
  obtain ⟨c₁, hwhole, hp₁, hc₁⟩ := hdigits
  have hfraction := gives_fraction hc₁ hn₁
  have hn₂ := hfraction.length_lt hc₁ hn₁
  obtain ⟨c₂, hpart, hp₂, hc₂⟩ := hfraction
  obtain ⟨c₃, hpower, hp₃, hc₃⟩ := gives_exponent hc₂ hn₂
  refine ⟨c₃, ?_, (hp₁.trans hp₂).trans hp₃, hc₃⟩
  rw [number, hwhole]
  simp only [Option.bind_eq_bind, Option.bind_some, hpart, hpower]
  rfl

end Gives

variable (source) in
/-- What reading a string leads to, from the cursor `c`. -/
inductive StringRead (c : Cursor) : StringBody → Except Error (List Char) × Cursor → Prop
  | closed {c' : Cursor} {body text : List Char} (h : Passes source c body c') :
      StringRead c (.closed text (body.count '\n') (c'.ahead source)) (.ok text, c')
  | failed {c' : Cursor} {body : List Char} {error : Error} (h : Passes source c body c') :
      StringRead c (.failed error (body.count '\n')) (.error error, c')

theorem StringRead.cons {front : List Char} {x : Char} {ends : Nat} {body : StringBody}
    {result : Except Error (List Char)} (hp : Passes source c front c') (hends : ends = front.count '\n')
    (h : StringRead source c' body (result, c'')) :
    StringRead source c (body.cons x ends) (result.map (x :: ·), c'') := by
  subst hends
  cases h with
  | closed h =>
    rw [StringBody.cons, ← List.count_append]
    exact .closed (hp.trans h)
  | failed h =>
    rw [StringBody.cons, ← List.count_append]
    exact .failed (hp.trans h)

theorem stringText_eq (hn : (c.ahead source).length < n) : ∃ r, stringText source n c = some r ∧
    StringRead source c (stringBody (c.ahead source)) r := by
  -- the cases are an end without a quote, the quote, NUL, the three outcomes of an escape, and any other character
  generalize htext : c.ahead source = text at hn
  fun_induction stringBody text generalizing c n
  all_goals obtain ⟨n, rfl⟩ := Nat.exists_eq_succ_of_ne_zero (Nat.ne_zero_of_lt hn)
  case case1 =>
    rw [stringText, current_of_nil htext]
    exact ⟨_, rfl, .failed .nil⟩
  case case2 rest =>
    obtain ⟨hx, hrest, -⟩ := ahead_of_cons htext
    rw [stringText, hx, ← hrest]
    exact ⟨_, rfl, .closed (.single htext)⟩
  case case3 rest =>
    obtain ⟨hx, -⟩ := ahead_of_cons htext
    rw [stringText, hx]
    exact ⟨_, rfl, .failed .nil⟩
  case case4 =>
    obtain ⟨hx, hrest, -⟩ := ahead_of_cons htext
    rw [stringText, hx, current_of_nil hrest]
    exact ⟨_, rfl, .failed (.single htext)⟩
  case case5 e rest x he _ _ ih =>
    obtain ⟨hx, hrest, -⟩ := ahead_of_cons htext
    obtain ⟨hx', hrest', -⟩ := ahead_of_cons hrest
    obtain ⟨⟨result, c'⟩, hr, h⟩ := ih hrest' (Nat.lt_of_succ_lt (Nat.lt_of_succ_lt_succ hn))
    have hends : 0 = ['\\', e].count '\n' := by
      have hne : e ≠ '\n' := by
        rintro rfl
        cases he
      rw [List.count_cons_of_ne (by decide), List.count_cons_of_ne hne, List.count_nil]
    refine ⟨_, ?_, h.cons (.cons htext (.single hrest)) hends⟩
    rw [stringText, hx, hx', he, hr]
    rfl
  case case6 e rest he _ _ =>
    obtain ⟨hx, hrest, -⟩ := ahead_of_cons htext
    obtain ⟨hx', -⟩ := ahead_of_cons hrest
    rw [stringText, hx, hx', he]
    exact ⟨_, rfl, .failed (.single htext)⟩
  case case7 x rest hquote hnul hslash ih =>
    obtain ⟨hx, hrest, -⟩ := ahead_of_cons htext
    obtain ⟨⟨result, c'⟩, hr, h⟩ := ih hrest (Nat.lt_of_succ_lt_succ hn)
    have hends : lineEnd x = [x].count '\n' := by
      rw [List.count_singleton, lineEnd]
      simp only [beq_iff_eq]
    refine ⟨_, ?_, h.cons (.single htext) hends⟩
    rw [stringText, hx, if_neg hquote, if_neg hnul, if_neg hslash, hr]
    rfl

variable (source) in
/-- What reading the token that starts here leads to, from the cursor `c`. -/
inductive WordRead (c : Cursor) : Next → Lexeme × Cursor → Prop
  | token {c' : Cursor} {body : List Char} {t : Token} {ends : Nat} (h : Passes source c body c') :
      WordRead c (.token t ends (c'.ahead source)) (⟨c.line, some t⟩, c')
  | failed {c' : Cursor} {body : List Char} {error : Error} (h : Passes source c body c') :
      WordRead c (.failed error (body.count '\n')) (⟨c.line, none⟩, c'.fail error)

theorem startsNumber_iff {x : Char} {text : List Char} (htext : c.ahead source = x :: text) :
    startsNumber x text = true ↔ Text.isDecimalDigit (c.current source) = true ∨
      isSign (c.current source) = true ∧ Text.isDecimalDigit ((c.read source).current source) = true := by
  obtain ⟨hx, hrest, -⟩ := ahead_of_cons htext
  rw [hx]
  cases text with
  | nil => simp [startsNumber, current_of_nil hrest, isDecimalDigit_nul]
  | cons d rest => simp [startsNumber, (ahead_of_cons hrest).1]

theorem word_eq {x : Char} {text : List Char} (htext : c.ahead source = x :: text) (hn : (x :: text).length < n) :
    ∃ r, word source n c = some r ∧ WordRead source c (next x text) r := by
  obtain ⟨hx, hrest, -⟩ := ahead_of_cons htext
  have hnumber := startsNumber_iff htext
  rw [word, next, hx]
  cases hmark : punctuation? x with
  | some mark =>
    rw [← hrest]
    exact ⟨_, rfl, .token (.single htext)⟩
  | none =>
    by_cases hquote : x = '"'
    · subst hquote
      obtain ⟨⟨result, c'⟩, hr, h⟩ := stringText_eq (hrest ▸ Nat.lt_of_succ_lt hn)
      rw [hrest] at h
      generalize stringBody text = outcome at h
      simp only [if_true, hr, Option.bind_eq_bind, Option.bind_some]
      cases h with
      | closed h => exact ⟨_, rfl, .token (.cons htext h)⟩
      | failed h =>
        rw [← List.count_cons_of_ne (show '"' ≠ '\n' by decide)]
        exact ⟨_, rfl, .failed (.cons htext h)⟩
    · rw [hx] at hnumber
      simp only [if_neg hquote]
      by_cases hstart : startsNumber x text = true
      · obtain ⟨c', hr, hp, hc'⟩ := gives_number htext hn hstart
        rw [if_pos (hnumber.1 hstart), if_pos hstart, hr, ← hc']
        exact ⟨_, rfl, .token hp⟩
      · rw [if_neg (mt hnumber.2 hstart), if_neg hstart]
        by_cases hsymbol : isSymbolStart x = true
        · have hchar : isSymbolChar x = true := by simp [isSymbolChar, hsymbol]
          obtain ⟨c', hr, hp, hc'⟩ := gives_span isSymbolChar_nul htext hn
          rw [List.dropWhile_cons_of_pos hchar] at hc'
          rw [List.takeWhile_cons_of_pos hchar] at hr
          rw [if_pos hsymbol, if_pos hsymbol, hr, ← hc']
          exact ⟨_, rfl, .token hp⟩
        · rw [if_neg hsymbol, if_neg hsymbol]
          exact ⟨_, rfl, .failed .nil⟩

/-! ### All tokens -/

variable (source) in
/-- What reading the next token leads to, from the cursor `c`, compared with what is scanned from there. -/
inductive NextRead (c : Cursor) : Scan → Lexeme × Cursor → Prop
  | token {c' : Cursor} {line : Nat} {t : Token} {s : Scan} (hpos : c.pos < c'.pos) (herrors : c'.errors = c.errors)
      (hs : scan c'.line (c'.ahead source) = s) :
      NextRead c { s with tokens := ⟨line, t⟩ :: s.tokens } (⟨line, some t⟩, c')
  | finished {c' : Cursor} (herrors : c'.errors = c.errors)
      (hs : scan c'.line (c'.ahead source) = ⟨[], c'.line, none⟩) :
      NextRead c ⟨[], c'.line, none⟩ (⟨c'.line, none⟩, c')
  | failed {c' : Cursor} {line line' : Nat} {error : Error} (herrors : c'.errors = c.errors ++ [(line', error)]) :
      NextRead c ⟨[], line', some error⟩ (⟨line, none⟩, c')

/-- A token takes the cursor further. -/
theorem NextRead.pos_lt {s : Scan} {r : Lexeme × Cursor} (h : NextRead source c s r) (ht : r.1.token ≠ none) :
    c.pos < r.2.pos := by
  cases h with
  | token hpos => exact hpos
  | finished | failed => exact absurd rfl ht

theorem NextRead.of_passes {body : List Char} {s : Scan} {r : Lexeme × Cursor} (hp : Passes source c body c')
    (hc : c.pos ≤ source.length) (h : NextRead source c' s r) : NextRead source c s r := by
  have hpos := (hp.pos_le hc).1
  cases h with
  | token hlt herrors hs => exact .token (by omega) (herrors.trans hp.errors_eq) hs
  | finished herrors hs => exact .finished (herrors.trans hp.errors_eq) hs
  | failed herrors => exact .failed (by rw [herrors, hp.errors_eq])

theorem isBlank_nul : Text.isBlank nul = false := by decide +kernel

theorem scan_dropWhile_blank (line : Nat) (text : List Char) : scan line text =
    scan (line + (text.takeWhile Text.isBlank).count '\n') (text.dropWhile Text.isBlank) := by
  induction text generalizing line with
  | nil => rfl
  | cons x rest ih =>
    by_cases hx : Text.isBlank x = true
    · have hnul : x ≠ nul := by
        rintro rfl
        rw [isBlank_nul] at hx
        cases hx
      rw [scan, if_neg hnul, if_pos hx, ih, List.takeWhile_cons_of_pos hx, List.dropWhile_cons_of_pos hx,
        List.count_cons, lineEnd, Nat.add_assoc, Nat.add_comm (List.count _ _)]
      simp only [beq_iff_eq]
    · rw [List.takeWhile_cons_of_neg hx, List.dropWhile_cons_of_neg hx, List.count_nil, Nat.add_zero]

/-- A token that starts here is read as it is scanned. -/
theorem nextRead_word {x : Char} {text : List Char} (hc : c.pos ≤ source.length) (htext : c.ahead source = x :: text)
    (hn : (x :: text).length < n) (hnul : x ≠ nul) (hblank : Text.isBlank x = false) (hcomment : x ≠ ';') :
    ∃ r, word source n c = some r ∧ c.pos ≤ r.2.pos ∧ r.2.pos ≤ source.length ∧
      NextRead source c (scan c.line (x :: text)) r := by
  obtain ⟨r, hr, hword⟩ := word_eq htext hn
  refine ⟨r, hr, ?_⟩
  generalize hnext : next x text = outcome at hword
  cases hword with
  | @token c' body t ends hp =>
    obtain ⟨hpos, hlength⟩ := hp.pos_le hc
    have hx : x ≠ '\n' := by
      rintro rfl
      revert hblank
      decide +kernel
    obtain ⟨body', rfl, hends⟩ := next_lineEnds hx hnext
    have hbody : c.ahead source = (x :: body') ++ c'.ahead source := htext
    obtain rfl := hp.body_eq hbody rfl
    rw [List.length_cons] at hpos
    dsimp only
    refine ⟨by omega, hlength, ?_⟩
    rw [scan_token hnul hblank hcomment hnext, ← hends, ← hp.line_eq]
    exact .token (by omega) hp.errors_eq rfl
  | @failed c' body error hp =>
    obtain ⟨hpos, hlength⟩ := hp.pos_le hc
    refine ⟨(Nat.le_add_right _ _).trans hpos, hlength, ?_⟩
    rw [scan_failed hnul hblank hcomment hnext, ← hp.line_eq]
    exact .failed (by rw [fail, hp.errors_eq])

/-- A comment is read to its end, and what is scanned stands behind it. -/
theorem comment_eq {rest : List Char} (htext : c.ahead source = ';' :: rest) (hn : (';' :: rest).length < n) :
    ∃ body c', span source inComment n c = some (body, c') ∧ Passes source c body c' ∧
      (c'.ahead source).length ≤ rest.length ∧ scan c.line (';' :: rest) = scan c'.line (c'.ahead source) := by
  obtain ⟨c', hr, hp, hc'⟩ := gives_span (p := inComment) rfl htext hn
  refine ⟨_, c', hr, hp, ?_, ?_⟩
  · rw [hc', List.dropWhile_cons_of_pos (by decide)]
    exact (List.dropWhile_suffix _).length_le
  · have hblank : ¬ Text.isBlank ';' = true := by decide +kernel
    rw [scan, if_neg (by decide), if_neg hblank, if_pos rfl, hp.line_eq, count_takeWhile rfl, hc',
      List.dropWhile_cons_of_pos (by decide), Nat.add_zero]

/-- Reading the next token ends, not behind the end of the source, and a token that is found lies ahead. -/
theorem nextToken_eq (hc : c.pos ≤ source.length) (hn : (c.ahead source).length + 1 < n) :
    ∃ r, nextToken source n c = some r ∧ c.pos ≤ r.2.pos ∧ r.2.pos ≤ source.length ∧
      NextRead source c (scan c.line (c.ahead source)) r := by
  induction n generalizing c with
  | zero => cases hn
  | succ n ih =>
    have hn : (c.ahead source).length < n := Nat.lt_of_succ_lt_succ hn
    obtain ⟨c₁, hr₁, hp₁, hc₁⟩ := gives_span isBlank_nul (rfl : c.ahead source = _) hn
    obtain ⟨hpos₁, hlength₁⟩ := hp₁.pos_le hc
    have hn₁ := hp₁.length_eq
    -- what follows the blanks decides, and leads from their end as from their start
    suffices h : ∃ r, (if c₁.current source = nul then some (⟨c₁.line, none⟩, c₁)
        else if c₁.current source = ';' then (span source inComment n c₁).bind fun x => nextToken source n x.2
        else word source n c₁) = some r ∧ c₁.pos ≤ r.2.pos ∧ r.2.pos ≤ source.length ∧
          NextRead source c₁ (scan c₁.line (c₁.ahead source)) r by
      obtain ⟨r, hr, hpos, hlength, h⟩ := h
      refine ⟨r, ?_, by omega, hlength, ?_⟩
      · rw [nextToken, hr₁]
        exact hr
      · rw [scan_dropWhile_blank, ← hc₁, ← hp₁.line_eq]
        exact h.of_passes hp₁ hc
    cases htext : c₁.ahead source with
    | nil =>
      have hend : scan c₁.line [] = ⟨[], c₁.line, none⟩ := by rw [scan]
      rw [current_of_nil htext, if_pos rfl, hend]
      exact ⟨_, rfl, Nat.le_refl _, hlength₁, .finished rfl (by rw [htext, hend])⟩
    | cons x rest =>
      rw [htext] at hn₁
      obtain ⟨hx, -⟩ := ahead_of_cons htext
      have hblank : Text.isBlank x = false := by
        have := List.head?_dropWhile_not Text.isBlank (c.ahead source)
        rw [← hc₁, htext] at this
        simpa using this
      rw [hx]
      by_cases hnul : x = nul
      · have hend : scan c₁.line (x :: rest) = ⟨[], c₁.line, none⟩ := by rw [scan, if_pos hnul]
        rw [if_pos hnul, hend]
        exact ⟨_, rfl, Nat.le_refl _, hlength₁, .finished rfl (by rw [htext, hend])⟩
      · by_cases hcomment : x = ';'
        · subst hcomment
          -- the semicolon has been read, so the rounds that are left are enough for what is behind the comment
          have hrounds : (';' :: rest).length < n := by omega
          obtain ⟨body, c₂, hr₂, hp₂, hn₂, hscan⟩ := comment_eq htext hrounds
          obtain ⟨hpos₂, hlength₂⟩ := hp₂.pos_le hlength₁
          rw [List.length_cons] at hn₁
          obtain ⟨r, hr, hpos, hlength, h⟩ := ih hlength₂ (by omega)
          rw [if_neg hnul, if_pos rfl, hr₂, hscan]
          exact ⟨r, hr, by omega, hlength, h.of_passes hp₂ hlength₁⟩
        · rw [if_neg hnul, if_neg hcomment]
          exact nextRead_word hlength₁ htext (by omega) hnul hblank hcomment

end Cursor

end Arvore.Token
