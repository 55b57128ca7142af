import Mathlib
import Arvore.Assembly.Printer
import Arvore.Text.Utf8

/-!
# Quoted strings are read back

An assembler reads a quoted string byte by byte: a backslash starts an escape, the first quote outside of an escape ends
the string (`readQuoted?`). It takes as many octal digits for one escape as there are, up to three, so an escape of
fewer digits would swallow a digit of the text behind it. What is written for a sequence of bytes is read as these
bytes, and the string ends where it was meant to (`quoted_bytes_read_back`).
-/

namespace Arvore.Assembly

/-! ### Reading -/

/-- The bytes of the digits from zero to seven. -/
def isOctal (b : UInt8) : Bool := 0x30 ≤ b && b ≤ 0x37

/-- The byte that octal digits stand for. Of a greater number the lowest eight bits count. -/
def octalValue (digits : List UInt8) : UInt8 := digits.foldl (fun n d => n * 8 + (d - 0x30)) 0

/-- The bytes that have an escape of one letter. -/
def escaped? (letter : UInt8) : Option UInt8 :=
  if letter = 0x5C then some 0x5C
  else if letter = 0x22 then some 0x22
  else if letter = 0x6E then some 0x0A
  else if letter = 0x74 then some 0x09
  else none

/-- Reads an escape behind its backslash: the byte that it stands for, and how long it is. -/
def readEscape? (text : List UInt8) : Option (UInt8 × Nat) :=
  match text.head?.bind escaped? with
  | some b => some (b, 1)
  | none =>
    let digits := (text.take 3).takeWhile isOctal
    if digits = [] then none else some (octalValue digits, digits.length)

/-- Reads a string up to the quote that ends it: the bytes of the string, and the text behind the quote. -/
def readInner? : List UInt8 → Option (List UInt8 × List UInt8)
  | [] => none
  | b :: rest =>
    if b = 0x22 then some ([], rest)
    else if b = 0x5C then
      (readEscape? rest).bind fun (c, length) => (readInner? (rest.drop length)).map (Prod.map (c :: ·) id)
    else (readInner? rest).map (Prod.map (b :: ·) id)
termination_by text => text.length
decreasing_by all_goals simp only [List.length_drop, List.length_cons]; omega

/-- Reads a quoted string: its bytes, and the text behind it. -/
def readQuoted? : List UInt8 → Option (List UInt8 × List UInt8)
  | [] => none
  | b :: rest => if b = 0x22 then readInner? rest else none

/-- The number of backslashes that a text ends with. -/
def backslashes (text : List UInt8) : Nat := (text.reverse.takeWhile (· = 0x5C)).length

/-- The last byte of a text is a backslash that escapes what comes next. Of two backslashes in a row the first escapes
the second, so the number of them is odd. -/
def Escapes (before : List UInt8) : Prop := Odd (backslashes before)

/-! ### Bytes inside quotes -/

/-- How a byte is written inside the quotes. -/
def quotedByte (b : UInt8) : List UInt8 := (quotedChar (Char.ofUInt8 b)).map Char.toUInt8

theorem quoteBytes_eq (bytes : List UInt8) : quoteBytes bytes = 0x22 :: bytes.flatMap quotedByte ++ [0x22] := by
  simp only [quoteBytes, quoteChars, List.flatMap_map, List.map_append, List.map_cons, List.map_nil, List.map_flatMap]
  rfl

private theorem toUInt8_ofUInt8 (b : UInt8) : (Char.ofUInt8 b).toUInt8 = b := by
  rw [Char.ofUInt8, Char.toUInt8]
  simp

private theorem ofUInt8_ne {b : UInt8} {c : Char} (h : b ≠ c.toUInt8) : Char.ofUInt8 b ≠ c := by
  rintro rfl
  exact h (toUInt8_ofUInt8 b).symm

/-- A byte is written as an escape of one letter, as one of three digits, or as it is. -/
theorem quotedByte_cases (b : UInt8) :
    (∃ letter, escaped? letter = some b ∧ 0x20 ≤ letter ∧ letter ≠ 0x7F ∧ quotedByte b = [0x5C, letter]) ∨
    quotedByte b = 0x5C :: (octalDigits b.toNat).map Char.toUInt8 ∨
    (0x20 ≤ b ∧ b ≠ 0x7F ∧ b ≠ 0x22 ∧ b ≠ 0x5C ∧ quotedByte b = [b]) := by
  by_cases hbackslash : b = 0x5C
  · subst hbackslash
    exact .inl ⟨0x5C, rfl, by decide, by decide, rfl⟩
  by_cases hquote : b = 0x22
  · subst hquote
    exact .inl ⟨0x22, rfl, by decide, by decide, rfl⟩
  by_cases hline : b = 0x0A
  · subst hline
    exact .inl ⟨0x6E, rfl, by decide, by decide, rfl⟩
  by_cases htab : b = 0x09
  · subst htab
    exact .inl ⟨0x74, rfl, by decide, by decide, rfl⟩
  have hchar : quotedChar (Char.ofUInt8 b) =
      if b.toNat < 0x20 || b.toNat = 0x7F then '\\' :: octalDigits b.toNat
      else [Char.ofUInt8 b] := by
    rw [quotedChar, if_neg (ofUInt8_ne hbackslash), if_neg (ofUInt8_ne hquote), if_neg (ofUInt8_ne hline),
      if_neg (ofUInt8_ne htab)]
    rfl
  rw [quotedByte, hchar]
  split
  · exact .inr (.inl rfl)
  · rename_i hplain
    have hlow : ¬b.toNat < 0x20 ∧ b.toNat ≠ 0x7F := by simpa using hplain
    refine .inr (.inr ⟨?_, ?_, hquote, hbackslash, ?_⟩)
    · exact UInt8.le_iff_toNat_le.2 (Nat.le_of_not_lt hlow.1)
    · rintro rfl
      exact hlow.2 rfl
    · rw [List.map_singleton, toUInt8_ofUInt8]

/-! ### Octal digits -/

private theorem isOctal_digit {d : Nat} (h : d < 8) : isOctal (Char.ofNat (48 + d)).toUInt8 = true ∧
    (Char.ofNat (48 + d)).toUInt8 - 0x30 = UInt8.ofNat d := by
  interval_cases d <;> decide

private theorem ne_of_isOctal {b c : UInt8} (h : isOctal b = true) (hc : isOctal c = false) : b ≠ c := by
  rintro rfl
  rw [h] at hc
  cases hc

private theorem escaped?_of_isOctal {b : UInt8} (h : isOctal b = true) : escaped? b = none := by
  rw [escaped?, if_neg (ne_of_isOctal h rfl), if_neg (ne_of_isOctal h rfl), if_neg (ne_of_isOctal h rfl),
    if_neg (ne_of_isOctal h rfl)]

/-- The three digits of a byte are octal digits, and stand for the byte. -/
theorem octalDigits_bytes (b : UInt8) :
    ∃ x y z, (octalDigits b.toNat).map Char.toUInt8 = [x, y, z] ∧ isOctal x = true ∧ isOctal y = true ∧
      isOctal z = true ∧ octalValue [x, y, z] = b := by
  have hhigh := isOctal_digit (Nat.mod_lt (b.toNat / 64) (by decide : 0 < 8))
  have hmid := isOctal_digit (Nat.mod_lt (b.toNat / 8) (by decide : 0 < 8))
  have hlow := isOctal_digit (Nat.mod_lt b.toNat (by decide : 0 < 8))
  refine ⟨_, _, _, rfl, hhigh.1, hmid.1, hlow.1, ?_⟩
  have hb : b.toNat < 256 := b.toNat_lt
  have hvalue : (b.toNat / 64 % 8 * 8 + b.toNat / 8 % 8) * 8 + b.toNat % 8 = b.toNat := by omega
  calc octalValue _
      = (UInt8.ofNat (b.toNat / 64 % 8) * 8 + UInt8.ofNat (b.toNat / 8 % 8)) * 8 + UInt8.ofNat (b.toNat % 8) := by
        simp only [octalValue, List.foldl_cons, List.foldl_nil]
        rw [← hhigh.2, ← hmid.2, ← hlow.2]
        simp
    _ = UInt8.ofNat ((b.toNat / 64 % 8 * 8 + b.toNat / 8 % 8) * 8 + b.toNat % 8) := by
        simp
    _ = b := by rw [hvalue, UInt8.ofNat_toNat]

/-! ### Reading what was written -/

private theorem readInner?_escape {c : UInt8} {length : Nat} {text : List UInt8}
    (h : readEscape? text = some (c, length)) :
    readInner? (0x5C :: text) = (readInner? (text.drop length)).map (Prod.map (c :: ·) id) := by
  rw [readInner?, if_neg (by decide), if_pos rfl, h]
  rfl

/-- One byte is read back, whatever stands behind it. -/
theorem readInner?_quotedByte (b : UInt8) (rest : List UInt8) :
    readInner? (quotedByte b ++ rest) = (readInner? rest).map (Prod.map (b :: ·) id) := by
  rcases quotedByte_cases b with ⟨letter, hletter, -, -, heq⟩ | heq | ⟨-, -, hquote, hbackslash, heq⟩
  · have hescape : readEscape? (letter :: rest) = some (b, 1) := by simp [readEscape?, hletter]
    rw [heq]
    exact readInner?_escape hescape
  · -- the digits are all there, so none of the rest belongs to the escape
    obtain ⟨x, y, z, hdigits, hx, hy, hz, hvalue⟩ := octalDigits_bytes b
    have hescape : readEscape? (x :: y :: z :: rest) = some (b, 3) := by
      simp [readEscape?, escaped?_of_isOctal hx, hx, hy, hz, hvalue]
    rw [heq, hdigits]
    exact readInner?_escape hescape
  · rw [heq, List.singleton_append, readInner?, if_neg hquote, if_neg hbackslash]

theorem readInner?_quoted (bytes rest : List UInt8) :
    readInner? (bytes.flatMap quotedByte ++ 0x22 :: rest) = some (bytes, rest) := by
  induction bytes with
  | nil => rw [List.flatMap_nil, List.nil_append, readInner?, if_pos rfl]
  | cons b bytes ih =>
    rw [List.flatMap_cons, List.append_assoc, readInner?_quotedByte, ih]
    rfl

/-! ### No early end -/

private theorem printable_of_isOctal {b : UInt8} (h : isOctal b = true) : 0x20 ≤ b ∧ b ≠ 0x7F := by
  refine ⟨?_, ne_of_isOctal h rfl⟩
  rw [isOctal, Bool.and_eq_true, decide_eq_true_iff] at h
  exact UInt8.le_trans (by decide) h.1

theorem printable_of_mem_quotedByte {b c : UInt8} (h : c ∈ quotedByte b) : 0x20 ≤ c ∧ c ≠ 0x7F := by
  rcases quotedByte_cases b with ⟨letter, -, hlow, hdel, heq⟩ | heq | ⟨hlow, hdel, -, -, heq⟩
  · rw [heq, List.mem_pair] at h
    rcases h with rfl | rfl
    · decide
    · exact ⟨hlow, hdel⟩
  · obtain ⟨x, y, z, hdigits, hx, hy, hz, -⟩ := octalDigits_bytes b
    rw [heq, hdigits] at h
    simp only [List.mem_cons, List.not_mem_nil, or_false] at h
    rcases h with rfl | rfl | rfl | rfl
    · decide
    · exact printable_of_isOctal hx
    · exact printable_of_isOctal hy
    · exact printable_of_isOctal hz
  · rw [heq, List.mem_singleton] at h
    exact h ▸ ⟨hlow, hdel⟩

private theorem backslashes_snoc (text : List UInt8) (b : UInt8) :
    backslashes (text ++ [b]) = if b = 0x5C then backslashes text + 1 else 0 := by
  rw [backslashes, List.reverse_append, List.reverse_singleton, List.singleton_append, List.takeWhile_cons]
  split <;> simp_all [backslashes]

/-- What is written for one byte never leaves a backslash that escapes the next one. -/
theorem even_backslashes_quotedByte {text : List UInt8} (h : Even (backslashes text)) (b : UInt8) :
    Even (backslashes (text ++ quotedByte b)) := by
  rcases quotedByte_cases b with ⟨letter, -, -, -, heq⟩ | heq | ⟨-, -, -, hbackslash, heq⟩
  · rw [heq, ← List.singleton_append, ← List.append_assoc, backslashes_snoc, backslashes_snoc, if_pos rfl]
    split
    · exact h.add_one.add_one
    · exact Even.zero
  · obtain ⟨x, y, z, hdigits, -, -, hz, -⟩ := octalDigits_bytes b
    have hsplit : text ++ 0x5C :: [x, y, z] = (text ++ [0x5C, x, y]) ++ [z] := by simp
    rw [heq, hdigits, hsplit, backslashes_snoc, if_neg (ne_of_isOctal hz rfl)]
    exact Even.zero
  · rw [heq, backslashes_snoc, if_neg hbackslash]
    exact Even.zero

theorem even_backslashes_quoted (bytes : List UInt8) : Even (backslashes (bytes.flatMap quotedByte)) := by
  induction bytes using List.reverseRecOn with
  | nil => exact Even.zero
  | append_singleton bytes b ih =>
    rw [List.flatMap_append, List.flatMap_singleton]
    exact even_backslashes_quotedByte ih b

/-- A quote stands only in the escape of a quote. -/
theorem quotedByte_split {b : UInt8} {before after : List UInt8} (h : quotedByte b = before ++ 0x22 :: after) :
    before = [0x5C] := by
  rcases quotedByte_cases b with ⟨letter, -, -, -, heq⟩ | heq | ⟨-, -, hquote, -, heq⟩
  · rw [heq] at h
    cases before with
    | nil => simp at h
    | cons c tail =>
      rw [List.cons_append, List.cons.injEq] at h
      have hlength := congrArg List.length h.2
      simp only [List.length_append, List.length_cons, List.length_nil] at hlength
      rw [← h.1, List.eq_nil_of_length_eq_zero (by omega : tail.length = 0)]
  · obtain ⟨x, y, z, hdigits, hx, hy, hz, -⟩ := octalDigits_bytes b
    have hmem : (0x22 : UInt8) ∈ [0x5C, x, y, z] := by
      rw [← hdigits, ← heq, h]
      simp
    simp only [List.mem_cons, List.not_mem_nil, or_false] at hmem
    rcases hmem with h | h | h | h
    · cases h
    · exact absurd h.symm (ne_of_isOctal hx rfl)
    · exact absurd h.symm (ne_of_isOctal hy rfl)
    · exact absurd h.symm (ne_of_isOctal hz rfl)
  · have hmem : (0x22 : UInt8) ∈ [b] := by
      rw [← heq, h]
      simp
    exact absurd (List.mem_singleton.1 hmem).symm hquote

/-- Every quote between the outer ones is escaped. -/
theorem escapes_of_quoted_split (bytes : List UInt8) {before after : List UInt8}
    (h : bytes.flatMap quotedByte = before ++ 0x22 :: after) : Escapes before := by
  induction bytes using List.reverseRecOn generalizing after with
  | nil => simp at h
  | append_singleton bytes b ih =>
    rw [List.flatMap_append, List.flatMap_singleton] at h
    rcases List.append_eq_append_iff.1 h with ⟨inner, hbefore, hb⟩ | ⟨inner, hbytes, hb⟩
    · -- the quote is part of what is written for the last byte
      rw [hbefore, quotedByte_split hb, Escapes, backslashes_snoc, if_pos rfl]
      exact (even_backslashes_quoted bytes).add_one
    · cases inner with
      | nil =>
        have hnil : ([] : List UInt8) = [0x5C] := quotedByte_split hb.symm
        cases hnil
      | cons c inner =>
        rw [List.cons_append, List.cons.injEq] at hb
        rw [← hb.1] at hbytes
        exact ih hbytes

/-! ### Texts -/

private theorem encode_ofList (text : List Char) :
    Text.Utf8.encode (String.ofList text) = text.flatMap String.utf8EncodeChar := by
  simp [Text.Utf8.encode, String.toUTF8, List.utf8Encode]

private theorem encode_append (s t : String) :
    Text.Utf8.encode (s ++ t) = Text.Utf8.encode s ++ Text.Utf8.encode t := by
  simp [Text.Utf8.encode]

/-- A character beyond ASCII is encoded in bytes beyond ASCII. -/
private theorem le_of_mem_utf8EncodeChar {c : Char} (hc : 127 < c.toNat) {b : UInt8} (h : b ∈ String.utf8EncodeChar c) :
    128 ≤ b.toNat := by
  have hvalue : c.val.toNat = c.toNat := rfl
  rw [String.utf8EncodeChar] at h
  simp only [hvalue, if_neg (Nat.not_le.2 hc)] at h
  split at h
  · simp at h
    rcases h with rfl | rfl <;> simp <;> omega
  · split at h
    · simp at h
      rcases h with rfl | rfl | rfl <;> simp <;> omega
    · simp at h
      rcases h with rfl | rfl | rfl | rfl <;> simp <;> omega

private theorem quotedChar_of_lt {c : Char} (hc : 127 < c.toNat) : quotedChar c = [c] := by
  have hne : ∀ d : Char, d.toNat ≤ 127 → c ≠ d := by
    rintro d hd rfl
    omega
  rw [quotedChar, if_neg (hne _ (by decide)), if_neg (hne _ (by decide)), if_neg (hne _ (by decide)),
    if_neg (hne _ (by decide)), if_neg]
  simp only [Bool.or_eq_true, decide_eq_true_eq]
  omega

private theorem quotedByte_of_le {b : UInt8} (hb : 128 ≤ b.toNat) : quotedByte b = [b] := by
  have hchar : quotedChar (Char.ofUInt8 b) = [Char.ofUInt8 b] := quotedChar_of_lt hb
  rw [quotedByte, hchar, List.map_singleton, toUInt8_ofUInt8]

/-- An ASCII character is written in ASCII. -/
private theorem ascii_of_mem_quotedChar {c d : Char} (hc : c.toNat ≤ 127) (h : d ∈ quotedChar c) : d.toNat ≤ 127 := by
  have hdigit : ∀ n, n < 8 → (Char.ofNat (48 + n)).toNat ≤ 127 := by decide
  have hletters : ∀ {letter : Char}, letter.toNat ≤ 127 → d ∈ ['\\', letter] → d.toNat ≤ 127 := by
    intro letter hl hd
    rcases List.mem_pair.1 hd with rfl | rfl
    · decide
    · exact hl
  unfold quotedChar at h
  split at h
  · exact hletters (by decide) h
  split at h
  · exact hletters (by decide) h
  split at h
  · exact hletters (by decide) h
  split at h
  · exact hletters (by decide) h
  split at h
  · simp only [octalDigits, List.mem_cons, List.mem_map, List.not_mem_nil, or_false] at h
    rcases h with rfl | ⟨n, hn, rfl⟩
    · decide
    · exact hdigit n (by omega)
  · rw [List.mem_singleton] at h
    exact h ▸ hc

private theorem utf8EncodeChar_of_ascii {c : Char} (hc : c.toNat ≤ 127) : String.utf8EncodeChar c = [c.toUInt8] := by
  have hvalue : c.val.toNat = c.toNat := rfl
  rw [String.utf8EncodeChar]
  simp only [hvalue, if_pos hc, Char.toUInt8, UInt32.toUInt8]

private theorem ofUInt8_toUInt8 {c : Char} (hc : c.toNat ≤ 127) : Char.ofUInt8 c.toUInt8 = c := by
  have hsame : c.val.toUInt8.toUInt32.toNat = c.val.toNat := by
    rw [UInt8.toNat_toUInt32, UInt32.toNat_toUInt8]
    exact Nat.mod_eq_of_lt (Nat.lt_of_le_of_lt hc (by decide))
  exact Char.ext (UInt32.toNat_inj.1 hsame)

/-- A character can be quoted before or after it is encoded. -/
theorem encode_quotedChar (c : Char) :
    (quotedChar c).flatMap String.utf8EncodeChar = (String.utf8EncodeChar c).flatMap quotedByte := by
  by_cases hc : c.toNat ≤ 127
  · rw [utf8EncodeChar_of_ascii hc, List.flatMap_singleton, quotedByte, ofUInt8_toUInt8 hc, ← List.flatMap_pure_eq_map]
    exact List.flatMap_congr fun d hd => utf8EncodeChar_of_ascii (ascii_of_mem_quotedChar hc hd)
  · have hlt : 127 < c.toNat := Nat.lt_of_not_le hc
    have hbytes : (String.utf8EncodeChar c).flatMap quotedByte = (String.utf8EncodeChar c).flatMap fun b => [b] :=
      List.flatMap_congr fun b hb => quotedByte_of_le (le_of_mem_utf8EncodeChar hlt hb)
    rw [quotedChar_of_lt hlt, List.flatMap_singleton, hbytes, List.flatMap_singleton']

/-- The bytes of a quoted text are its bytes, quoted. -/
theorem encode_quote (text : String) : Text.Utf8.encode (quote text) = quoteBytes (Text.Utf8.encode text) := by
  have htext : Text.Utf8.encode text = text.toList.flatMap String.utf8EncodeChar := by
    rw [← encode_ofList, String.ofList_toList]
  rw [quote, encode_ofList, htext, quoteBytes_eq, quoteChars, List.flatMap_append, List.flatMap_cons,
    List.flatMap_assoc, List.flatMap_assoc, List.flatMap_congr fun c _ => encode_quotedChar c]
  rfl

/-- String literals reach the assembler unchanged. What is written for a sequence of bytes is read as these bytes,
and reading ends at the last quote, whatever follows. Between the outer quotes there are no control bytes, and
every quote is escaped. The bytes of a text are written in this form in the line of its directive. -/
theorem quoted_bytes_read_back (bytes : List UInt8) :
    (∀ rest, readQuoted? (quoteBytes bytes ++ rest) = some (bytes, rest)) ∧
    (∃ inner, quoteBytes bytes = 0x22 :: inner ++ [0x22] ∧ (∀ b ∈ inner, 0x20 ≤ b ∧ b ≠ 0x7F) ∧
      ∀ before after, inner = before ++ 0x22 :: after → Escapes before) ∧
    ∀ text, Text.Utf8.encode (Line.string text).text =
      Text.Utf8.encode "    .string " ++ quoteBytes (Text.Utf8.encode text) := by
  refine ⟨fun rest => ?_, ⟨bytes.flatMap quotedByte, quoteBytes_eq bytes, fun b hb => ?_, fun before after h => ?_⟩,
    fun text => ?_⟩
  · rw [quoteBytes_eq, List.append_assoc, List.cons_append, readQuoted?, if_pos rfl]
    exact readInner?_quoted bytes rest
  · obtain ⟨c, -, hc⟩ := List.mem_flatMap.1 hb
    exact printable_of_mem_quotedByte hc
  · exact escapes_of_quoted_split bytes h
  · rw [Line.text, encode_append, encode_quote]

/-- A zero byte before a digit, a backslash before a quote, and a byte that belongs to no character. -/
theorem zero_before_digit_reads_back :
    quoteBytes [0x00, 0x37, 0x5C, 0x22, 0xFF] =
      [0x22, 0x5C, 0x30, 0x30, 0x30, 0x37, 0x5C, 0x5C, 0x5C, 0x22, 0xFF, 0x22] ∧
    readQuoted? (quoteBytes [0x00, 0x37, 0x5C, 0x22, 0xFF] ++ [0x0A]) = some ([0x00, 0x37, 0x5C, 0x22, 0xFF], [0x0A]) ∧
    Escapes [0x5C, 0x30, 0x30, 0x30, 0x37, 0x5C, 0x5C, 0x5C] := by
  have hread := quoted_bytes_read_back [0x00, 0x37, 0x5C, 0x22, 0xFF]
  obtain ⟨inner, hinner, -, hescapes⟩ := hread.2.1
  have hquoted : quoteBytes [0x00, 0x37, 0x5C, 0x22, 0xFF] =
      0x22 :: [0x5C, 0x30, 0x30, 0x30, 0x37, 0x5C, 0x5C, 0x5C, 0x22, 0xFF] ++ [0x22] := by decide
  rw [hquoted, List.append_left_inj, List.cons.injEq] at hinner
  exact ⟨hquoted, hread.1 [0x0A], hescapes _ [0xFF] hinner.2.symm⟩

end Arvore.Assembly
