import Mathlib
import Arvore.Proofs.Numeral.Shortest

/-!
# Real literals are read back

A text that is put together from the parts of a number literal is read as the decimal of its digits and its exponent
(`Decimal.read?_of_spells`). The texts that reals are written with are of this form, and the decimal is the shortest one
of the number, so the number is read back (`Real.read_literal`), whatever its sign.
-/

namespace Arvore

namespace Decimal

open Numeral (IsDigitRun IsSign IsFraction IsPower Spells)

/-! ### Reading the parts of a literal -/

/-- A text that does not begin with a digit. -/
def NoDigit (text : List Char) : Prop := ∀ c ∈ text.head?, c.isDigit = false

theorem takeWhile_digits {digits rest : List Char} (hd : ∀ c ∈ digits, c.isDigit = true) (hr : NoDigit rest) :
    (digits ++ rest).takeWhile Char.isDigit = digits ∧ (digits ++ rest).dropWhile Char.isDigit = rest := by
  rw [List.takeWhile_append_of_pos hd, List.dropWhile_append_of_pos hd]
  cases rest with
  | nil => simp
  | cons c rest =>
    have hc : ¬c.isDigit = true := by simp [hr c rfl]
    rw [List.takeWhile_cons_of_neg hc, List.dropWhile_cons_of_neg hc, List.append_nil]
    exact ⟨rfl, rfl⟩

theorem noDigit_power {power : List Char} (h : IsPower power) : NoDigit power := by
  rcases h with rfl | ⟨c, sign, digits, rfl, rfl | rfl, -⟩ <;> simp [NoDigit]

theorem noDigit_fraction {fraction power : List Char} (hf : IsFraction fraction) (hp : IsPower power) :
    NoDigit (fraction ++ power) := by
  rcases hf with rfl | ⟨digits, rfl, -⟩
  · exact noDigit_power hp
  · simp [NoDigit]

theorem takeSign_append {sign whole rest : List Char} (hs : IsSign sign) (hw : IsDigitRun whole) :
    takeSign (sign ++ (whole ++ rest)) = (decide (sign = ['-']), whole ++ rest) := by
  rcases hs with rfl | rfl | rfl
  · obtain ⟨c, digits, rfl⟩ := List.exists_cons_of_ne_nil hw.1
    have hc := hw.2 c List.mem_cons_self
    rw [List.nil_append, List.cons_append]
    unfold takeSign
    split
    · rename_i heq
      cases heq
      exact absurd hc (by decide)
    · rename_i heq
      cases heq
      exact absurd hc (by decide)
    · rfl
  · rfl
  · rfl

theorem takeFraction_append {fraction power : List Char} (hf : IsFraction fraction) (hp : IsPower power) :
    takeFraction (fraction ++ power) = (fraction.tail, power) := by
  rcases hf with rfl | ⟨digits, rfl, hd⟩
  · rcases hp with rfl | ⟨c, sign, digits, rfl, rfl | rfl, -⟩ <;> rfl
  · obtain ⟨htake, hdrop⟩ := takeWhile_digits hd.2 (noDigit_power hp)
    rw [List.cons_append, takeFraction, htake, hdrop]
    rfl

/-- A number literal is read as the decimal of its digits, with the exponent moved by the places behind the point. -/
theorem read?_of_spells {text sign whole fraction power : List Char} (h : Spells text sign whole fraction power)
    {n : Int} (hn : readExponent? power = some n) :
    read? text =
      some ⟨decide (sign = ['-']), digitsValue (whole ++ fraction.tail), n - fraction.tail.length⟩ := by
  obtain ⟨htake, hdrop⟩ := takeWhile_digits h.whole.2 (noDigit_fraction h.fraction h.power)
  have hwhole : whole.isEmpty = false := by simpa using h.whole.1
  unfold read?
  rw [h.text_eq, takeSign_append h.sign h.whole]
  dsimp only
  rw [htake, hdrop, takeFraction_append h.fraction h.power]
  dsimp only
  rw [hwhole, hn]
  rfl

/-! ### Exponents -/

/-- An exponent of at most four digits counts in full. -/
theorem exponentValue_eq {digits : List Char} (h : digitsValue digits < 10000) :
    exponentValue digits = digitsValue digits := by
  induction digits using List.reverseRecOn with
  | nil => rfl
  | append_singleton digits c ih =>
    have hexponent : exponentValue (digits ++ [c]) =
        if exponentValue digits < 10000 then exponentValue digits * 10 + (c.toNat - '0'.toNat)
        else exponentValue digits := by
      simp [exponentValue]
    rw [digitsValue_snoc] at h
    rw [hexponent, ih (by omega), if_pos (by omega), digitsValue_snoc]

end Decimal

namespace Numeral

theorem isDigitRun_toDigits (n : Nat) : IsDigitRun (Nat.toDigits 10 n) :=
  ⟨Nat.toDigits_ne_nil, fun _ hc => Nat.isDigit_of_mem_toDigits (by decide) (by decide) hc⟩

private theorem isDigit_zeros {n : Nat} {c : Char} (h : c ∈ List.replicate n '0') : c.isDigit = true := by
  rw [List.eq_of_mem_replicate h]
  decide

theorem IsDigitRun.zeros_append {digits : List Char} (h : IsDigitRun digits) (n : Nat) :
    IsDigitRun (List.replicate n '0' ++ digits) :=
  ⟨by simp [h.1], fun c hc => (List.mem_append.1 hc).elim isDigit_zeros (h.2 c)⟩

theorem IsDigitRun.append_zeros {digits : List Char} (h : IsDigitRun digits) (n : Nat) :
    IsDigitRun (digits ++ List.replicate n '0') :=
  ⟨by simp [h.1], fun c hc => (List.mem_append.1 hc).elim (h.2 c) isDigit_zeros⟩

end Numeral

/-- An exponent with its sign, and with zeros at the front. -/
theorem Decimal.readExponent?_append (p : Int) (zeros : Nat) (h : p.natAbs < 10000) :
    readExponent? ('e' :: ([if p < 0 then '-' else '+'] ++ (List.replicate zeros '0' ++ Nat.toDigits 10 p.natAbs))) =
      some p := by
  set digits := List.replicate zeros '0' ++ Nat.toDigits 10 p.natAbs with hdigits
  have hvalue : digitsValue digits = p.natAbs := by rw [hdigits, digitsValue_zeros_append, digitsValue_toDigits]
  have hexponent : exponentValue digits = p.natAbs := by rw [exponentValue_eq (by omega), hvalue]
  have hrun : Numeral.IsDigitRun digits := (Numeral.isDigitRun_toDigits p.natAbs).zeros_append zeros
  have hempty : digits.isEmpty = false := by simpa using hrun.1
  have hall : digits.all Char.isDigit = true := List.all_eq_true.2 hrun.2
  unfold readExponent?
  dsimp only
  by_cases hp : p < 0
  · rw [if_pos hp, List.singleton_append, takeSign, hempty, hall, hexponent]
    exact congrArg some (show -(p.natAbs : Int) = p by omega)
  · rw [if_neg hp, List.singleton_append, takeSign, hempty, hall, hexponent]
    exact congrArg some (show (p.natAbs : Int) = p by omega)

namespace Real

open Numeral (IsDigitRun IsSign IsFraction IsPower Spells)

/-! ### The forms in which numbers are written -/

/-- A text without a sign that is a real literal and stands for the number `q`. -/
inductive Written (text : List Char) (q : ℚ) : Prop
  | intro {whole fraction power : List Char} {n : Int} (h : Spells text [] whole fraction power)
      (hreal : fraction ≠ [] ∨ power ≠ []) (hn : Decimal.readExponent? power = some n)
      (hq : (Decimal.digitsValue (whole ++ fraction.tail) : ℚ) * 10 ^ (n - fraction.tail.length) = q) : Written text q

section Digits

variable {digits : List Char} (hd : IsDigitRun digits)

include hd

theorem written_scientific {p : Int} (hp : p.natAbs < 10000) :
    Written (scientific digits p) (Decimal.digitsValue digits * 10 ^ (p + 1 - digits.length)) := by
  obtain ⟨c, rest, rfl⟩ := List.exists_cons_of_ne_nil hd.1
  set zeros := 2 - (Nat.toDigits 10 p.natAbs).length with hzeros
  set power := 'e' :: ([if p < 0 then '-' else '+'] ++ (List.replicate zeros '0' ++ Nat.toDigits 10 p.natAbs))
    with hpower
  set fraction := if (c :: rest).length ≤ 1 then [] else '.' :: rest with hfraction
  have htail : fraction.tail = rest := by
    rw [hfraction]
    split
    · rename_i hlength
      exact (List.length_eq_zero_iff.1 (by simpa using hlength)).symm
    · rfl
  have hspells : Spells (scientific (c :: rest) p) [] [c] fraction power := by
    refine ⟨?_, .inl rfl, ⟨by simp, fun d h => hd.2 d (by simp_all)⟩, ?_, ?_⟩
    · simp [scientific, hfraction, hpower, hzeros]
    · rw [hfraction]
      split
      · exact .inl rfl
      · rename_i hlength
        exact .inr ⟨rest, rfl, by rintro rfl; simp at hlength, fun d h => hd.2 d (List.mem_cons_of_mem _ h)⟩
    · refine .inr ⟨'e', _, _, rfl, .inl rfl, ?_, (Numeral.isDigitRun_toDigits _).zeros_append zeros⟩
      split <;> simp [IsSign]
  refine .intro hspells (.inr (by simp [hpower])) (Decimal.readExponent?_append p zeros hp) ?_
  rw [htail, List.singleton_append, List.length_cons]
  congr 2
  push_cast
  ring

/-- A number below one has zeros behind the point. -/
theorem written_below {p : Int} (hp : p < 0) :
    Written (positional digits p) (Decimal.digitsValue digits * 10 ^ (p + 1 - digits.length)) := by
  set zeros := (-p - 1).toNat with hzeros
  have hspells : Spells (positional digits p) [] ['0'] ('.' :: (List.replicate zeros '0' ++ digits)) [] := by
    refine ⟨?_, .inl rfl, ⟨by simp, by simp⟩, .inr ⟨_, rfl, hd.zeros_append zeros⟩, .inl rfl⟩
    simp [positional, hp, hzeros]
  have hzero : ['0'] ++ (List.replicate zeros '0' ++ digits) = List.replicate (zeros + 1) '0' ++ digits := by
    rw [List.replicate_succ]
    rfl
  refine .intro hspells (.inl (by simp)) rfl ?_
  rw [List.tail_cons, hzero, Decimal.digitsValue_zeros_append, List.length_append, List.length_replicate]
  congr 2
  omega

/-- A number with fewer digits than stand before the point has zeros behind them, and one more behind the point. -/
theorem written_whole {p : Int} (hp : ¬p < 0) (hlength : digits.length ≤ p.toNat + 1) :
    (∀ c ∈ positional digits p, c.isDigit = true) ∧
      Written (positional digits p ++ ['.', '0']) (Decimal.digitsValue digits * 10 ^ (p + 1 - digits.length)) := by
  set zeros := p.toNat + 1 - digits.length with hzeros
  have htext : positional digits p = digits ++ List.replicate zeros '0' := by simp [positional, hp, hlength, hzeros]
  have hrun := hd.append_zeros zeros
  have hspells : Spells (positional digits p ++ ['.', '0']) [] (digits ++ List.replicate zeros '0') ['.', '0'] [] :=
    ⟨by simp [htext], .inl rfl, hrun, .inr ⟨['0'], rfl, by simp, by simp⟩, .inl rfl⟩
  have hzero : digits ++ List.replicate zeros '0' ++ ['0'] = digits ++ List.replicate (zeros + 1) '0' := by
    rw [List.replicate_succ', List.append_assoc]
  have hexponent : p + 1 - digits.length = (zeros + 1 : Nat) + (0 - 1 : Int) := by omega
  refine ⟨by rw [htext]; exact hrun.2, .intro hspells (.inl (by simp)) rfl ?_⟩
  rw [List.tail_cons, hzero, Decimal.digitsValue_append_zeros, hexponent, zpow_add₀ (by norm_num), zpow_natCast,
    List.length_singleton]
  push_cast
  ring

/-- A number with digits on both sides of the point. -/
theorem written_across {p : Int} (hp : ¬p < 0) (hlength : ¬digits.length ≤ p.toNat + 1) :
    '.' ∈ positional digits p ∧
      Written (positional digits p) (Decimal.digitsValue digits * 10 ^ (p + 1 - digits.length)) := by
  have htext : positional digits p = digits.take (p.toNat + 1) ++ '.' :: digits.drop (p.toNat + 1) := by
    simp [positional, hp, hlength]
  have hspells : Spells (positional digits p) [] (digits.take (p.toNat + 1)) ('.' :: digits.drop (p.toNat + 1)) [] := by
    refine ⟨by simp [htext], .inl rfl, ⟨?_, fun c hc => hd.2 c (List.mem_of_mem_take hc)⟩,
      .inr ⟨_, rfl, ?_, fun c hc => hd.2 c (List.mem_of_mem_drop hc)⟩, .inl rfl⟩
    · simp [hd.1]
    · rw [ne_eq, List.drop_eq_nil_iff]
      exact hlength
  refine ⟨by simp [htext], .intro hspells (.inl (by simp)) rfl ?_⟩
  rw [List.tail_cons, List.take_append_drop, List.length_drop]
  congr 2
  omega

end Digits

/-- The marks of a real: a point, or the letter of an exponent. -/
def isMark (c : Char) : Bool := c = '.' || c = 'e'

theorem not_any_isMark {text : List Char} (h : ∀ c ∈ text, c.isDigit = true) : text.any isMark = false := by
  refine List.any_eq_false.2 fun c hc hmark => ?_
  simp only [isMark, Bool.or_eq_true, decide_eq_true_eq] at hmark
  rcases hmark with rfl | rfl
  · exact absurd (h _ hc) (by decide)
  · exact absurd (h _ hc) (by decide)

/-- A text that is marked as a real. -/
def marked (text : List Char) : List Char := if text.any isMark then text else text ++ ['.', '0']

/-- The digits of a number, marked as a real. -/
theorem written_marked {digits : List Char} (hd : IsDigitRun digits) {p : Int} (hp : p.natAbs < 10000) :
    Written (marked (if p < -4 || 6 ≤ p then scientific digits p else positional digits p))
      (Decimal.digitsValue digits * 10 ^ (p + 1 - digits.length)) := by
  have keep : ∀ {text : List Char} {c : Char}, c ∈ text → isMark c = true → marked text = text := by
    intro text c hc hmark
    rw [marked, if_pos (List.any_eq_true.2 ⟨c, hc, hmark⟩)]
  split
  · rw [keep (c := 'e') (by simp [scientific]) rfl]
    exact written_scientific hd hp
  · by_cases hneg : p < 0
    · rw [keep (c := '.') (by simp [positional, hneg]) rfl]
      exact written_below hd hneg
    · by_cases hlength : digits.length ≤ p.toNat + 1
      · obtain ⟨hdigits, hwritten⟩ := written_whole hd hneg hlength
        rw [marked, not_any_isMark hdigits, if_neg (by decide)]
        exact hwritten
      · obtain ⟨hpoint, hwritten⟩ := written_across hd hneg hlength
        rw [keep hpoint rfl]
        exact hwritten

/-- The sign of a number. -/
def signText (negative : Bool) : List Char := if negative then ['-'] else []

theorem isSign_signText (negative : Bool) : IsSign (signText negative) := by
  cases negative <;> simp [signText, IsSign]

theorem marked_append (negative : Bool) (text : List Char) :
    marked (signText negative ++ text) = signText negative ++ marked text := by
  have hany : (signText negative ++ text).any isMark = text.any isMark := by
    cases negative <;> simp [signText, isMark]
  rw [marked, hany, marked]
  split
  · rfl
  · rw [List.append_assoc]

/-- A number is written as its sign and a real literal for a decimal that is rounded to it. -/
theorem literal_written {x : Binary64} (hn : Binary64.Normal x.mantissa x.exponent) :
    ∃ text q, literal x = signText x.negative ++ text ∧ Written text q ∧ (x.mantissa = 0 → q = 0) ∧
      (0 < x.mantissa → Binary64.Rounds x.mantissa x.exponent q) := by
  have hliteral : literal x = marked (write x) := rfl
  rw [hliteral]
  unfold write
  dsimp only
  change ∃ text q, marked (if x.mantissa = 0 then signText x.negative ++ ['0'] else signText x.negative ++ _) = _ ∧ _
  split
  · rename_i hzero
    refine ⟨_, 0, marked_append _ _, ?_, fun _ => rfl, fun hpos => absurd hzero hpos.ne'⟩
    have hspells : Spells (marked ['0']) [] ['0'] ['.', '0'] [] :=
      ⟨rfl, .inl rfl, ⟨by simp, by simp⟩, .inr ⟨['0'], rfl, by simp, by simp⟩, .inl rfl⟩
    exact .intro hspells (.inl (by simp)) rfl (by simp [Decimal.digitsValue])
  · rename_i hzero
    cases hshortest : Binary64.shortest x.mantissa x.exponent with
    | mk digits p =>
      obtain ⟨hd, hrounds, hlow, hhigh⟩ := Binary64.shortest_rounds hn (Nat.pos_of_ne_zero hzero) hshortest
      exact ⟨_, _, marked_append _ _, written_marked hd (by omega), fun h => absurd h hzero, fun _ => hrounds⟩

/-! ### Reading back -/

theorem spells_signed {text whole fraction power : List Char} (h : Spells text [] whole fraction power)
    (negative : Bool) : Spells (signText negative ++ text) (signText negative) whole fraction power :=
  ⟨by rw [h.text_eq, List.nil_append], isSign_signText negative, h.whole, h.fraction, h.power⟩

/-- A sign and a real literal are a real literal. -/
theorem Written.spells {text : List Char} {q : ℚ} (h : Written text q) (negative : Bool) :
    ∃ whole fraction power, Spells (signText negative ++ text) (signText negative) whole fraction power ∧
      (fraction ≠ [] ∨ power ≠ []) := by
  obtain ⟨hspells, hreal, -, -⟩ := h
  exact ⟨_, _, _, spells_signed hspells negative, hreal⟩

theorem Written.read? {text : List Char} {q : ℚ} (h : Written text q) (negative : Bool) :
    ∃ d, Decimal.read? (signText negative ++ text) = some d ∧ d.negative = negative ∧ d.absolute = q := by
  obtain ⟨hspells, -, hn, hq⟩ := h
  exact ⟨_, Decimal.read?_of_spells (spells_signed hspells negative) hn, by cases negative <;> rfl, hq⟩

theorem normal_of_read {text : List Char} {x : Binary64} (h : Real.read text = .ok x) :
    Binary64.Normal x.mantissa x.exponent := by
  obtain ⟨d, -, hx⟩ := Real.read_eq_ok_iff.1 h
  exact (Binary64.normal_of_ofDecimal? hx).1

/-- A number is read back from the text that it is written with. -/
theorem read_literal {x : Binary64} (hn : Binary64.Normal x.mantissa x.exponent) : Real.read (literal x) = .ok x := by
  obtain ⟨text, q, htext, hwritten, hzero, hrounds⟩ := literal_written hn
  obtain ⟨d, hd, hnegative, habsolute⟩ := hwritten.read? x.negative
  have hround : Binary64.ofDecimal? d = some x := by
    rcases Nat.eq_zero_or_pos x.mantissa with hm | hm
    · -- zero keeps its sign
      have hexponent : x.exponent = Binary64.leastExponent := by
        refine hn.full.resolve_right fun hfull => ?_
        rw [hm] at hfull
        exact absurd hfull (by decide)
      have hdigits : d.digits = 0 := by
        rw [hzero hm, Decimal.absolute, mul_eq_zero, or_iff_left (by positivity)] at habsolute
        exact_mod_cast habsolute
      unfold Binary64.ofDecimal?
      dsimp only
      rw [hdigits, if_pos (by simp), hnegative, ← hm, ← hexponent]
    · rw [Binary64.ofDecimal?_eq_some hn hm (habsolute ▸ hrounds hm), hnegative]
  rw [htext]
  exact Real.read_eq_ok_iff.2 ⟨d, hd, hround⟩

end Real

namespace Numeral

theorem Spells.dropLineEnd {text sign whole fraction power : List Char} (h : Spells text sign whole fraction power) :
    dropLineEnd text = text := by
  refine dropLineEnd_eq_self ?_
  have hfraction : '\n' ∉ fraction := by
    rcases h.fraction with rfl | ⟨digits, rfl, hdigits⟩
    · exact List.not_mem_nil
    · exact List.not_mem_cons_of_ne_of_not_mem (by decide) (lineEnd_not_mem_of_digits hdigits.2)
  rw [h.text_eq]
  simp only [List.mem_append, not_or]
  exact ⟨h.sign.lineEnd_not_mem, lineEnd_not_mem_of_digits h.whole.2, hfraction, h.power.lineEnd_not_mem⟩

theorem isExponent_of_isPower {power : List Char} (h : IsPower power) : isExponent power = true := by
  rcases h with rfl | ⟨c, sign, digits, rfl, hc, hs, hd⟩
  · rfl
  · have hsign : Decimal.takeSign (sign ++ (digits ++ [])) = (decide (sign = ['-']), digits ++ []) :=
      Decimal.takeSign_append hs hd
    rw [List.append_nil] at hsign
    rw [isExponent, hsign, isDigits_iff.2 hd]
    simpa using hc

theorem dropFraction_append {fraction power : List Char} (hf : IsFraction fraction) (hp : IsPower power) :
    dropFraction (fraction ++ power) = power := by
  rcases hf with rfl | ⟨digits, rfl, hd⟩
  · rcases hp with rfl | ⟨c, sign, digits, rfl, rfl | rfl, -⟩ <;> rfl
  · obtain ⟨c, rest, rfl⟩ := List.exists_cons_of_ne_nil hd.1
    have hrest : ∀ d ∈ rest, d.isDigit = true := fun d h => hd.2 d (List.mem_cons_of_mem _ h)
    rw [List.cons_append, List.cons_append, dropFraction, if_pos (hd.2 c List.mem_cons_self)]
    exact (Decimal.takeWhile_digits hrest (Decimal.noDigit_power hp)).2

/-- Texts that are put together from the parts of a number literal are literals. -/
theorem isLiteral_of_spells {text : String} {sign whole fraction power : List Char}
    (h : Spells text.toList sign whole fraction power) : isLiteral text = true := by
  have hdrop := (Decimal.takeWhile_digits h.whole.2 (Decimal.noDigit_fraction h.fraction h.power)).2
  have hhead : (((whole ++ (fraction ++ power)).head?.map Char.isDigit).getD false) = true := by
    obtain ⟨c, rest, rfl⟩ := List.exists_cons_of_ne_nil h.whole.1
    exact h.whole.2 c List.mem_cons_self
  unfold isLiteral
  rw [h.dropLineEnd, h.text_eq, Decimal.takeSign_append h.sign h.whole]
  dsimp only
  rw [hhead, hdrop, dropFraction_append h.fraction h.power, isExponent_of_isPower h.power]
  rfl

/-- A literal with a fraction or an exponent is not integral. -/
theorem not_isIntegral_of_spells {text : String} {sign whole fraction power : List Char}
    (h : Spells text.toList sign whole fraction power) (hreal : fraction ≠ [] ∨ power ≠ []) :
    isIntegral text = false := by
  have hmark : ∃ c ∈ fraction ++ power, c.isDigit = false := by
    have hhead := Decimal.noDigit_fraction h.fraction h.power
    cases hrest : fraction ++ power with
    | nil => simp_all
    | cons c rest =>
      rw [hrest] at hhead
      exact ⟨c, List.mem_cons_self, hhead c rfl⟩
  obtain ⟨c, hc, hdigit⟩ := hmark
  rw [isIntegral, h.dropLineEnd, h.text_eq, Decimal.takeSign_append h.sign h.whole, Bool.eq_false_iff, ne_eq,
    isDigits_iff]
  intro hrun
  rw [hrun.2 c (List.mem_append_right _ hc)] at hdigit
  cases hdigit

end Numeral

end Arvore
