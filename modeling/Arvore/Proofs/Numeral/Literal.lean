import Mathlib
import Arvore.Proofs.Load.WellFormed

/-!
# Number literals

A number literal that can be represented is an optional sign, digits, an optional fraction and an optional exponent, and
nothing else (`Numeral.IsNumber`). Without fraction and exponent its value has 64 bits; else it is rounded to a finite
number in double precision (`Real.isFinite_of_read`).
-/

namespace Arvore

namespace Binary64

/-! ### Finite numbers -/

/-- A number of the format: a mantissa of 53 bits, times a power of two between the least and the greatest. -/
structure IsFinite (x : Binary64) : Prop where
  mantissa : x.mantissa < 2 ^ 53
  low : -1074 ≤ x.exponent
  high : x.exponent ≤ 971

/-- A quotient below a whole number is rounded to this number at most. -/
theorem roundDiv_le {num den bound : Nat} (h : num < bound * den) : roundDiv num den ≤ bound := by
  have hq : num / den < bound := Nat.div_lt_of_lt_mul (by rwa [Nat.mul_comm])
  unfold roundDiv
  dsimp only
  split <;> omega

theorem scale_snd_pos {den : Nat} (hden : 0 < den) (num : Nat) (e : Int) : 0 < (scale num den e).2 := by
  unfold scale
  split
  · exact Nat.mul_pos hden (Nat.two_pow_pos _)
  · exact hden

/-- Scaling divides by a power of two. -/
theorem scale_ratio (num den : Nat) (e : Int) :
    ((scale num den e).1 : ℚ) / (scale num den e).2 = num / den / 2 ^ e := by
  unfold scale
  split
  · rename_i he
    obtain ⟨k, rfl⟩ := Int.eq_ofNat_of_zero_le he
    simp [div_div]
  · rename_i he
    obtain ⟨k, rfl⟩ := Int.exists_eq_neg_ofNat (by omega : e ≤ 0)
    simp
    ring

theorem scale_lt_iff {num den : Nat} (hden : 0 < den) (bound : Nat) (e : Int) :
    (scale num den e).1 < bound * (scale num den e).2 ↔ (num : ℚ) / den < bound * 2 ^ e := by
  have hd : (0 : ℚ) < (scale num den e).2 := by exact_mod_cast scale_snd_pos hden num e
  have hpow : (0 : ℚ) < 2 ^ e := zpow_pos (by norm_num) e
  rw [← div_lt_iff₀ hpow, ← scale_ratio, div_lt_iff₀ hd]
  exact_mod_cast Iff.rfl

/-- A quotient lies below the power of two that the lengths of its parts give. -/
private theorem div_lt_two_zpow (num : Nat) {den : Nat} (hden : 0 < den) :
    (num : ℚ) / den < 2 ^ ((num.log2 : Int) - den.log2 + 1) := by
  have hn : (num : ℚ) < 2 ^ (num.log2 + 1) := by exact_mod_cast Nat.lt_log2_self
  have hd : (2 : ℚ) ^ den.log2 ≤ den := by exact_mod_cast Nat.log2_self_le hden.ne'
  have hpos : (0 : ℚ) < 2 ^ den.log2 := by positivity
  calc (num : ℚ) / den ≤ num / 2 ^ den.log2 := by gcongr
    _ < 2 ^ (num.log2 + 1) / 2 ^ den.log2 := by gcongr
    _ = 2 ^ ((num.log2 : Int) - den.log2 + 1) := by
      rw [← zpow_natCast, ← zpow_natCast, ← zpow_sub₀ (by norm_num)]
      congr 1
      push_cast
      ring

/-- With the exponent that is chosen for it, a number has 53 bits before the point at most. -/
theorem scale_binade_lt (num : Nat) {den : Nat} (hden : 0 < den) :
    (scale num den (binade num den)).1 < 2 ^ 53 * (scale num den (binade num den)).2 := by
  set low : Int := (num.log2 : Int) - den.log2 - 53 with hlow
  set fitting : Int := if 2 ^ 53 * (scale num den low).2 ≤ (scale num den low).1 then low + 1 else low with hfitting
  have hbinade : binade num den = max fitting leastExponent := rfl
  rw [scale_lt_iff hden]
  have hfits : (num : ℚ) / den < (2 ^ 53 : Nat) * 2 ^ fitting := by
    rw [hfitting]
    split
    · -- the lengths alone give one bit more
      have hlengths := div_lt_two_zpow num hden
      have hexponent : (num.log2 : Int) - den.log2 + 1 = 53 + (low + 1) := by omega
      rw [hexponent, zpow_add₀ (by norm_num)] at hlengths
      exact_mod_cast hlengths
    · rename_i hlt
      exact (scale_lt_iff hden (2 ^ 53) low).1 (Nat.lt_of_not_le hlt)
  have hmono : (2 : ℚ) ^ fitting ≤ 2 ^ binade num den :=
    zpow_le_zpow_right₀ (by norm_num) (by rw [hbinade]; exact le_max_left _ _)
  calc (num : ℚ) / den < (2 ^ 53 : Nat) * 2 ^ fitting := hfits
    _ ≤ (2 ^ 53 : Nat) * 2 ^ binade num den := by gcongr

theorem nearest?_bounds {num den : Nat} (hden : 0 < den) {m : Nat} {e : Int} (h : nearest? num den = some (m, e)) :
    m < 2 ^ 53 ∧ -1074 ≤ e ∧ e ≤ 971 := by
  have hround := roundDiv_le (scale_binade_lt num hden)
  have hleast : -1074 ≤ binade num den := le_max_right _ _
  unfold nearest? at h
  dsimp only at h
  split at h
  · -- rounded up to the next power of two
    split at h
    · cases h
    · rename_i hgreatest
      simp only [greatestExponent] at hgreatest
      cases h
      have hhalf : Nat.pow 2 52 < 2 ^ 53 := by decide
      exact ⟨hhalf, by omega, by omega⟩
  · rename_i hne
    split at h
    · cases h
    · rename_i hgreatest
      simp only [greatestExponent] at hgreatest
      cases h
      exact ⟨lt_of_le_of_ne hround hne, hleast, by omega⟩

theorem isFinite_of_ofDecimal? {d : Decimal} {x : Binary64} (h : ofDecimal? d = some x) : x.IsFinite := by
  unfold ofDecimal? at h
  dsimp only at h
  split at h
  · cases h
    exact ⟨by norm_num, le_rfl, by simp only [leastExponent]; omega⟩
  · split at h
    · cases h
    · obtain ⟨⟨m, e⟩, hnearest, rfl⟩ := Option.map_eq_some_iff.1 h
      have hbounds : m < 2 ^ 53 ∧ -1074 ≤ e ∧ e ≤ 971 := by
        split at hnearest
        · exact nearest?_bounds Nat.one_pos hnearest
        · exact nearest?_bounds (Nat.pow_pos (by decide)) hnearest
      exact ⟨hbounds.1, hbounds.2.1, hbounds.2.2⟩

end Binary64

theorem Real.read_eq_ok_iff {text : List Char} {x : Binary64} :
    Real.read text = .ok x ↔ ∃ d, Decimal.read? text = some d ∧ Binary64.ofDecimal? d = some x := by
  unfold Real.read
  cases Decimal.read? text with
  | none => simp
  | some d =>
    cases hd : Binary64.ofDecimal? d with
    | none => simp [hd]
    | some y => simp [hd]

theorem Real.isFinite_of_read {text : List Char} {x : Binary64} (h : Real.read text = .ok x) :
    (∃ d, Decimal.read? text = some d) ∧ x.IsFinite := by
  obtain ⟨d, hd, hx⟩ := Real.read_eq_ok_iff.1 h
  exact ⟨⟨d, hd⟩, Binary64.isFinite_of_ofDecimal? hx⟩

namespace Numeral

/-! ### The grammar of number literals -/

/-- One digit or more. -/
def IsDigitRun (text : List Char) : Prop := text ≠ [] ∧ ∀ c ∈ text, c.isDigit = true

/-- Nothing, or a sign. -/
def IsSign (text : List Char) : Prop := text = [] ∨ text = ['+'] ∨ text = ['-']

/-- Nothing, or a point and digits. -/
def IsFraction (text : List Char) : Prop := text = [] ∨ ∃ digits, text = '.' :: digits ∧ IsDigitRun digits

/-- Nothing, or a letter, an optional sign and digits. -/
def IsPower (text : List Char) : Prop :=
  text = [] ∨ ∃ c sign digits, text = c :: (sign ++ digits) ∧ (c = 'e' ∨ c = 'E') ∧ IsSign sign ∧ IsDigitRun digits

/-- A text is put together from the parts of a number literal. -/
structure Spells (text sign whole fraction power : List Char) : Prop where
  text_eq : text = sign ++ (whole ++ (fraction ++ power))
  sign : IsSign sign
  whole : IsDigitRun whole
  fraction : IsFraction fraction
  power : IsPower power

/-- The value of a whole number. -/
def signedValue (sign whole : List Char) : Int :=
  if sign = ['-'] then -(Decimal.digitsValue whole : Int) else Decimal.digitsValue whole

/-- Number literals: whole numbers of 64 bits, and reals that are finite in double precision. -/
inductive IsNumber (text : String) : Prop
  | integral {sign whole} (h : Spells text.toList sign whole [] []) (low : -2 ^ 63 ≤ signedValue sign whole)
      (high : signedValue sign whole < 2 ^ 63) : IsNumber text
  | real {sign whole fraction power x} (h : Spells text.toList sign whole fraction power)
      (hreal : fraction ≠ [] ∨ power ≠ []) (hx : Real.read text.toList = .ok x) (hf : x.IsFinite) : IsNumber text

theorem isDigits_iff {text : List Char} : isDigits text = true ↔ IsDigitRun text := by
  simp [isDigits, IsDigitRun]

theorem takeSign_spells (text : List Char) :
    ∃ sign, IsSign sign ∧ text = sign ++ (Decimal.takeSign text).2 ∧
      ((Decimal.takeSign text).1 = true ↔ sign = ['-']) := by
  unfold Decimal.takeSign
  split
  · exact ⟨['-'], by simp [IsSign], rfl, by simp⟩
  · exact ⟨['+'], by simp [IsSign], rfl, by simp⟩
  · exact ⟨[], by simp [IsSign], rfl, by simp⟩

/-- A whole number. -/
theorem isNumber_of_integer? {text : String} {z : Int} (h : integer? text = some z) : IsNumber text := by
  obtain ⟨sign, hsign, htext, hneg⟩ := takeSign_spells text.toList
  have hbounds := integer?_bounds h
  unfold integer? at h
  dsimp only at h
  split at h
  · rename_i hdigits
    simp only [Option.ite_none_right_eq_some, Option.some.injEq] at h
    have hvalue : signedValue sign (Decimal.takeSign text.toList).2 = z := by
      rw [signedValue, ← h.2]
      simp only [hneg]
    refine .integral ⟨?_, hsign, isDigits_iff.1 hdigits, .inl rfl, .inl rfl⟩ ?_ ?_
    · rw [List.append_nil, List.append_nil]
      exact htext
    · rw [hvalue]
      exact hbounds.1
    · rw [hvalue]
      exact hbounds.2
  · cases h

theorem IsSign.lineEnd_not_mem {text : List Char} (h : IsSign text) : '\n' ∉ text := by
  rcases h with rfl | rfl | rfl <;> decide

theorem lineEnd_not_mem_of_digits {text : List Char} (h : ∀ c ∈ text, c.isDigit = true) : '\n' ∉ text :=
  fun hm => absurd (h _ hm) (by decide)

theorem IsPower.lineEnd_not_mem {text : List Char} (h : IsPower text) : '\n' ∉ text := by
  rcases h with rfl | ⟨c, sign, digits, rfl, hc, hs, hd⟩
  · exact List.not_mem_nil
  · simp only [List.mem_cons, List.mem_append, not_or]
    refine ⟨?_, hs.lineEnd_not_mem, lineEnd_not_mem_of_digits hd.2⟩
    rcases hc with rfl | rfl <;> decide

theorem isPower_of_readExponent? {text : List Char} {power : Int} (h : Decimal.readExponent? text = some power) :
    IsPower text := by
  cases text with
  | nil => exact .inl rfl
  | cons c rest =>
    obtain ⟨sign, hsign, hrest, -⟩ := takeSign_spells rest
    unfold Decimal.readExponent? at h
    dsimp only at h
    split at h
    · rename_i hc
      simp only [Bool.and_eq_true, Bool.or_eq_true, decide_eq_true_eq] at hc
      have hdigits : isDigits (Decimal.takeSign rest).2 = true := by
        rw [isDigits, hc.1.2, hc.2]
        rfl
      exact .inr ⟨c, sign, _, by rw [← hrest], hc.1.1, hsign, isDigits_iff.1 hdigits⟩
    · cases h

/-- What stands behind the first digits of a text that can be read as a decimal. Digits may be missing behind the
point. -/
theorem parts_of_read? {text : List Char} {d : Decimal} (h : Decimal.read? text = some d) :
    ∃ part power, (part = [] ∨ ∃ digits, part = '.' :: digits ∧ ∀ c ∈ digits, c.isDigit = true) ∧ IsPower power ∧
      (Decimal.takeSign text).2.dropWhile Char.isDigit = part ++ power := by
  unfold Decimal.read? at h
  dsimp only at h
  split at h
  · cases h
  · obtain ⟨power, hpower, -⟩ := Option.map_eq_some_iff.1 h
    have hp := isPower_of_readExponent? hpower
    generalize (Decimal.takeSign text).2.dropWhile Char.isDigit = rest at hp
    unfold Decimal.takeFraction at hp
    split at hp
    · rename_i tail
      refine ⟨'.' :: tail.takeWhile Char.isDigit, _, .inr ⟨_, rfl, fun c => List.mem_takeWhile_imp⟩, hp, ?_⟩
      rw [List.cons_append, List.takeWhile_append_dropWhile]
    · exact ⟨[], _, .inl rfl, hp, rfl⟩

/-- A point belongs to a literal only with a digit behind it. -/
theorem isFraction_of_isExponent {part power : List Char}
    (hpart : part = [] ∨ ∃ digits, part = '.' :: digits ∧ ∀ c ∈ digits, c.isDigit = true) (hpower : IsPower power)
    (h : isExponent (dropFraction (part ++ power)) = true) : IsFraction part := by
  rcases hpart with rfl | ⟨digits, rfl, hdigits⟩
  · exact .inl rfl
  · refine .inr ⟨digits, rfl, ?_, hdigits⟩
    rintro rfl
    rcases hpower with rfl | ⟨c, sign, digits, rfl, hc, -⟩
    · cases h
    · rcases hc with rfl | rfl <;> cases h

theorem dropLineEnd_eq_self {text : List Char} (h : '\n' ∉ text) : dropLineEnd text = text := by
  unfold dropLineEnd
  rw [if_neg]
  exact fun hlast => h (List.mem_of_getLast? hlast)

/-- A real. The line end that a literal may have behind it cannot be read, and so it has none. -/
theorem isNumber_of_read {text : String} (hl : isLiteral text = true) (hi : isIntegral text = false) {x : Binary64}
    (hx : Real.read text.toList = .ok x) : IsNumber text := by
  obtain ⟨⟨d, hd⟩, hf⟩ := Real.isFinite_of_read hx
  obtain ⟨sign, hsign, htext, -⟩ := takeSign_spells text.toList
  obtain ⟨part, power, hpart, hpower, hrest⟩ := parts_of_read? hd
  set rest := (Decimal.takeSign text.toList).2 with hrest_def
  have hwhole : ∀ c ∈ rest.takeWhile Char.isDigit, c.isDigit = true := fun c => List.mem_takeWhile_imp
  have hsplit : rest = rest.takeWhile Char.isDigit ++ (part ++ power) := by
    rw [← hrest, List.takeWhile_append_dropWhile]
  have hpoint : '\n' ∉ part := by
    rcases hpart with rfl | ⟨digits, rfl, hdigits⟩
    · exact List.not_mem_nil
    · exact List.not_mem_cons_of_ne_of_not_mem (by decide) (lineEnd_not_mem_of_digits hdigits)
  have hend : dropLineEnd text.toList = text.toList := by
    refine dropLineEnd_eq_self ?_
    rw [htext, hsplit]
    simp only [List.mem_append, not_or]
    exact ⟨hsign.lineEnd_not_mem, lineEnd_not_mem_of_digits hwhole, hpoint, hpower.lineEnd_not_mem⟩
  simp only [isLiteral, isIntegral, hend, ← hrest_def, hrest, Bool.and_eq_true] at hl hi
  have hrun : IsDigitRun (rest.takeWhile Char.isDigit) := by
    refine ⟨?_, hwhole⟩
    cases hr : rest with
    | nil => simp [hr] at hl
    | cons c tail =>
      have hc : c.isDigit = true := by simpa [hr] using hl.1
      rw [List.takeWhile_cons_of_pos hc]
      exact List.cons_ne_nil _ _
  have hspells : Spells text.toList sign (rest.takeWhile Char.isDigit) part power :=
    ⟨htext.trans (by rw [← hsplit]), hsign, hrun, isFraction_of_isExponent hpart hpower hl.2, hpower⟩
  refine .real hspells ?_ hx hf
  by_contra! hnone
  have hdigits : rest = rest.takeWhile Char.isDigit := by rw [hnone.1, hnone.2] at hsplit; simpa using hsplit
  rw [hdigits, isDigits_iff.2 hrun] at hi
  cases hi

theorem isNumber_of_representable {text : String} (h : Representable text) : IsNumber text := by
  obtain ⟨hl, hint, hreal⟩ := h
  cases hi : isIntegral text with
  | true =>
    obtain ⟨z, hz⟩ := hint hi
    exact isNumber_of_integer? hz
  | false =>
    obtain ⟨x, hx⟩ := hreal hi
    exact isNumber_of_read hl hi hx

end Numeral

end Arvore
