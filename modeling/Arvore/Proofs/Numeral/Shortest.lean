import Mathlib
import Arvore.Proofs.Numeral.Rounding
import Arvore.Proofs.RoundTrip

/-!
# Shortest decimals

The shortest decimal of a number is one that is rounded to it (`Binary64.shortest_rounds`). With seventeen digits
there is always such a decimal (`Binary64.seventeen_digits`), because the distance of two decimals of this length
is smaller than that of the two ends between which all is rounded to the number.
-/

namespace Arvore

namespace Binary64

/-! ### Comparisons -/

/-- A whole number that is scaled by two powers, of which one is divided by. -/
private theorem cast_scaled {b : Nat} (hb : (b : ℚ) ≠ 0) (a c : Nat) (k e : Int) :
    ((a * Nat.pow b k.toNat * Nat.pow c (-e).toNat : Nat) : ℚ) =
      a * (b : ℚ) ^ k * ((b : ℚ) ^ (-k).toNat * (c : ℚ) ^ (-e).toNat) := by
  have hsign : (b : ℚ) ^ k * (b : ℚ) ^ (-k).toNat = (b : ℚ) ^ k.toNat := by
    rw [← zpow_natCast, ← zpow_natCast, ← zpow_add₀ hb]
    congr 1
    omega
  calc ((a * Nat.pow b k.toNat * Nat.pow c (-e).toNat : Nat) : ℚ)
      = a * (b : ℚ) ^ k.toNat * (c : ℚ) ^ (-e).toNat := by exact_mod_cast rfl
    _ = a * (b : ℚ) ^ k * ((b : ℚ) ^ (-k).toNat * (c : ℚ) ^ (-e).toNat) := by rw [← hsign]; ring

/-- The comparison of whole numbers is that of the two numbers in question. -/
theorem compareScaled_eq (a : Nat) (k : Int) (b : Nat) (e : Int) :
    compareScaled a k b e = compare ((a : ℚ) * 10 ^ k) (b * 2 ^ e) := by
  set left := a * Nat.pow 10 k.toNat * Nat.pow 2 (-e).toNat with hleft
  set right := b * Nat.pow 2 e.toNat * Nat.pow 10 (-k).toNat with hright
  have hpos : (0 : ℚ) < 10 ^ (-k).toNat * 2 ^ (-e).toNat := by positivity
  have hleft' : (left : ℚ) = a * 10 ^ k * (10 ^ (-k).toNat * 2 ^ (-e).toNat) := cast_scaled (by norm_num) a 2 k e
  have hright' : (right : ℚ) = b * 2 ^ e * (10 ^ (-k).toNat * 2 ^ (-e).toNat) := by
    rw [hright, cast_scaled (by norm_num) b 10 e k]
    push_cast
    ring
  have hlt : (a : ℚ) * 10 ^ k < b * 2 ^ e ↔ left < right := by
    rw [← mul_lt_mul_iff_left₀ hpos, ← hleft', ← hright', Nat.cast_lt]
  have hgt : (b : ℚ) * 2 ^ e < a * 10 ^ k ↔ right < left := by
    rw [← mul_lt_mul_iff_left₀ hpos, ← hleft', ← hright', Nat.cast_lt]
  change compare left right = _
  rcases lt_trichotomy left right with h | h | h
  · rw [compare_lt_iff_lt.2 h, compare_lt_iff_lt.2 (hlt.2 h)]
  · rw [compare_eq_iff_eq.2 h, Eq.comm, compare_eq_iff_eq]
    exact le_antisymm (not_lt.1 fun hn => h.not_gt (hgt.1 hn)) (not_lt.1 fun hn => h.not_lt (hlt.1 hn))
  · rw [compare_gt_iff_gt.2 h, compare_gt_iff_gt.2 (hgt.2 h)]

/-- The ends are compared with in quarters of the distance. -/
theorem roundsTo_iff {m : Nat} (hm : 0 < m) (e : Int) (c : Nat) (k : Int) :
    roundsTo m e c k = true ↔ Rounds m e (c * 10 ^ k) := by
  have hquarter : (2 : ℚ) ^ (e - 2) = 2 ^ e / 4 := by
    rw [zpow_sub₀ (by norm_num)]
    norm_num
  have hlow : (((if m = Nat.pow 2 52 && e != leastExponent then 4 * m - 1 else 4 * m - 2 : Nat) : Nat) : ℚ) *
      2 ^ (e - 2) = lowEnd m e * 2 ^ e := by
    rw [hquarter, lowEnd]
    by_cases h : m = 2 ^ 52 ∧ e ≠ leastExponent
    · rw [if_pos h, if_pos (by simpa using h), Nat.cast_sub (by omega)]
      push_cast
      ring
    · rw [if_neg h, if_neg (by simpa using h), Nat.cast_sub (by omega)]
      push_cast
      ring
  have hhigh : ((4 * m + 2 : Nat) : ℚ) * 2 ^ (e - 2) = (m + 1 / 2) * 2 ^ e := by
    rw [hquarter]
    push_cast
    ring
  unfold roundsTo
  dsimp only
  rw [compareScaled_eq, compareScaled_eq, hlow, hhigh]
  simp only [Bool.and_eq_true, Bool.or_eq_true, decide_eq_true_eq, compare_gt_iff_gt, compare_lt_iff_lt,
    compare_eq_iff_eq]
  constructor
  · rintro ⟨hl, hh⟩
    exact ⟨hl.imp_right fun h => ⟨h.1.symm, h.2⟩, hh⟩
  · rintro ⟨hl, hh⟩
    exact ⟨hl.imp_right fun h => ⟨h.1.symm, h.2⟩, hh⟩

theorem floorScaled_bounds (b : Nat) (e k : Int) :
    (floorScaled b e k : ℚ) * 10 ^ k ≤ b * 2 ^ e ∧ b * 2 ^ e < ((floorScaled b e k + 1 : Nat) : ℚ) * 10 ^ k := by
  have hten : (0 : ℚ) < 10 ^ k := by positivity
  have hnum : ((b * Nat.pow 2 e.toNat * Nat.pow 10 (-k).toNat : Nat) : ℚ) =
      b * 2 ^ e * (2 ^ (-e).toNat * 10 ^ (-k).toNat) := cast_scaled (by norm_num) b 10 e k
  have hden : ((Nat.pow 10 k.toNat * Nat.pow 2 (-e).toNat : Nat) : ℚ) =
      10 ^ k * (2 ^ (-e).toNat * 10 ^ (-k).toNat) := by
    have h := cast_scaled (b := 10) (by norm_num) 1 2 k e
    rw [Nat.one_mul, Nat.cast_one, one_mul] at h
    rw [h, mul_comm ((2 : ℚ) ^ (-e).toNat)]
    rfl
  have hquotient : ((b * Nat.pow 2 e.toNat * Nat.pow 10 (-k).toNat : Nat) : ℚ) /
      (Nat.pow 10 k.toNat * Nat.pow 2 (-e).toNat : Nat) = b * 2 ^ e / 10 ^ k := by
    rw [hnum, hden]
    exact mul_div_mul_right _ _ (by positivity)
  have hfloor : floorScaled b e k = ⌊(b : ℚ) * 2 ^ e / 10 ^ k⌋₊ := by
    rw [← hquotient, Nat.floor_div_eq_div]
    rfl
  rw [hfloor, ← le_div_iff₀ hten, ← div_lt_iff₀ hten]
  refine ⟨Nat.floor_le (by positivity), ?_⟩
  push_cast
  exact Nat.lt_floor_add_one _

/-- The first digit of a number is not at a higher power of ten than the number itself. -/
theorem zpow_magnitude_le {m : Nat} (hm : 0 < m) (e : Int) : (10 : ℚ) ^ magnitude m e ≤ m * 2 ^ e := by
  set num := m * Nat.pow 2 e.toNat with hnum
  set den := Nat.pow 2 (-e).toNat with hden
  have hnum_pos : 0 < num := Nat.mul_pos hm (Nat.two_pow_pos _)
  have hden_pos : 0 < den := Nat.two_pow_pos _
  have hquotient : (num : ℚ) / den = m * 2 ^ e := by
    have h := cast_scaled (b := 2) (by norm_num) m 1 e 0
    rw [div_eq_iff (by positivity)]
    simpa [hnum, hden] using h
  rw [← hquotient]
  unfold magnitude
  dsimp only
  rw [← hnum, ← hden]
  split
  · rename_i hle
    have hpos : 0 < num / den := Nat.div_pos hle hden_pos
    have hlength : 0 < (Nat.toDigits 10 (num / den)).length := List.length_pos_iff.2 Nat.toDigits_ne_nil
    have hpower : ((Nat.toDigits 10 (num / den)).length : Int) - 1 =
        ((Nat.toDigits 10 (num / den)).length - 1 : Nat) := by
      omega
    rw [hpower, zpow_natCast]
    calc (10 : ℚ) ^ ((Nat.toDigits 10 (num / den)).length - 1) ≤ (num / den : Nat) := by
          exact_mod_cast pow_length_toDigits_le hpos
      _ ≤ num / den := Nat.cast_div_le
  · set part := (den + num - 1) / num - 1 with hpart
    set length := (Nat.toDigits 10 part).length with hlength
    have hbound : part < 10 ^ length := lt_pow_length_toDigits part
    -- the quotient was rounded up
    have hceil : (den + num - 1) / num < 10 ^ length + 1 := by omega
    rw [Nat.div_lt_iff_lt_mul hnum_pos, Nat.add_mul] at hceil
    have hle : den ≤ 10 ^ length * num := by omega
    have hle' : (den : ℚ) ≤ 10 ^ length * num := by exact_mod_cast hle
    rw [zpow_neg, zpow_natCast, le_div_iff₀ (by positivity), inv_mul_le_iff₀ (by positivity)]
    exact hle'

/-! ### The search -/

theorem roundsTo_of_withDigits? {m : Nat} {e : Int} {count c : Nat} {k : Int}
    (h : withDigits? m e count = some (c, k)) : roundsTo m e c k = true := by
  unfold withDigits? at h
  dsimp only at h
  split at h
  · rename_i hbelow habove
    split at h
    · cases h
      exact hbelow
    · cases h
      exact habove
    · cases h
      split
      · exact hbelow
      · exact habove
  · rename_i hbelow _
    cases h
    exact hbelow
  · rename_i _ habove
    cases h
    exact habove
  · cases h

theorem isSome_withDigits? (m : Nat) (e : Int) (count : Nat) {k : Int} (hk : magnitude m e - count + 1 = k)
    (h : roundsTo m e (floorScaled m e k) k = true ∨ roundsTo m e (floorScaled m e k + 1) k = true) :
    (withDigits? m e count).isSome = true := by
  unfold withDigits?
  dsimp only
  rw [hk]
  split
  · split <;> rfl
  · rfl
  · rfl
  · rename_i hbelow habove
    rw [hbelow, habove] at h
    exact absurd h (by decide)

/-- The distance of two decimals of seventeen digits is smaller than that of the two ends. -/
theorem step_lt {m : Nat} {e : Int} (hn : Normal m e) {step : ℚ} (h : step * 10 ^ 16 ≤ m * 2 ^ e) :
    step < (m + 1 / 2 - lowEnd m e) * 2 ^ e := by
  have hpow : (0 : ℚ) < 2 ^ e := by positivity
  unfold lowEnd
  split
  · rename_i hpower
    rw [hpower.1] at h ⊢
    push_cast at h ⊢
    linarith
  · have hm : (m : ℚ) + 1 ≤ 2 ^ 53 := by exact_mod_cast hn.mantissa
    have hbelow : (m : ℚ) * 2 ^ e < 2 ^ 53 * 2 ^ e := by gcongr; linarith
    linarith

/-- Seventeen digits are always enough: if the decimal below is too small, the one above is not too great. -/
theorem seventeen_digits {m : Nat} {e : Int} (hn : Normal m e) (hm : 0 < m) : (withDigits? m e 17).isSome = true := by
  have hpow : (0 : ℚ) < 2 ^ e := by positivity
  set k := magnitude m e - (17 : Nat) + 1 with hk
  set below := floorScaled m e k with hbelow
  obtain ⟨hle, hlt⟩ := floorScaled_bounds m e k
  have hstep : (10 : ℚ) ^ k * 10 ^ 16 ≤ m * 2 ^ e := by
    calc (10 : ℚ) ^ k * 10 ^ 16 = 10 ^ magnitude m e := by
          rw [← zpow_natCast, ← zpow_add₀ (by norm_num), hk]
          congr 1
          push_cast
          ring
      _ ≤ m * 2 ^ e := zpow_magnitude_le hm e
  have hends := step_lt hn hstep
  have hend : lowEnd m e < m := by
    unfold lowEnd
    split <;> linarith
  have hlow : lowEnd m e * 2 ^ e < m * 2 ^ e := by gcongr
  have hhigh : (m : ℚ) * 2 ^ e < (m + 1 / 2) * 2 ^ e := by gcongr; linarith
  have hrounds : roundsTo m e below k = true ∨ roundsTo m e (below + 1) k = true := by
    rw [roundsTo_iff hm, roundsTo_iff hm]
    by_cases hfar : lowEnd m e * 2 ^ e < below * 10 ^ k
    · exact .inl ⟨.inl hfar, .inl (hle.trans_lt hhigh)⟩
    · refine .inr ⟨.inl (hlow.trans hlt), .inl ?_⟩
      push_cast
      linarith
  exact isSome_withDigits? m e 17 hk.symm hrounds

theorem exists_shortest {m : Nat} {e : Int} (hn : Normal m e) (hm : 0 < m) :
    ∃ c k, (List.range' 1 17).findSome? (withDigits? m e) = some (c, k) ∧ Rounds m e (c * 10 ^ k) := by
  have hfound : ((List.range' 1 17).findSome? (withDigits? m e)).isSome = true := by
    rw [List.findSome?_isSome_iff]
    exact ⟨17, by simp, seventeen_digits hn hm⟩
  obtain ⟨⟨c, k⟩, hfound⟩ := Option.isSome_iff_exists.1 hfound
  obtain ⟨count, -, hcount⟩ := List.exists_of_findSome?_eq_some hfound
  exact ⟨c, k, hfound, (roundsTo_iff hm e c k).1 (roundsTo_of_withDigits? hcount)⟩

end Binary64

/-! ### Digits -/

namespace Decimal

theorem digitsValue_snoc (digits : List Char) (c : Char) :
    digitsValue (digits ++ [c]) = digitsValue digits * 10 + (c.toNat - '0'.toNat) := by
  simp [digitsValue]

theorem digitsValue_append (xs ys : List Char) :
    digitsValue (xs ++ ys) = digitsValue xs * 10 ^ ys.length + digitsValue ys := by
  induction ys using List.reverseRecOn with
  | nil => simp [digitsValue]
  | append_singleton ys c ih =>
    rw [← List.append_assoc, digitsValue_snoc, ih, digitsValue_snoc, List.length_append, List.length_singleton,
      Nat.pow_succ]
    ring

theorem digitsValue_zeros (n : Nat) : digitsValue (List.replicate n '0') = 0 := by
  induction n with
  | zero => rfl
  | succ n ih => rw [List.replicate_succ', digitsValue_append, ih]; rfl

/-- Zeros at the end multiply by a power of ten. -/
theorem digitsValue_append_zeros (xs : List Char) (n : Nat) :
    digitsValue (xs ++ List.replicate n '0') = digitsValue xs * 10 ^ n := by
  rw [digitsValue_append, digitsValue_zeros, List.length_replicate, Nat.add_zero]

/-- Zeros at the front do nothing. -/
theorem digitsValue_zeros_append (n : Nat) (xs : List Char) :
    digitsValue (List.replicate n '0' ++ xs) = digitsValue xs := by
  rw [digitsValue_append, digitsValue_zeros, Nat.zero_mul, Nat.zero_add]

end Decimal

/-- A text is what remains of it without the zeros at its end, and these zeros. -/
private theorem append_zeros_eq (text : List Char) :
    ∃ n, (text.reverse.dropWhile (· = '0')).reverse ++ List.replicate n '0' = text := by
  refine ⟨(text.reverse.takeWhile (· = '0')).length, ?_⟩
  have hzeros : text.reverse.takeWhile (· = '0') = List.replicate (text.reverse.takeWhile (· = '0')).length '0' := by
    refine List.eq_replicate_of_mem fun c hc => ?_
    simpa using List.mem_takeWhile_imp hc
  rw [← List.reverse_inj, List.reverse_append, List.reverse_reverse, List.reverse_replicate, ← hzeros]
  exact List.takeWhile_append_dropWhile

namespace Binary64

/-- The digits of the shortest decimal, and the power of ten of the first one. The decimal is rounded to the number. -/
theorem shortest_rounds {m : Nat} {e : Int} (hn : Normal m e) (hm : 0 < m) {digits : List Char} {power : Int}
    (h : shortest m e = (digits, power)) :
    Numeral.IsDigitRun digits ∧ Rounds m e (Decimal.digitsValue digits * 10 ^ (power + 1 - digits.length)) ∧
      -325 < power ∧ power < 309 := by
  obtain ⟨c, k, hfound, hrounds⟩ := exists_shortest hn hm
  obtain ⟨hc, hlow, hhigh⟩ := places_of_rounds (d := ⟨false, c, k⟩) hn hm hrounds
  obtain ⟨zeros, hzeros⟩ := append_zeros_eq (Nat.toDigits 10 c)
  unfold shortest at h
  dsimp only at h
  rw [hfound, Option.getD_some, Prod.mk.injEq] at h
  dsimp only at h
  obtain ⟨hdigits, hpower⟩ := h
  rw [hdigits] at hzeros
  have hvalue : c = Decimal.digitsValue digits * 10 ^ zeros := by
    rw [← Decimal.digitsValue_append_zeros, hzeros, Decimal.digitsValue_toDigits]
  have hlength : (Nat.toDigits 10 c).length = digits.length + zeros := by
    rw [← hzeros, List.length_append, List.length_replicate]
  refine ⟨⟨?_, fun d hd => ?_⟩, ?_, ?_⟩
  · rintro rfl
    rw [hvalue] at hc
    exact absurd hc (by simp [Decimal.digitsValue])
  · have hmem : d ∈ Nat.toDigits 10 c := by
      rw [← hzeros]
      exact List.mem_append_left _ hd
    exact Nat.isDigit_of_mem_toDigits (by decide) (by decide) hmem
  · have hexponent : power + 1 - digits.length = zeros + k := by omega
    rw [hvalue] at hrounds
    rw [hexponent, zpow_add₀ (by norm_num), zpow_natCast, ← mul_assoc]
    exact_mod_cast hrounds
  · rw [Decimal.places] at hlow hhigh
    dsimp only at hlow hhigh
    omega

end Binary64

end Arvore
