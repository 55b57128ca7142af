import Mathlib
import Arvore.Proofs.Numeral.Literal

/-!
# Rounding to double precision

Every number of the format has one form: its mantissa has all of the 53 bits, or its exponent is the least one
(`Binary64.Normal`). A positive rational is rounded to the number of this form around which it lies
(`Binary64.Rounds`): not further away than half the distance to a neighbour, and at this distance only if the mantissa
is even. The range of decimals that is computed with is wide enough for all of them (`Binary64.ofDecimal?_eq_some`).
-/

namespace Arvore

namespace Binary64

/-! ### The exponent of a number -/

/-- The mantissa and the exponent of a number in its one form. -/
structure Normal (m : Nat) (e : Int) : Prop where
  mantissa : m < 2 ^ 53
  low : leastExponent ≤ e
  high : e ≤ greatestExponent
  full : e = leastExponent ∨ 2 ^ 52 ≤ m

/-- With the exponent `e` the number `q` has a mantissa of 53 bits, or of fewer bits if the exponent is the least. -/
structure HasExponent (q : ℚ) (e : Int) : Prop where
  least : leastExponent ≤ e
  high : q < 2 ^ 53 * 2 ^ e
  low : e = leastExponent ∨ 2 ^ 52 * 2 ^ e ≤ q

private theorem two_zpow_mono {d e : Int} (h : d ≤ e) : (2 : ℚ) ^ d ≤ 2 ^ e := zpow_le_zpow_right₀ (by norm_num) h

theorem HasExponent.le {q : ℚ} {d e : Int} (hd : HasExponent q d) (he : HasExponent q e) : d ≤ e := by
  by_contra! hlt
  have hfull : 2 ^ 52 * 2 ^ d ≤ q := by
    refine hd.low.resolve_left fun hleast => ?_
    have := he.least
    omega
  have hhalf : (2 : ℚ) ^ 53 * 2 ^ e ≤ 2 ^ 52 * 2 ^ d := by
    calc (2 : ℚ) ^ 53 * 2 ^ e = 2 ^ 52 * 2 ^ (e + 1) := by rw [zpow_add_one₀ (by norm_num)]; ring
      _ ≤ 2 ^ 52 * 2 ^ d := by
        have := two_zpow_mono (show e + 1 ≤ d by omega)
        gcongr
  exact absurd he.high (not_lt.2 (hhalf.trans hfull))

theorem HasExponent.unique {q : ℚ} {d e : Int} (hd : HasExponent q d) (he : HasExponent q e) : d = e :=
  le_antisymm (hd.le he) (he.le hd)

/-- The number without its sign. -/
def absolute (x : Binary64) : ℚ := x.mantissa * 2 ^ x.exponent

theorem Normal.hasExponent {m : Nat} {e : Int} (h : Normal m e) : HasExponent (m * 2 ^ e) e := by
  have hpow : (0 : ℚ) < 2 ^ e := by positivity
  refine ⟨h.low, ?_, h.full.imp_right fun hfull => ?_⟩
  · exact mul_lt_mul_of_pos_right (by exact_mod_cast h.mantissa) hpow
  · exact mul_le_mul_of_nonneg_right (by exact_mod_cast hfull) hpow.le

/-- Numbers in their one form are equal if they have the same sign and the same value. -/
theorem eq_of_absolute_eq {x y : Binary64} (hx : Normal x.mantissa x.exponent) (hy : Normal y.mantissa y.exponent)
    (hnegative : x.negative = y.negative) (habsolute : x.absolute = y.absolute) : x = y := by
  obtain ⟨negative, m, e⟩ := x
  obtain ⟨negative', m', e'⟩ := y
  have hexponent := hx.hasExponent
  change (m : ℚ) * 2 ^ e = m' * 2 ^ e' at habsolute
  dsimp only at hexponent
  rw [habsolute] at hexponent
  obtain rfl : e = e' := hexponent.unique hy.hasExponent
  have hpow : (2 : ℚ) ^ e ≠ 0 := by positivity
  obtain rfl : m = m' := by exact_mod_cast mul_right_cancel₀ hpow habsolute
  obtain rfl : negative = negative' := hnegative
  rfl

/-- A quotient lies above the power of two that the lengths of its parts give. -/
private theorem two_zpow_lt_div {num : Nat} (hnum : 0 < num) {den : Nat} (hden : 0 < den) :
    (2 : ℚ) ^ ((num.log2 : Int) - den.log2 - 1) < num / den := by
  have hn : (2 : ℚ) ^ num.log2 ≤ num := by exact_mod_cast Nat.log2_self_le hnum.ne'
  have hd : (den : ℚ) < 2 ^ (den.log2 + 1) := by exact_mod_cast Nat.lt_log2_self
  have hpos : (0 : ℚ) < den := by exact_mod_cast hden
  calc (2 : ℚ) ^ ((num.log2 : Int) - den.log2 - 1) = 2 ^ num.log2 / 2 ^ (den.log2 + 1) := by
        rw [← zpow_natCast, ← zpow_natCast, ← zpow_sub₀ (by norm_num)]
        congr 1
        push_cast
        ring
    _ < 2 ^ num.log2 / den := by gcongr
    _ ≤ num / den := by gcongr

theorem le_scale_iff {num den : Nat} (hden : 0 < den) (bound : Nat) (e : Int) :
    bound * (scale num den e).2 ≤ (scale num den e).1 ↔ bound * 2 ^ e ≤ (num : ℚ) / den := by
  rw [← not_lt, ← not_lt, scale_lt_iff hden]

/-- The exponent that is chosen for a number leaves no bit of the mantissa unused, unless it is the least. -/
theorem le_binade {num den : Nat} (hnum : 0 < num) (hden : 0 < den) :
    binade num den = leastExponent ∨ 2 ^ 52 * 2 ^ binade num den ≤ (num : ℚ) / den := by
  set low : Int := (num.log2 : Int) - den.log2 - 53 with hlow
  set fitting : Int := if 2 ^ 53 * (scale num den low).2 ≤ (scale num den low).1 then low + 1 else low with hfitting
  have hbinade : binade num den = max fitting leastExponent := rfl
  rcases max_choice fitting leastExponent with hmax | hmax
  · refine .inr ?_
    rw [hbinade, hmax, hfitting]
    split
    · rename_i hle
      have hscaled := (le_scale_iff hden (2 ^ 53) low).1 hle
      rw [zpow_add_one₀ (by norm_num)]
      push_cast at hscaled
      linarith
    · -- the lengths alone give one bit less
      have hlengths := two_zpow_lt_div hnum hden
      have hexponent : (num.log2 : Int) - den.log2 - 1 = 52 + low := by omega
      rw [hexponent, zpow_add₀ (by norm_num)] at hlengths
      exact_mod_cast hlengths.le
  · exact .inl (hbinade.trans hmax)

theorem hasExponent_binade {num den : Nat} (hnum : 0 < num) (hden : 0 < den) :
    HasExponent (num / den) (binade num den) := by
  refine ⟨le_max_right _ _, ?_, le_binade hnum hden⟩
  exact_mod_cast (scale_lt_iff hden (2 ^ 53) (binade num den)).1 (scale_binade_lt num hden)

/-! ### Rounding -/

/-- A quotient is rounded to a whole number not further away than a half, and at this distance only to an even one. -/
theorem roundDiv_eq {num den m : Nat} (hden : 0 < den)
    (hlow : (m : ℚ) - 1 / 2 < num / den ∨ (m : ℚ) - 1 / 2 = num / den ∧ m % 2 = 0)
    (hhigh : (num : ℚ) / den < m + 1 / 2 ∨ (num : ℚ) / den = m + 1 / 2 ∧ m % 2 = 0) : roundDiv num den = m := by
  have hd : (0 : ℚ) < den := by exact_mod_cast hden
  have hnum : (num : ℚ) = num / den * den := by field_simp
  have hsplit : den * (num / den) + num % den = num := Nat.div_add_mod num den
  have hrest : num % den < den := Nat.mod_lt num hden
  set q := num / den with hq
  set r := num % den with hr
  -- the same two bounds for whole numbers
  have hlow' : 2 * (m * den) < 2 * num + den ∨ 2 * (m * den) = 2 * num + den ∧ m % 2 = 0 := by
    rcases hlow with h | ⟨h, hm⟩
    · left
      have : (2 : ℚ) * (m * den) < 2 * num + den := by rw [hnum]; nlinarith
      exact_mod_cast this
    · right
      have : (2 : ℚ) * (m * den) = 2 * num + den := by rw [hnum, ← h]; ring
      exact ⟨by exact_mod_cast this, hm⟩
  have hhigh' : 2 * num < 2 * (m * den) + den ∨ 2 * num = 2 * (m * den) + den ∧ m % 2 = 0 := by
    rcases hhigh with h | ⟨h, hm⟩
    · left
      have : (2 : ℚ) * num < 2 * (m * den) + den := by rw [hnum]; nlinarith
      exact_mod_cast this
    · right
      have : (2 : ℚ) * num = 2 * (m * den) + den := by rw [hnum, h]; ring
      exact ⟨by exact_mod_cast this, hm⟩
  have hle : q ≤ m := by
    by_contra! hlt
    have hmul : (m + 1) * den ≤ q * den := Nat.mul_le_mul_right den hlt
    rw [Nat.add_mul, Nat.mul_comm q den] at hmul
    omega
  have hge : m ≤ q + 1 := by
    by_contra! hlt
    have hmul : (q + 2) * den ≤ m * den := Nat.mul_le_mul_right den hlt
    rw [Nat.add_mul, Nat.mul_comm q den] at hmul
    omega
  unfold roundDiv
  dsimp only
  rw [← hq, ← hr]
  have hcases : m = q ∨ m = q + 1 := by omega
  rcases hcases with rfl | rfl
  · rw [Nat.mul_comm q den] at hlow' hhigh'
    rw [if_neg (by simp only [Bool.or_eq_true, Bool.and_eq_true, decide_eq_true_eq]; omega)]
  · rw [Nat.add_mul, Nat.mul_comm q den] at hlow' hhigh'
    rw [if_pos (by simp only [Bool.or_eq_true, Bool.and_eq_true, decide_eq_true_eq]; omega)]

theorem le_roundDiv {num den bound : Nat} (hden : 0 < den) (h : bound * den ≤ num) : bound ≤ roundDiv num den := by
  have hq : bound ≤ num / den := (Nat.le_div_iff_mul_le hden).2 h
  unfold roundDiv
  dsimp only
  split <;> omega

/-- Half the way from the mantissa `m` to that of the next smaller number. Below a power of two this one is twice as
near. -/
def lowEnd (m : Nat) (e : Int) : ℚ := if m = 2 ^ 52 ∧ e ≠ leastExponent then m - 1 / 4 else m - 1 / 2

/-- The numbers around `m * 2 ^ e`: from half the way to the next smaller number up to half the way to the next greater
one, with the ends if the mantissa is even. -/
structure Rounds (m : Nat) (e : Int) (q : ℚ) : Prop where
  low : lowEnd m e * 2 ^ e < q ∨ lowEnd m e * 2 ^ e = q ∧ m % 2 = 0
  high : q < (m + 1 / 2) * 2 ^ e ∨ q = (m + 1 / 2) * 2 ^ e ∧ m % 2 = 0

theorem sub_half_le_lowEnd (m : Nat) (e : Int) : (m : ℚ) - 1 / 2 ≤ lowEnd m e := by
  unfold lowEnd
  split <;> linarith

namespace Rounds

variable {m : Nat} {e : Int} {q : ℚ} (h : Rounds m e q)

include h

theorem low_le : lowEnd m e * 2 ^ e ≤ q := h.low.elim le_of_lt fun h => h.1.le

theorem le_high : q ≤ (m + 1 / 2) * 2 ^ e := h.high.elim le_of_lt fun h => h.1.le

theorem half_low : (m - 1 / 2) * 2 ^ e < q ∨ (m - 1 / 2) * 2 ^ e = q ∧ m % 2 = 0 := by
  have hpow : (0 : ℚ) < 2 ^ e := by positivity
  rcases (sub_half_le_lowEnd m e).lt_or_eq with hlt | heq
  · have hends : (m - 1 / 2) * 2 ^ e < lowEnd m e * 2 ^ e := by gcongr
    exact .inl (hends.trans_le h.low_le)
  · rw [heq]
    exact h.low

theorem lt_next (hm : m < 2 ^ 53) : q < 2 ^ 53 * 2 ^ e := by
  have hm' : (m : ℚ) + 1 ≤ 2 ^ 53 := by exact_mod_cast hm
  have hpow : (0 : ℚ) < 2 ^ e := by positivity
  calc q ≤ (m + 1 / 2) * 2 ^ e := h.le_high
    _ < 2 ^ 53 * 2 ^ e := by gcongr; linarith

/-- Around a positive number there are positive numbers only. -/
theorem le_of_pos (hm : 0 < m) : 1 / 2 * 2 ^ e ≤ q := by
  have hm' : (1 : ℚ) ≤ m := by exact_mod_cast hm
  have hpow : (0 : ℚ) < 2 ^ e := by positivity
  have hend := sub_half_le_lowEnd m e
  calc 1 / 2 * 2 ^ e ≤ lowEnd m e * 2 ^ e := by gcongr; linarith
    _ ≤ q := h.low_le

/-- Below the least mantissa of 53 bits there are numbers around it only, in the range of the next smaller exponent. -/
theorem eq_of_lt (hn : Normal m e) (hne : e ≠ leastExponent) (hlt : q < 2 ^ 52 * 2 ^ e) :
    m = 2 ^ 52 ∧ (2 ^ 52 - 1 / 4) * 2 ^ e ≤ q := by
  have hpow : (0 : ℚ) < 2 ^ e := by positivity
  have hfull : 2 ^ 52 ≤ m := hn.full.resolve_left hne
  have hlow := h.low_le
  have hm : m = 2 ^ 52 := by
    by_contra hm
    have hm' : (2 ^ 52 : ℚ) + 1 ≤ m := by exact_mod_cast lt_of_le_of_ne hfull (Ne.symm hm)
    have hend := sub_half_le_lowEnd m e
    have hover : (2 : ℚ) ^ 52 * 2 ^ e < lowEnd m e * 2 ^ e := by gcongr; linarith
    linarith
  refine ⟨hm, ?_⟩
  rw [lowEnd, if_pos ⟨hm, hne⟩, hm] at hlow
  exact_mod_cast hlow

end Rounds

section Nearest

variable {num den : Nat} (hnum : 0 < num) (hden : 0 < den)

include hnum hden

/-- What a number is rounded to, given its exponent and its rounded mantissa. -/
theorem nearest?_of_hasExponent {m : Nat} {e : Int} (he : HasExponent (num / den) e)
    (hm : roundDiv (scale num den e).1 (scale num den e).2 = m) :
    nearest? num den =
      if m = 2 ^ 53 then if greatestExponent < e + 1 then none else some (2 ^ 52, e + 1)
      else if greatestExponent < e then none else some (m, e) := by
  obtain rfl : binade num den = e := (hasExponent_binade hnum hden).unique he
  unfold nearest?
  dsimp only
  rw [hm]
  by_cases h : m = 2 ^ 53
  · rw [if_pos h, if_pos (show m = Nat.pow 2 53 from h)]
    rfl
  · rw [if_neg h, if_neg (show ¬m = Nat.pow 2 53 from h)]

/-- A number is rounded to the number of the format that it lies around. -/
theorem nearest?_eq_some {m : Nat} {e : Int} (hn : Normal m e) (h : Rounds m e (num / den)) :
    nearest? num den = some (m, e) := by
  have hpow : (0 : ℚ) < 2 ^ e := by positivity
  have hscale := scale_ratio num den
  by_cases hexponent : e = leastExponent ∨ 2 ^ 52 * 2 ^ e ≤ (num : ℚ) / den
  · have he : HasExponent (num / den) e := ⟨hn.low, h.lt_next hn.mantissa, hexponent⟩
    have hround : roundDiv (scale num den e).1 (scale num den e).2 = m := by
      refine roundDiv_eq (scale_snd_pos hden num e) ?_ ?_
      · rw [hscale, lt_div_iff₀ hpow, eq_div_iff hpow.ne']
        exact h.half_low
      · rw [hscale, div_lt_iff₀ hpow, div_eq_iff hpow.ne']
        exact h.high
    rw [nearest?_of_hasExponent hnum hden he hround, if_neg hn.mantissa.ne, if_neg (not_lt.2 hn.high)]
  · -- below a power of two, the mantissa is rounded up to it
    rw [not_or, not_le] at hexponent
    obtain ⟨rfl, hlow⟩ := h.eq_of_lt hn hexponent.1 hexponent.2
    have hpow' : (0 : ℚ) < 2 ^ (e - 1) := by positivity
    have hdouble : (2 : ℚ) ^ e = 2 ^ (e - 1) * 2 := by rw [← zpow_add_one₀ (by norm_num), sub_add_cancel]
    rw [hdouble] at hlow hexponent
    have he : HasExponent (num / den) (e - 1) := by
      refine ⟨Int.le_sub_one_of_lt (lt_of_le_of_ne hn.low (Ne.symm hexponent.1)), ?_, .inr ?_⟩ <;> linarith
    have hround : roundDiv (scale num den (e - 1)).1 (scale num den (e - 1)).2 = 2 ^ 53 := by
      refine roundDiv_eq (scale_snd_pos hden num (e - 1)) ?_ (.inl ?_)
      · rw [hscale, lt_div_iff₀ hpow', eq_div_iff hpow'.ne']
        refine (le_iff_lt_or_eq.1 ?_).imp_right fun heq => ⟨heq, by decide⟩
        push_cast
        linarith
      · rw [hscale, div_lt_iff₀ hpow']
        push_cast
        linarith
    rw [nearest?_of_hasExponent hnum hden he hround, if_pos rfl, sub_add_cancel, if_neg (not_lt.2 hn.high)]

/-- What a number is rounded to is in its one form. -/
theorem normal_of_nearest? {m : Nat} {e : Int} (h : nearest? num den = some (m, e)) : Normal m e := by
  have he := hasExponent_binade hnum hden
  have hbounds := nearest?_bounds hden h
  rw [nearest?_of_hasExponent hnum hden he rfl] at h
  refine ⟨hbounds.1, hbounds.2.1, hbounds.2.2, ?_⟩
  split at h
  · split at h
    · cases h
    · cases h
      exact .inr le_rfl
  · split at h
    · cases h
    · cases h
      refine he.low.imp_right fun hlow => ?_
      refine le_roundDiv (scale_snd_pos hden num _) ?_
      exact (le_scale_iff hden (2 ^ 52) _).2 (by exact_mod_cast hlow)

end Nearest

end Binary64

/-! ### Decimals -/

/-- A number has as many digits as the power of ten above it has zeros. -/
theorem lt_pow_length_toDigits (n : Nat) : n < 10 ^ (Nat.toDigits 10 n).length :=
  (Nat.length_toDigits_le_iff (by decide) (List.length_pos_iff.2 Nat.toDigits_ne_nil)).1 le_rfl

theorem pow_length_toDigits_le {n : Nat} (h : 0 < n) : 10 ^ ((Nat.toDigits 10 n).length - 1) ≤ n := by
  by_contra! hlt
  rcases Nat.eq_zero_or_pos ((Nat.toDigits 10 n).length - 1) with hzero | hpos
  · rw [hzero] at hlt
    omega
  · have hle := (Nat.length_toDigits_le_iff (by decide) hpos).2 hlt
    omega

namespace Decimal

/-- The number that a decimal stands for, without its sign. -/
def absolute (d : Decimal) : ℚ := d.digits * 10 ^ d.exponent

/-- How many digits of a decimal stand before the point. -/
def places (d : Decimal) : Int := d.exponent + (Nat.toDigits 10 d.digits).length

theorem absolute_lt (d : Decimal) : d.absolute < 10 ^ d.places := by
  have hdigits : (d.digits : ℚ) < 10 ^ (Nat.toDigits 10 d.digits).length := by
    exact_mod_cast lt_pow_length_toDigits d.digits
  rw [absolute, places, add_comm, zpow_add₀ (by norm_num), zpow_natCast]
  gcongr

theorem le_absolute {d : Decimal} (h : 0 < d.digits) : 10 ^ (d.places - 1) ≤ d.absolute := by
  have hdigits : (10 : ℚ) ^ ((Nat.toDigits 10 d.digits).length - 1) ≤ d.digits := by
    exact_mod_cast pow_length_toDigits_le h
  have hlength : 0 < (Nat.toDigits 10 d.digits).length := List.length_pos_iff.2 Nat.toDigits_ne_nil
  have hplaces : d.places - 1 = ((Nat.toDigits 10 d.digits).length - 1 : Nat) + d.exponent := by
    rw [places]
    omega
  rw [absolute, hplaces, zpow_add₀ (by norm_num), zpow_natCast]
  gcongr

end Decimal

namespace Binary64

/-- Half of the least number of the format. -/
theorem ten_zpow_lt_least : (10 : ℚ) ^ (-324 : Int) < 1 / 2 * 2 ^ leastExponent := by
  have hpow : 2 ^ 1075 < 10 ^ 324 := by decide +kernel
  have hpow' : (2 : ℚ) ^ 1075 < 10 ^ 324 := by exact_mod_cast hpow
  have hleast : 1 / 2 * (2 : ℚ) ^ leastExponent = (2 ^ 1075)⁻¹ := by
    rw [leastExponent, ← zpow_natCast, ← zpow_neg, one_div, ← zpow_neg_one, ← zpow_add₀ (by norm_num)]
    rfl
  rw [hleast, zpow_neg]
  exact inv_strictAnti₀ (by positivity) hpow'

/-- The power of two above all numbers of the format. -/
theorem greatest_lt_ten_zpow : 2 ^ 53 * (2 : ℚ) ^ greatestExponent < 10 ^ (309 : Int) := by
  have hpow : 2 ^ 1024 < 10 ^ 309 := by decide +kernel
  have hpow' : (2 : ℚ) ^ 1024 < 10 ^ 309 := by exact_mod_cast hpow
  have hgreatest : 2 ^ 53 * (2 : ℚ) ^ greatestExponent = 2 ^ 1024 := by
    rw [greatestExponent, ← zpow_natCast, ← zpow_natCast, ← zpow_add₀ (by norm_num)]
    rfl
  rw [hgreatest]
  exact hpow'

/-- The decimals around a number of the format are within the range that is computed with. -/
theorem places_of_rounds {d : Decimal} {m : Nat} {e : Int} (hn : Normal m e) (hm : 0 < m)
    (h : Rounds m e d.absolute) : 0 < d.digits ∧ -324 < d.places ∧ d.places < 310 := by
  have hlow : (10 : ℚ) ^ (-324 : Int) < d.absolute := by
    calc (10 : ℚ) ^ (-324 : Int) < 1 / 2 * 2 ^ leastExponent := ten_zpow_lt_least
      _ ≤ 1 / 2 * 2 ^ e := mul_le_mul_of_nonneg_left (two_zpow_mono hn.low) (by norm_num)
      _ ≤ d.absolute := h.le_of_pos hm
  have hhigh : d.absolute < 10 ^ (309 : Int) := by
    calc d.absolute < 2 ^ 53 * 2 ^ e := h.lt_next hn.mantissa
      _ ≤ 2 ^ 53 * 2 ^ greatestExponent := mul_le_mul_of_nonneg_left (two_zpow_mono hn.high) (by norm_num)
      _ < 10 ^ (309 : Int) := greatest_lt_ten_zpow
  have hdigits : 0 < d.digits := by
    refine Nat.pos_of_ne_zero fun hzero => ?_
    rw [Decimal.absolute, hzero, Nat.cast_zero, zero_mul] at hlow
    exact absurd hlow (by norm_num)
  refine ⟨hdigits, ?_, ?_⟩
  · exact (zpow_lt_zpow_iff_right₀ (by norm_num)).1 (hlow.trans d.absolute_lt)
  · have := (zpow_lt_zpow_iff_right₀ (by norm_num)).1 ((Decimal.le_absolute hdigits).trans_lt hhigh)
    omega

/-- A decimal is rounded to the number of the format that it lies around. -/
theorem ofDecimal?_eq_some {d : Decimal} {m : Nat} {e : Int} (hn : Normal m e) (hm : 0 < m)
    (h : Rounds m e d.absolute) : ofDecimal? d = some ⟨d.negative, m, e⟩ := by
  obtain ⟨hdigits, hlow, hhigh⟩ := places_of_rounds hn hm h
  have hplaces : d.exponent + ((Nat.toDigits 10 d.digits).length : Int) = d.places := rfl
  unfold ofDecimal?
  dsimp only
  rw [hplaces, if_neg (by simp only [Bool.or_eq_true, decide_eq_true_eq]; omega), if_neg (not_le.2 hhigh)]
  rw [Option.map_eq_some_iff]
  refine ⟨(m, e), ?_, rfl⟩
  split
  · rename_i hexponent
    obtain ⟨k, hk⟩ := Int.eq_ofNat_of_zero_le hexponent
    refine nearest?_eq_some (Nat.mul_pos hdigits (Nat.pow_pos (by decide))) Nat.one_pos hn ?_
    rw [Decimal.absolute, hk] at h
    simpa [hk] using h
  · rename_i hexponent
    obtain ⟨k, hk⟩ := Int.exists_eq_neg_ofNat (by omega : d.exponent ≤ 0)
    refine nearest?_eq_some hdigits (Nat.pow_pos (by decide)) hn ?_
    rw [Decimal.absolute, hk] at h
    simpa [hk, div_eq_mul_inv] using h

theorem normal_of_ofDecimal? {d : Decimal} {x : Binary64} (h : ofDecimal? d = some x) :
    Normal x.mantissa x.exponent ∧ x.negative = d.negative := by
  unfold ofDecimal? at h
  dsimp only at h
  split at h
  · cases h
    exact ⟨⟨by norm_num, le_rfl, show leastExponent ≤ greatestExponent by decide, .inl rfl⟩, rfl⟩
  · rename_i hsmall
    simp only [Bool.or_eq_true, decide_eq_true_eq, not_or] at hsmall
    have hdigits := Nat.pos_of_ne_zero hsmall.1
    split at h
    · cases h
    · obtain ⟨⟨m, e⟩, hnearest, rfl⟩ := Option.map_eq_some_iff.1 h
      refine ⟨?_, rfl⟩
      split at hnearest
      · exact normal_of_nearest? (Nat.mul_pos hdigits (Nat.pow_pos (by decide))) Nat.one_pos hnearest
      · exact normal_of_nearest? hdigits (Nat.pow_pos (by decide)) hnearest

end Binary64

end Arvore
