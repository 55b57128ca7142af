import Mathlib
import Arvore.Proofs.Machine.Basic

/-!
# Integers in words

A number stands in a word as its residue. Sums, differences and products of residues are residues of the result;
division and comparison ask for numbers that fit. Cutting a word to 32 bits and extending the sign again gives the
residue of the number that 32 bits hold.
-/

namespace Arvore.Machine

open Assembly

theorem ofInt_sub (w : Nat) (a b : Int) : BitVec.ofInt w (a - b) = BitVec.ofInt w a - BitVec.ofInt w b := by
  rw [Int.sub_eq_add_neg, BitVec.ofInt_add, BitVec.ofInt_neg, BitVec.sub_eq_add_neg]

/-- Cutting a residue gives the residue of fewer bits. -/
theorem setWidth_ofInt (z : Int) : (BitVec.ofInt 64 z).setWidth 32 = BitVec.ofInt 32 z := by
  apply BitVec.eq_of_toNat_eq
  rw [BitVec.toNat_setWidth, BitVec.toNat_ofInt, BitVec.toNat_ofInt]
  omega

/-- The numbers of 64 bits. -/
def Fits (z : Int) : Prop := -9223372036854775808 ≤ z ∧ z < 9223372036854775808

theorem toInt_ofInt {z : Int} (h : Fits z) : (BitVec.ofInt 64 z).toInt = z := by
  rw [BitVec.toInt_ofInt]
  unfold Fits at h
  exact Int.bmod_eq_of_le (by omega) (by omega)

/-! ### Division -/

theorem fits_tdiv {a b : Int} (ha : -9223372036854775808 < a ∧ a < 9223372036854775808) : Fits (a.tdiv b) := by
  have h : (a.tdiv b).natAbs ≤ a.natAbs := by
    rw [Int.natAbs_tdiv]
    exact Nat.div_le_self _ _
  unfold Fits
  omega

/-- The dividend is spread over two words by its sign. -/
theorem divide?_ofInt {a b : Int} (ha : -9223372036854775808 < a ∧ a < 9223372036854775808) (hb : Fits b)
    (h0 : b ≠ 0) :
    divide? (if (BitVec.ofInt 64 a).msb then -1 else 0) (BitVec.ofInt 64 a) (BitVec.ofInt 64 b) =
      some (BitVec.ofInt 64 (a.tdiv b), BitVec.ofInt 64 (a.tmod b)) := by
  have hfa : Fits a := ⟨by omega, by omega⟩
  have hmsb : (BitVec.ofInt 64 a).msb = decide (a < 0) := by rw [BitVec.msb_eq_toInt, toInt_ofInt hfa]
  have hdividend : (if (BitVec.ofInt 64 a).msb then -1 else 0 : Word).toInt * 18446744073709551616 +
      (BitVec.ofInt 64 a).toNat = a := by
    rw [hmsb, BitVec.toNat_ofInt]
    by_cases hneg : a < 0
    · have h1 : (-1 : Word).toInt = -1 := by decide
      rw [decide_eq_true hneg, if_pos rfl, h1]
      omega
    · have h1 : (0 : Word).toInt = 0 := by decide
      rw [decide_eq_false hneg, if_neg (by simp), h1]
      omega
  have hdivisor : BitVec.ofInt 64 b ≠ 0 := by
    intro h
    have hz : (BitVec.ofInt 64 b).toInt = (0 : Word).toInt := by rw [h]
    rw [toInt_ofInt hb] at hz
    exact h0 (by simpa using hz)
  have hq := fits_tdiv (b := b) ha
  unfold Fits at hq
  rw [divide?]
  simp only [hdividend, toInt_ofInt hb, hdivisor, decide_false, Bool.false_or, Bool.or_eq_true, decide_eq_true_eq]
  rw [if_neg (by omega)]

/-! ### Conditions -/

theorem zero_ofSub (a b : Word) : (Flags.ofSub a b).zero = decide (a.toInt = b.toInt) := by
  have h : a - b = 0 ↔ a.toInt = b.toInt := by rw [BitVec.toInt_inj, sub_eq_zero]
  simp only [Flags.ofSub, BEq.beq, h]

/-- Sign and overflow of a difference differ exactly if the first number is smaller. -/
theorem sign_ofSub (a b : Word) :
    ((Flags.ofSub a b).sign != (Flags.ofSub a b).overflow) = decide (a.toInt < b.toInt) := by
  have ha := BitVec.toInt_lt (x := a)
  have ha' := BitVec.le_toInt (x := a)
  have hb := BitVec.toInt_lt (x := b)
  have hb' := BitVec.le_toInt (x := b)
  have hmsb : (a - b).msb = decide ((a.toInt - b.toInt).bmod (2 ^ 64) < 0) := by
    rw [BitVec.msb_eq_toInt, BitVec.toInt_sub]
  simp only [Flags.ofSub, hmsb, BitVec.ssubOverflow, Int.bmod_def]
  by_cases h : a.toInt < b.toInt
  · rw [decide_eq_true h, bne_iff_ne, ne_eq, Bool.eq_iff_iff, Bool.or_eq_true]
    simp only [decide_eq_true_eq]
    omega
  · rw [decide_eq_false h, bne_eq_false_iff_eq, Bool.eq_iff_iff, Bool.or_eq_true]
    simp only [decide_eq_true_eq]
    omega

/-- The lowest byte that a condition was set into. -/
theorem merge_byte_mod (old : Word) (b : Bool) : (State.merge .byte old b.toNat).toNat % 256 = b.toNat := by
  have h := old.isLt
  have hb := b.toNat_le
  simp only [State.merge, BitVec.toNat_ofNat]
  omega

end Arvore.Machine
