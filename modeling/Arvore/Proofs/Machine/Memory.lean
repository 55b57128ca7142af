import Mathlib

/-!
# Memory

Memory holds one byte at each of the addresses of 64 bits, and addresses count round at the end. A value of several
bytes lies with its lowest byte first. Places are given by an address and a distance, so that two places from the same
address are apart if their distances are.
-/

namespace Arvore.Machine

/-- A machine word, which is also an address. -/
abbrev Word := BitVec 64

/-- The byte at each address. -/
abbrev Memory := Word → BitVec 8

/-- The address at a distance from another one. -/
def off (a : Word) (k : Nat) : Word := a + BitVec.ofNat 64 k

namespace Memory

/-- The value of so many bytes from an address on. -/
def read (m : Memory) (a : Word) : Nat → Nat
  | 0 => 0
  | n + 1 => (m a).toNat + 256 * read m (a + 1) n

/-- Writes so many bytes of a value from an address on. -/
def write (m : Memory) (a : Word) (n v : Nat) : Memory := fun b =>
  if (b - a).toNat < n then BitVec.ofNat 8 (v / 256 ^ (b - a).toNat) else m b

end Memory

/-! ### Distances -/

@[simp] theorem off_zero (a : Word) : off a 0 = a := by simp [off]

theorem off_off (a : Word) (j k : Nat) : off (off a j) k = off a (j + k) := by
  rw [off, off, off, BitVec.add_assoc, ← BitVec.ofNat_add]

theorem add_one_eq_off (a : Word) : a + 1 = off a 1 := rfl

/-- An address that is not below another one lies behind it. -/
theorem eq_off_of_le {a b : Word} (h : a.toNat ≤ b.toNat) : b = off a (b.toNat - a.toNat) := by
  apply BitVec.eq_of_toNat_eq
  have hb := b.isLt
  rw [off, BitVec.toNat_add, BitVec.toNat_ofNat]
  omega

/-- How far one place lies behind another one. -/
theorem toNat_off_sub_off {a : Word} {j k : Nat} (hjk : j ≤ k) (hk : k - j < 18446744073709551616) :
    (off a k - off a j).toNat = k - j := by
  have h : off a k - off a j = BitVec.ofNat 64 (k - j) := by
    have hk' : BitVec.ofNat 64 k = BitVec.ofNat 64 j + BitVec.ofNat 64 (k - j) := by
      rw [← BitVec.ofNat_add]
      congr 1
      omega
    rw [off, off, hk', ← BitVec.add_assoc, BitVec.add_comm, BitVec.add_sub_cancel]
  rw [h, BitVec.toNat_ofNat, Nat.mod_eq_of_lt hk]

/-- How far one place lies behind a later one, all the way round. -/
theorem toNat_off_sub_off_of_lt {a : Word} {j k : Nat} (hkj : k < j) (hj : j - k ≤ 18446744073709551616) :
    (off a k - off a j).toNat = 18446744073709551616 - (j - k) := by
  have h : off a k = off (off a j) (18446744073709551616 - (j - k)) := by
    rw [off_off]
    have hsum : j + (18446744073709551616 - (j - k)) = k + 2 ^ 64 := by omega
    rw [hsum, off, off, BitVec.ofNat_add]
    simp
  have h0 := toNat_off_sub_off (a := off a j) (j := 0) (k := 18446744073709551616 - (j - k)) (Nat.zero_le _) (by omega)
  rw [off_zero, ← h] at h0
  simpa using h0

namespace Memory

variable {m m' : Memory} {a : Word}

/-! ### Reading -/

theorem read_lt (m : Memory) (a : Word) (n : Nat) : m.read a n < 256 ^ n := by
  induction n generalizing a with
  | zero => simp [read]
  | succ n ih =>
    have h1 := (m a).isLt
    have h2 := ih (a + 1)
    rw [read, pow_succ]
    omega

/-- What is read depends on the bytes that are read. -/
theorem read_congr {n : Nat} (h : ∀ i < n, m' (off a i) = m (off a i)) : m'.read a n = m.read a n := by
  induction n generalizing a with
  | zero => rfl
  | succ n ih =>
    have h0 := h 0 (Nat.succ_pos n)
    rw [off_zero] at h0
    have hrest : m'.read (a + 1) n = m.read (a + 1) n := by
      apply ih
      intro i hi
      rw [add_one_eq_off, off_off]
      exact h (1 + i) (by omega)
    rw [read, read, h0, hrest]

/-- Bytes that are the digits of a number read as that number. -/
theorem read_eq_of_digits {n v : Nat} (h : ∀ i < n, m (off a i) = BitVec.ofNat 8 (v / 256 ^ i)) :
    m.read a n = v % 256 ^ n := by
  induction n generalizing a v with
  | zero => simp [read, Nat.mod_one]
  | succ n ih =>
    have h0 := h 0 (Nat.succ_pos n)
    rw [off_zero, pow_zero, Nat.div_one] at h0
    have hrest : m.read (a + 1) n = v / 256 % 256 ^ n := by
      apply ih
      intro i hi
      rw [add_one_eq_off, off_off, h (1 + i) (by omega), Nat.div_div_eq_div_mul, pow_add, pow_one]
    have hsplit : v % 256 ^ (n + 1) = v % 256 + 256 * (v / 256 % 256 ^ n) := by rw [pow_succ' 256 n, Nat.mod_mul]
    rw [read, h0, hrest, BitVec.toNat_ofNat, hsplit]

/-! ### Writing -/

/-- A byte that is written. -/
theorem write_apply {n v i : Nat} (hi : i < n) (hn : n ≤ 18446744073709551616) :
    m.write a n v (off a i) = BitVec.ofNat 8 (v / 256 ^ i) := by
  have h := toNat_off_sub_off (a := a) (Nat.zero_le i) (by omega)
  rw [off_zero, Nat.sub_zero] at h
  rw [write, h, if_pos hi]

/-- A byte before or behind those that are written. -/
theorem write_apply_of_apart {n v j k : Nat} (h : k < j ∨ j + n ≤ k) (hk : k < j + 18446744073709551616)
    (hj : j + n ≤ k + 18446744073709551616) : m.write (off a j) n v (off a k) = m (off a k) := by
  have hd : n ≤ (off a k - off a j).toNat := by
    rcases h with h | h
    · rw [toNat_off_sub_off_of_lt h (by omega)]
      omega
    · rw [toNat_off_sub_off (by omega) (by omega)]
      omega
  rw [write, if_neg (Nat.not_lt.2 hd)]

/-- What has been written is read again, as far as it has room. -/
theorem read_write {n v : Nat} (hn : n ≤ 18446744073709551616) : (m.write a n v).read a n = v % 256 ^ n :=
  read_eq_of_digits fun _ hi => write_apply hi hn

/-- Writing in one place does not change what is read in another. -/
theorem read_write_of_apart {n n' v j k : Nat} (h : k + n' ≤ j ∨ j + n ≤ k) (hk : k + n' ≤ j + 18446744073709551616)
    (hj : j + n ≤ k + 18446744073709551616) :
    (m.write (off a j) n v).read (off a k) n' = m.read (off a k) n' := by
  apply read_congr
  intro i hi
  rw [off_off]
  exact write_apply_of_apart (by omega) (by omega) (by omega)

end Memory

end Arvore.Machine
