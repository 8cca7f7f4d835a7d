/-
  Single bits of 32-bit words.

  * `bit`: a word with one bit, or none;
  * `and_bit`, `and_bit_ne_zero`: a word seen through a mask of one bit;
  * `and_absorb`: a mask within another one.
-/
import Mathlib.Data.Nat.Bitwise

namespace WordBits

/-- The word with bit `i`, if `b` says so. -/
def bit (b : Bool) (i : Nat) : UInt32 := if b then UInt32.ofNat (2 ^ i) else 0

variable {i : Nat}

theorem toNat_bit (hi : i < 32) (b : Bool) : (bit b i).toNat = b.toNat * 2 ^ i := by
  have hlt : 2 ^ i < 2 ^ 32 := Nat.pow_lt_pow_right (by decide) hi
  cases b with
  | false => exact (Nat.zero_mul _).symm
  | true =>
    rw [Bool.toNat_true, Nat.one_mul, bit, if_pos rfl, UInt32.toNat_ofNat', Nat.mod_eq_of_lt hlt]

theorem and_bit (hi : i < 32) (x : UInt32) :
    x &&& UInt32.ofNat (2 ^ i) = bit (x.toNat.testBit i) i := by
  have hlt : 2 ^ i < 2 ^ 32 := Nat.pow_lt_pow_right (by decide) hi
  rw [← UInt32.toNat_inj, toNat_bit hi, UInt32.toNat_and, UInt32.toNat_ofNat', Nat.mod_eq_of_lt hlt,
    Nat.and_two_pow]

theorem bit_ne_zero (hi : i < 32) (b : Bool) : (bit b i != 0) = b := by
  cases b with
  | false => rfl
  | true =>
    rw [bne_iff_ne, ne_eq, ← UInt32.toNat_inj, toNat_bit hi, Bool.toNat_true, Nat.one_mul]
    exact Nat.pos_iff_ne_zero.1 (Nat.two_pow_pos i)

theorem and_bit_ne_zero (hi : i < 32) (x : UInt32) :
    (x &&& UInt32.ofNat (2 ^ i) != 0) = x.toNat.testBit i := by
  rw [and_bit hi, bit_ne_zero hi]

/-- A bit of a word is moved down. -/
theorem and_bit_shiftRight {k : Nat} (hi : i < 32) (hk : k ≤ i) (x : UInt32) :
    (x &&& UInt32.ofNat (2 ^ i)) >>> UInt32.ofNat k = bit (x.toNat.testBit i) (i - k) := by
  have hshift : (UInt32.ofNat k).toNat % 32 = k := by
    rw [UInt32.toNat_ofNat', Nat.mod_eq_of_lt (a := k) (by omega), Nat.mod_eq_of_lt (by omega)]
  have hpow : 2 ^ i = 2 ^ (i - k) * 2 ^ k := by rw [← Nat.pow_add, Nat.sub_add_cancel hk]
  rw [and_bit hi, ← UInt32.toNat_inj, UInt32.toNat_shiftRight, hshift, toNat_bit hi,
    toNat_bit (by omega), Nat.shiftRight_eq_div_pow, hpow, ← Nat.mul_assoc,
    Nat.mul_div_cancel _ (Nat.two_pow_pos k)]

/-- A bit of a word is moved up. -/
theorem and_bit_shiftLeft {k : Nat} (hi : i + k < 32) (x : UInt32) :
    (x &&& UInt32.ofNat (2 ^ i)) <<< UInt32.ofNat k = bit (x.toNat.testBit i) (i + k) := by
  have hshift : (UInt32.ofNat k).toNat % 32 = k := by
    rw [UInt32.toNat_ofNat', Nat.mod_eq_of_lt (a := k) (by omega), Nat.mod_eq_of_lt (by omega)]
  have hlt := (bit (x.toNat.testBit i) (i + k)).toNat_lt
  rw [toNat_bit hi] at hlt
  rw [and_bit (by omega), ← UInt32.toNat_inj, UInt32.toNat_shiftLeft, hshift, toNat_bit hi,
    toNat_bit (by omega), Nat.shiftLeft_eq, Nat.mul_assoc, ← Nat.pow_add, Nat.mod_eq_of_lt hlt]

theorem testBit_bit (hi : i < 32) (b : Bool) : (bit b i).toNat.testBit i = b := by
  rw [toNat_bit hi]
  cases b with
  | false => rw [Bool.toNat_false, Nat.zero_mul, Nat.zero_testBit]
  | true => rw [Bool.toNat_true, Nat.one_mul, Nat.testBit_two_pow_self]

/-- Nothing of a word is behind a mask that has nothing of the word's own mask. -/
theorem and_absorb {x mask k : UInt32} (h : x &&& mask = x) : x &&& k = x &&& (mask &&& k) := by
  rw [← UInt32.and_assoc, h]

end WordBits
