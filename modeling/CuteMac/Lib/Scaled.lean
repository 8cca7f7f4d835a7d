/-
  Numbers of the form `m * 2 ^ e`.

  * `scaled m e`: the rational with this mantissa and this exponent;
  * `lt_scaled`, `scaled_lt`, `exponents_lt`: what the length of the mantissa says of the size;
  * `floor_scaled_neg`: the whole part of a number with a negative exponent.
-/
import Mathlib

namespace Scaled

def scaled (m : ℕ) (e : ℤ) : ℚ := m * 2 ^ e

section
variable {m k w : ℕ} {e d : ℤ}

theorem two_zpow_pos (e : ℤ) : (0 : ℚ) < 2 ^ e := by positivity

theorem two_zpow_lt_iff : (2 : ℚ) ^ e < 2 ^ d ↔ e < d := zpow_lt_zpow_iff_right₀ (by norm_num)

theorem scaled_mul (m : ℕ) (e n : ℤ) : scaled m e * 2 ^ n = scaled m (e + n) := by
  unfold scaled
  rw [mul_assoc, ← zpow_add₀ (by norm_num : (2 : ℚ) ≠ 0)]

theorem scaled_nonneg (m : ℕ) (e : ℤ) : 0 ≤ scaled m e :=
  mul_nonneg (Nat.cast_nonneg m) (two_zpow_pos e).le

theorem scaled_pos (h : m ≠ 0) : 0 < scaled m e :=
  mul_pos (Nat.cast_pos.2 (Nat.pos_of_ne_zero h)) (two_zpow_pos e)

theorem natCast_two_pow (w : ℕ) (e : ℤ) : ((2 ^ w : ℕ) : ℚ) * 2 ^ e = 2 ^ (w + e) := by
  rw [zpow_add₀ (by norm_num : (2 : ℚ) ≠ 0), zpow_natCast, Nat.cast_pow, Nat.cast_ofNat]

/-- A mantissa of at most `w` bits. -/
theorem scaled_lt (h : m < 2 ^ w) : scaled m e < 2 ^ (w + e) := by
  rw [← natCast_two_pow]
  exact mul_lt_mul_of_pos_right (Nat.cast_lt.2 h) (two_zpow_pos e)

/-- A mantissa whose bit `w` is set, or a higher one. -/
theorem le_scaled (h : 2 ^ w ≤ m) : 2 ^ (w + e) ≤ scaled m e := by
  rw [← natCast_two_pow]
  exact mul_le_mul_of_nonneg_right (Nat.cast_le.2 h) (two_zpow_pos e).le

/-- The numbers with one mantissa are told apart by the exponents. -/
theorem scaled_inj (h : m ≠ 0) : scaled m e = scaled m d ↔ e = d := by
  unfold scaled
  rw [mul_right_inj' (Nat.cast_ne_zero.2 h)]
  exact zpow_right_inj₀ (by norm_num) (by norm_num)

/-- Of two equal numbers, one is not below the range of the other. -/
theorem exponents_lt (h : scaled m e = scaled k d) {v : ℕ} (hm : 2 ^ v ≤ m) (hk : k < 2 ^ w) :
    v + e < w + d := by
  rw [← two_zpow_lt_iff]
  calc (2 : ℚ) ^ (v + e) ≤ scaled m e := le_scaled hm
    _ = scaled k d := h
    _ < 2 ^ (w + d) := scaled_lt hk

theorem floor_scaled_neg (m shift : ℕ) : ⌊scaled m (-shift)⌋₊ = m / 2 ^ shift := by
  have hscaled : scaled m (-shift) = (m : ℚ) / (2 ^ shift : ℕ) := by
    unfold scaled
    rw [zpow_neg, zpow_natCast, div_eq_mul_inv, Nat.cast_pow, Nat.cast_ofNat]
  rw [hscaled, Nat.floor_div_eq_div m (2 ^ shift)]

end

end Scaled
