/-
  The numbers that the extended format stands for, and their whole parts (`softfloat.c`).

  * `value`: the rational of a finite number;
  * `Normal`: the numbers with the leading bit of the mantissa;
  * `floatx80ToInt32RoundToZero`: the conversion that cuts off the fraction;
  * `toInt32_eq`: it gives the whole part, up to the ends of 32 bits.
-/
import CuteMac.Fpu.Instructions
import CuteMac.Lib.Scaled

namespace CuteMac.Fpu

open Scaled

namespace Floatx80

/-- The power of two that the mantissa counts; exponent 0 has that of exponent 1. -/
def scale (x : Floatx80) : ℤ := (max x.exponent.toNat 1 : ℕ) - 16446

/-- The number, where it is finite. -/
def value (x : Floatx80) : ℚ := (if x.negative then -1 else 1) * scaled x.low.toNat x.scale

def Finite (x : Floatx80) : Prop := x.exponent ≠ 0x7fff

instance (x : Floatx80) : Decidable x.Finite := by
  unfold Finite
  infer_instance

structure Normal (x : Floatx80) : Prop where
  finite : x.Finite
  exponent : x.exponent ≠ 0
  integer : 2 ^ 63 ≤ x.low.toNat

/-- Only zero and the denormal numbers have a mantissa without its leading bit. -/
def Canonical (x : Floatx80) : Prop := x.exponent = 0 ∨ 2 ^ 63 ≤ x.low.toNat

end Floatx80

/-- The conversion to an integer that cuts off the fraction. -/
def floatx80ToInt32RoundToZero (a : Floatx80) : UInt32 × UInt8 :=
  let aSig := a.low
  let aExp := a.exponent.toNat
  let aSign := a.negative
  let invalid (aSign : Bool) : UInt32 × UInt8 := (if aSign then 0x80000000 else 0x7fffffff, 1)
  if 0x401e < aExp then invalid (if aExp = 0x7fff ∧ aSig <<< 1 ≠ 0 then false else aSign)
  else if aExp < 0x3fff then (0, if aExp ≠ 0 ∨ aSig ≠ 0 then 32 else 0)
  else
    let shiftCount := UInt64.ofNat (0x403e - aExp)
    let z := (aSig >>> shiftCount).toUInt32
    let z := if aSign then 0 - z else z
    if decide (z.toInt32 < 0) != aSign then invalid aSign
    else (z, if (aSig >>> shiftCount) <<< shiftCount ≠ aSig then 32 else 0)

/-! ## The parts of a number -/

section
variable {x : Floatx80}

theorem exponent_lt (x : Floatx80) : x.exponent.toNat < 0x8000 := by
  unfold Floatx80.exponent
  rw [UInt16.toNat_and]
  exact lt_of_le_of_lt Nat.and_le_right (by decide)

theorem exponent_eq_zero : x.exponent = 0 ↔ x.exponent.toNat = 0 :=
  (UInt16.toNat_inj (b := 0)).symm

theorem finite_iff : x.Finite ↔ x.exponent.toNat < 0x7fff := by
  have hlt := exponent_lt x
  have hinj : x.exponent = 0x7fff ↔ x.exponent.toNat = 0x7fff := (UInt16.toNat_inj (b := 0x7fff)).symm
  exact (not_congr hinj).trans (by omega)

theorem or_and_short (a b m : UInt16) : (a ||| b) &&& m = (a &&& m) ||| (b &&& m) := by
  rw [← UInt16.toBitVec_inj]
  simp only [UInt16.toBitVec_or, UInt16.toBitVec_and]
  exact BitVec.and_or_distrib_right

/-- A word of the sign of another and of an exponent. -/
theorem exponent_signed (high k : UInt16) (low : UInt64) (h : k.toNat < 0x8000) :
    (⟨(high &&& 0x8000) ||| k, low⟩ : Floatx80).exponent = k := by
  have hnone : (0x8000 : UInt16) &&& 0x7fff = 0 := by decide
  unfold Floatx80.exponent
  rw [or_and_short, UInt16.and_assoc, hnone, UInt16.and_zero, UInt16.zero_or, ← UInt16.toNat_inj,
    UInt16.toNat_and]
  exact (Nat.and_two_pow_sub_one_eq_mod k.toNat 15).trans (Nat.mod_eq_of_lt h)

theorem negative_signed (high k : UInt16) (low : UInt64) (h : k.toNat < 0x8000) :
    (⟨(high &&& 0x8000) ||| k, low⟩ : Floatx80).negative = (high &&& 0x8000 != 0) := by
  have hzero : k &&& 0x8000 = 0 := by
    rw [← UInt16.toNat_inj, UInt16.toNat_and]
    apply Nat.eq_of_testBit_eq
    intro i
    have hbit : (0x8000 : Nat) = 2 ^ 15 := rfl
    show (k.toNat &&& 0x8000).testBit i = (0 : Nat).testBit i
    rw [Nat.testBit_and, Nat.zero_testBit, hbit, Nat.testBit_two_pow]
    by_cases hi : 15 = i
    · rw [← hi, Nat.testBit_eq_false_of_lt h, Bool.false_and]
    · rw [decide_eq_false hi, Bool.and_false]
  unfold Floatx80.negative
  dsimp only
  rw [or_and_short, UInt16.and_assoc, hzero, UInt16.and_self, UInt16.or_zero]

theorem abs_value (x : Floatx80) : |x.value| = scaled x.low.toNat x.scale := by
  unfold Floatx80.value
  rw [abs_mul, abs_of_nonneg (scaled_nonneg _ _)]
  split_ifs
  · rw [abs_neg, abs_one, one_mul]
  · rw [abs_one, one_mul]

theorem value_of_negative (h : x.negative = true) : x.value = -scaled x.low.toNat x.scale := by
  unfold Floatx80.value
  rw [if_pos h, neg_one_mul]

theorem value_of_positive (h : x.negative = false) : x.value = scaled x.low.toNat x.scale := by
  unfold Floatx80.value
  rw [h, if_neg Bool.false_ne_true, one_mul]

theorem low_lt (x : Floatx80) : x.low.toNat < 2 ^ 64 := x.low.toNat_lt

/-! ## Whole parts -/

/-- The whole part of the size of a number. -/
def whole (x : Floatx80) : ℕ := ⌊|x.value|⌋₊

theorem whole_eq (h : 0x3fff ≤ x.exponent.toNat ∧ x.exponent.toNat ≤ 0x403e) :
    whole x = x.low.toNat / 2 ^ (0x403e - x.exponent.toNat) := by
  have hscale : x.scale = -((0x403e - x.exponent.toNat : ℕ) : ℤ) := by
    unfold Floatx80.scale
    omega
  unfold whole
  rw [abs_value, hscale, floor_scaled_neg]

theorem whole_small (h : x.exponent.toNat < 0x3fff) : whole x = 0 := by
  unfold whole
  rw [Nat.floor_eq_zero, abs_value]
  have hlt := scaled_lt (e := x.scale) (low_lt x)
  have hexp : ((64 : ℕ) : ℤ) + x.scale ≤ 0 := by
    unfold Floatx80.scale
    omega
  exact lt_of_lt_of_le hlt (zpow_le_one_of_nonpos₀ (by norm_num) hexp)

theorem whole_large (hcan : x.Canonical) (h : 0x401e < x.exponent.toNat) : 2 ^ 32 ≤ whole x := by
  have hint : 2 ^ 63 ≤ x.low.toNat := by
    rcases hcan with h0 | hint
    · have hzero := exponent_eq_zero.1 h0
      omega
    · exact hint
  unfold whole
  refine Nat.le_floor ?_
  rw [abs_value]
  have hle := le_scaled (e := x.scale) hint
  have hexp : (32 : ℤ) ≤ (63 : ℕ) + x.scale := by
    unfold Floatx80.scale
    omega
  calc ((2 ^ 32 : ℕ) : ℚ) = 2 ^ (32 : ℤ) := by norm_num
    _ ≤ 2 ^ ((63 : ℕ) + x.scale) := zpow_le_zpow_right₀ (by norm_num) hexp
    _ ≤ scaled x.low.toNat x.scale := hle

/-- A word as a signed number. -/
theorem toInt_toInt32 (z : UInt32) :
    z.toInt32.toInt = if z.toNat < 2 ^ 31 then (z.toNat : ℤ) else z.toNat - 2 ^ 32 := by
  have hcond : z.toInt32.toInt = z.toBitVec.toInt := rfl
  rw [hcond, BitVec.toInt_eq_toNat_cond, UInt32.toNat_toBitVec]
  have hlt := z.toNat_lt
  split_ifs <;> omega

/-- The conversion gives the whole part with the sign, up to the ends of 32 bits. -/
theorem toInt32_eq (hfin : x.Finite) (hcan : x.Canonical) :
    (floatx80ToInt32RoundToZero x).1.toInt32.toInt
      = if x.negative then -((min (whole x) (2 ^ 31) : ℕ) : ℤ)
        else (min (whole x) (2 ^ 31 - 1) : ℕ) := by
  have hlt := finite_iff.1 hfin
  unfold floatx80ToInt32RoundToZero
  dsimp only
  by_cases hlarge : 0x401e < x.exponent.toNat
  · have hwhole := whole_large hcan hlarge
    have hnan : ¬ (x.exponent.toNat = 0x7fff ∧ x.low <<< 1 ≠ 0) := fun hnan => by omega
    rw [if_pos hlarge, if_neg hnan, Nat.min_eq_right (by omega), Nat.min_eq_right (by omega)]
    cases x.negative <;> rfl
  rw [if_neg hlarge]
  by_cases hsmall : x.exponent.toNat < 0x3fff
  · rw [if_pos hsmall, whole_small hsmall]
    cases x.negative <;> rfl
  rw [if_neg hsmall]
  have hshift : 0x3fff ≤ x.exponent.toNat ∧ x.exponent.toNat ≤ 0x403e := by omega
  have hwhole := whole_eq hshift
  have hint : 2 ^ 63 ≤ x.low.toNat := by
    rcases hcan with h0 | hint
    · have hzero := exponent_eq_zero.1 h0
      omega
    · exact hint
  have hcount : (UInt64.ofNat (0x403e - x.exponent.toNat)).toNat = 0x403e - x.exponent.toNat := by
    rw [UInt64.toNat_ofNat']
    omega
  -- the bits before the point fit the 32 bits of `z`, and there is at least one
  have hpos : 0 < whole x := by
    rw [hwhole]
    refine Nat.div_pos (le_trans (Nat.pow_le_pow_right (by decide) (by omega)) hint) (by positivity)
  have hfits : whole x < 2 ^ 32 := by
    rw [hwhole]
    refine Nat.div_lt_of_lt_mul (lt_of_lt_of_le (low_lt x) ?_)
    rw [← Nat.pow_add]
    exact Nat.pow_le_pow_right (by decide) (by omega)
  have hz : (x.low >>> UInt64.ofNat (0x403e - x.exponent.toNat)).toUInt32.toNat = whole x := by
    have hmod : (0x403e - x.exponent.toNat) % 64 = 0x403e - x.exponent.toNat :=
      Nat.mod_eq_of_lt (by omega)
    rw [UInt64.toNat_toUInt32, UInt64.toNat_shiftRight, hcount, hmod, Nat.shiftRight_eq_div_pow,
      ← hwhole, Nat.mod_eq_of_lt hfits]
  generalize (x.low >>> UInt64.ofNat (0x403e - x.exponent.toNat)).toUInt32 = z at hz ⊢
  cases x.negative with
  | false =>
    simp only [Bool.false_eq_true, if_false, Bool.bne_false]
    have hint := toInt_toInt32 z
    by_cases hneg : z.toInt32 < 0
    · rw [decide_eq_true hneg, if_pos rfl]
      have hneg' := Int32.lt_iff_toInt_lt.1 hneg
      rw [hint, Int32.toInt_zero] at hneg'
      rw [Nat.min_eq_right (by split_ifs at hneg' <;> omega)]
      rfl
    · rw [decide_eq_false hneg, if_neg Bool.false_ne_true]
      have hneg' := mt Int32.lt_iff_toInt_lt.2 hneg
      rw [hint, Int32.toInt_zero] at hneg'
      dsimp only
      rw [hint]
      have hlt' := z.toNat_lt
      split_ifs at hneg' ⊢ <;> omega
  | true =>
    simp only [if_true, Bool.bne_true]
    have hminus : (0 - z).toNat = 2 ^ 32 - whole x := by
      rw [UInt32.toNat_sub, hz, UInt32.toNat_zero, Nat.add_zero, Nat.mod_eq_of_lt (by omega)]
    have hint := toInt_toInt32 (0 - z)
    rw [hminus] at hint
    by_cases hneg : (0 - z).toInt32 < 0
    · rw [decide_eq_true hneg, Bool.not_true, if_neg Bool.false_ne_true]
      have hneg' := Int32.lt_iff_toInt_lt.1 hneg
      rw [hint, Int32.toInt_zero] at hneg'
      dsimp only
      rw [hint]
      split_ifs at hneg' ⊢ <;> omega
    · rw [decide_eq_false hneg, Bool.not_false, if_pos rfl]
      have hneg' := mt Int32.lt_iff_toInt_lt.2 hneg
      rw [hint, Int32.toInt_zero] at hneg'
      rw [Nat.min_eq_right (by split_ifs at hneg' <;> omega)]
      rfl

/-- The integer that the conversion gives. -/
def factor (x : Floatx80) : ℤ := (floatx80ToInt32RoundToZero x).1.toInt32.toInt

theorem factor_eq (hfin : x.Finite) (hcan : x.Canonical) :
    x.negative = true ∧ x.value = -|x.value| ∧ factor x = -((min (whole x) (2 ^ 31) : ℕ) : ℤ) ∨
      x.negative = false ∧ x.value = |x.value| ∧
        factor x = ((min (whole x) (2 ^ 31 - 1) : ℕ) : ℤ) := by
  unfold factor
  rw [toInt32_eq hfin hcan, abs_value]
  cases hsign : x.negative with
  | true => exact Or.inl ⟨rfl, value_of_negative hsign, if_pos rfl⟩
  | false => exact Or.inr ⟨rfl, value_of_positive hsign, if_neg Bool.false_ne_true⟩

theorem factor_nonneg_iff (hfin : x.Finite) (hcan : x.Canonical) : 0 ≤ factor x ↔ -1 < x.value := by
  have hfloor : whole x = 0 ↔ |x.value| < 1 := Nat.floor_eq_zero
  have habs := abs_nonneg x.value
  rcases factor_eq hfin hcan with ⟨-, hvalue, hf⟩ | ⟨-, hvalue, hf⟩
  · rw [hf, hvalue, neg_lt_neg_iff, ← hfloor]
    omega
  · rw [hf, hvalue]
    exact iff_of_true (by omega) (by linarith)

theorem factor_le_neg_iff (hfin : x.Finite) (hcan : x.Canonical) {k : ℕ} (hk : 0 < k)
    (hk31 : k ≤ 2 ^ 31) : factor x ≤ -k ↔ x.value ≤ -k := by
  have hfloor : k ≤ whole x ↔ (k : ℚ) ≤ |x.value| := Nat.le_floor_iff (abs_nonneg _)
  have habs := abs_nonneg x.value
  have hkq : (0 : ℚ) < k := Nat.cast_pos.2 hk
  rcases factor_eq hfin hcan with ⟨-, hvalue, hf⟩ | ⟨-, hvalue, hf⟩
  · rw [hf, hvalue, neg_le_neg_iff, neg_le_neg_iff, ← hfloor]
    omega
  · rw [hf, hvalue]
    exact iff_of_false (by omega) (by linarith)

theorem factor_le_iff (hfin : x.Finite) (hcan : x.Canonical) {k : ℕ} (hk : k < 2 ^ 31 - 1) :
    factor x ≤ k ↔ x.value < k + 1 := by
  have hfloor : whole x < k + 1 ↔ |x.value| < (k + 1 : ℕ) := Nat.floor_lt (abs_nonneg _)
  rw [Nat.cast_add, Nat.cast_one] at hfloor
  have habs := abs_nonneg x.value
  have hkq : (0 : ℚ) ≤ k := Nat.cast_nonneg k
  rcases factor_eq hfin hcan with ⟨-, hvalue, hf⟩ | ⟨-, hvalue, hf⟩
  · rw [hf, hvalue]
    exact iff_of_true (by omega) (by linarith)
  · rw [hf, hvalue, ← hfloor]
    omega

/-- An integer is its own whole part. -/
theorem factor_of_integer (hfin : x.Finite) (hcan : x.Canonical) {n : ℤ} (hn : x.value = n)
    (hsize : |n| < 2 ^ 31) : factor x = n := by
  have hwhole : whole x = n.natAbs := by
    unfold whole
    rw [hn, ← Int.cast_abs, Int.abs_eq_natAbs, Int.cast_natCast, Nat.floor_natCast]
  have hnat : (n.natAbs : ℤ) < 2 ^ 31 := by
    rw [← Int.abs_eq_natAbs]
    exact hsize
  have hcast : |x.value| = ((n.natAbs : ℤ) : ℚ) := by
    rw [hn, ← Int.cast_abs, Int.abs_eq_natAbs]
  rcases factor_eq hfin hcan with ⟨-, hvalue, hf⟩ | ⟨-, hvalue, hf⟩
  · rw [hcast, hn, ← Int.cast_neg] at hvalue
    have hsign := Int.cast_injective hvalue
    rw [hf, hwhole]
    omega
  · rw [hcast, hn] at hvalue
    have hsign := Int.cast_injective hvalue
    rw [hf, hwhole]
    omega

end

end CuteMac.Fpu
