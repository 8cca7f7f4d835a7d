/-
  The product of two numbers of the extended format (`softfloat.c`, `softfloat-macros`).

  * `mul64To128`, `wide_mul64To128`: the product of two words, from the products of their halves;
  * `floatx80Mul`: the product;
  * `floatx80Mul_rounds`: it is the rounding of the product of the numbers.
-/
import CuteMac.Fpu.ExtendedRounding

namespace CuteMac.Fpu

open Rounding Scaled

/-- The product of two words: the high word and the low one. -/
def mul64To128 (a b : UInt64) : UInt64 × UInt64 :=
  let aLow := a &&& 0xffffffff
  let aHigh := a >>> 32
  let bLow := b &&& 0xffffffff
  let bHigh := b >>> 32
  let zMiddleB := aHigh * bLow
  let zMiddleA := aLow * bHigh + zMiddleB
  let z0 := aHigh * bHigh + (((if zMiddleA < zMiddleB then (1 : UInt64) else 0) <<< 32) + (zMiddleA >>> 32))
  let zMiddleA := zMiddleA <<< 32
  let z1 := aLow * bLow + zMiddleA
  (z0 + (if z1 < zMiddleA then 1 else 0), z1)

def shortShift128Left (a0 a1 : UInt64) (count : Nat) : UInt64 × UInt64 :=
  (if count = 0 then a0 else (a0 <<< UInt64.ofNat count) ||| (a1 >>> UInt64.ofNat (64 - count)),
    a1 <<< UInt64.ofNat count)

def normalizeFloatx80Subnormal (aSig : UInt64) : Int × UInt64 :=
  let shiftCount := countLeadingZeros64 aSig
  (1 - (shiftCount : Int), aSig <<< UInt64.ofNat shiftCount)

def floatx80DefaultNan : Floatx80 := ⟨0xffff, 0xffffffffffffffff⟩

def propagateFloatx80NaN (a b : Floatx80) : Floatx80 × UInt8 :=
  let aIsSignalingNaN := floatx80IsSignalingNan a
  let bIsSignalingNaN := floatx80IsSignalingNan b
  let quiet (x : Floatx80) : Floatx80 := { x with low := x.low ||| 0xc000000000000000 }
  (if a.isNan then if aIsSignalingNaN && b.isNan then quiet b else quiet a else quiet b,
    if aIsSignalingNaN || bIsSignalingNaN then floatFlagInvalid else 0)

/-- The exponent and the significand of a number that is not zero, with its leading bit. -/
def normalized (aExp : Nat) (aSig : UInt64) : Int × UInt64 :=
  if aExp = 0 then normalizeFloatx80Subnormal aSig else (aExp, aSig)

def floatx80Mul (mode : RoundingMode) (a b : Floatx80) : Floatx80 × UInt8 :=
  let aSig := a.low
  let aExp := a.exponent.toNat
  let bSig := b.low
  let bExp := b.exponent.toNat
  let zSign := a.negative != b.negative
  let invalid : Floatx80 × UInt8 := (floatx80DefaultNan, floatFlagInvalid)
  let infinity : Floatx80 × UInt8 := (packFloatx80 zSign 0x7fff 0x8000000000000000, 0)
  if aExp = 0x7fff then
    if aSig <<< 1 ≠ 0 ∨ bExp = 0x7fff ∧ bSig <<< 1 ≠ 0 then propagateFloatx80NaN a b
    else if bExp = 0 ∧ bSig = 0 then invalid
    else infinity
  else if bExp = 0x7fff then
    if bSig <<< 1 ≠ 0 then propagateFloatx80NaN a b
    else if aExp = 0 ∧ aSig = 0 then invalid
    else infinity
  else if aExp = 0 ∧ aSig = 0 then (packFloatx80 zSign 0 0, 0)
  else if bExp = 0 ∧ bSig = 0 then (packFloatx80 zSign 0 0, 0)
  else
    let x := normalized aExp aSig
    let y := normalized bExp bSig
    let zExp := x.1 + y.1 - 0x3ffe
    let z := mul64To128 x.2 y.2
    if z.1 ≠ 0 ∧ z.1 < 0x8000000000000000 then
      let z := shortShift128Left z.1 z.2 1
      roundAndPackFloatx80 mode zSign (zExp - 1) z.1 z.2
    else roundAndPackFloatx80 mode zSign zExp z.1 z.2

/-! ## The product of two words -/

theorem toNat_bool (p : Prop) [Decidable p] :
    (if p then (1 : UInt64) else 0).toNat = if p then 1 else 0 := by
  split_ifs <;> rfl

/-- The product from the products of the halves, of which the middle ones can carry twice. -/
theorem product_of_halves {p q r s A m z c d : ℕ} (hp : p < 2 ^ 64) (hq : q < 2 ^ 64) (hr : r < 2 ^ 64)
    (hA : A = (q + r) % 2 ^ 64) (hm : m = A * 2 ^ 32 % 2 ^ 64) (hz : z = (p + m) % 2 ^ 64)
    (hc : c = if A < r then 1 else 0) (hd : d = if z < m then 1 else 0) :
    (s + (c * 2 ^ 32 + A / 2 ^ 32) + d) * 2 ^ 64 + z = s * 2 ^ 64 + (q + r) * 2 ^ 32 + p := by
  have hcarry : A + c * 2 ^ 64 = q + r := by split_ifs at hc <;> omega
  have hmiddle : m + A / 2 ^ 32 * 2 ^ 64 = A * 2 ^ 32 := by omega
  have hlow : z + d * 2 ^ 64 = p + m := by split_ifs at hd <;> omega
  omega

theorem wide_mul64To128 (a b : UInt64) :
    wide (mul64To128 a b).1 (mul64To128 a b).2 = a.toNat * b.toNat := by
  have hlow : ∀ x : UInt64, (x &&& 0xffffffff).toNat = x.toNat % 2 ^ 32 := by
    intro x
    rw [UInt64.toNat_and]
    exact Nat.and_two_pow_sub_one_eq_mod _ 32
  have hhigh : ∀ x : UInt64, (x >>> 32).toNat = x.toNat / 2 ^ 32 := fun x =>
    toNat_shiftRight_ofNat (k := 32) (by decide) x
  have hshift : ∀ x : UInt64, (x <<< 32).toNat = x.toNat * 2 ^ 32 % 2 ^ 64 := fun x =>
    toNat_shiftLeft_ofNat (k := 32) (by decide) x
  have ha := a.toNat_lt
  have hb := b.toNat_lt
  have hproduct : a.toNat * b.toNat < 2 ^ 64 * 2 ^ 64 := Nat.mul_lt_mul'' ha hb
  have hhalf : ∀ {i j : ℕ}, i < 2 ^ 32 → j < 2 ^ 32 → i * j < 2 ^ 64 := fun hi hj =>
    lt_of_lt_of_eq (Nat.mul_lt_mul'' hi hj) (by norm_num)
  obtain ⟨aL, haL⟩ : ∃ n, n = a.toNat % 2 ^ 32 := ⟨_, rfl⟩
  obtain ⟨aH, haH⟩ : ∃ n, n = a.toNat / 2 ^ 32 := ⟨_, rfl⟩
  obtain ⟨bL, hbL⟩ : ∃ n, n = b.toNat % 2 ^ 32 := ⟨_, rfl⟩
  obtain ⟨bH, hbH⟩ : ∃ n, n = b.toNat / 2 ^ 32 := ⟨_, rfl⟩
  have hexpand : a.toNat * b.toNat = aH * bH * 2 ^ 64 + (aL * bH + aH * bL) * 2 ^ 32 + aL * bL := by
    have hasplit : a.toNat = aH * 2 ^ 32 + aL := by omega
    have hbsplit : b.toNat = bH * 2 ^ 32 + bL := by omega
    rw [hasplit, hbsplit]
    ring
  have hll := hhalf (i := aL) (j := bL) (by omega) (by omega)
  have hlh := hhalf (i := aL) (j := bH) (by omega) (by omega)
  have hhl := hhalf (i := aH) (j := bL) (by omega) (by omega)
  have hhh := hhalf (i := aH) (j := bH) (by omega) (by omega)
  have hmul : ∀ {x y : UInt64} {i j : ℕ}, x.toNat = i → y.toNat = j → i * j < 2 ^ 64 →
      (x * y).toNat = i * j := by
    intro x y i j hx hy h
    rw [UInt64.toNat_mul, hx, hy, Nat.mod_eq_of_lt h]
  obtain ⟨z, hdef⟩ : ∃ z, mul64To128 a b = z := ⟨_, rfl⟩
  have hz := hdef
  unfold mul64To128 at hz
  dsimp only at hz
  obtain ⟨middleB, hmiddleB⟩ : ∃ x, x = (a >>> 32) * (b &&& (0xffffffff : UInt64)) := ⟨_, rfl⟩
  obtain ⟨middleA, hmiddleA⟩ : ∃ x, x = (a &&& (0xffffffff : UInt64)) * (b >>> 32) + middleB := ⟨_, rfl⟩
  obtain ⟨z1, hz1⟩ : ∃ x,
      x = (a &&& (0xffffffff : UInt64)) * (b &&& (0xffffffff : UInt64)) + (middleA <<< 32) := ⟨_, rfl⟩
  rw [← hmiddleB, ← hmiddleA, ← hz1] at hz
  have hB : middleB.toNat = aH * bL := by
    rw [hmiddleB]
    exact hmul ((hhigh a).trans haH.symm) ((hlow b).trans hbL.symm) hhl
  have hA : middleA.toNat = (aL * bH + aH * bL) % 2 ^ 64 := by
    rw [hmiddleA, UInt64.toNat_add, hB, hmul ((hlow a).trans haL.symm) ((hhigh b).trans hbH.symm) hlh]
  have hZ1 : z1.toNat = (aL * bL + middleA.toNat * 2 ^ 32 % 2 ^ 64) % 2 ^ 64 := by
    rw [hz1, UInt64.toNat_add, hshift, hmul ((hlow a).trans haL.symm) ((hlow b).trans hbL.symm) hll]
  have htotal := product_of_halves (s := aH * bH) hll hlh hhl hA rfl hZ1 rfl rfl
  rw [← hexpand] at htotal
  have hZ0 : z.1.toNat = aH * bH + ((if middleA.toNat < aH * bL then 1 else 0) * 2 ^ 32
      + middleA.toNat / 2 ^ 32) + if z1.toNat < middleA.toNat * 2 ^ 32 % 2 ^ 64 then 1 else 0 := by
    have hcarry : (if middleA < middleB then (1 : UInt64) else 0).toNat
        = if middleA.toNat < aH * bL then 1 else 0 := by
      rw [toNat_bool, ← hB]
      exact if_congr UInt64.lt_iff_toNat_lt rfl rfl
    have hcarry1 : (if z1 < middleA <<< 32 then (1 : UInt64) else 0).toNat
        = if z1.toNat < middleA.toNat * 2 ^ 32 % 2 ^ 64 then 1 else 0 := by
      rw [toNat_bool, ← hshift]
      exact if_congr UInt64.lt_iff_toNat_lt rfl rfl
    have hlt := z1.toNat_lt
    rw [← hz]
    dsimp only
    rw [UInt64.toNat_add, UInt64.toNat_add, UInt64.toNat_add, hshift, hhigh, hcarry, hcarry1,
      hmul ((hhigh a).trans haH.symm) ((hhigh b).trans hbH.symm) hhh]
    omega
  have hlast : z.2 = z1 := by rw [← hz]
  rw [hdef, wide, hZ0, hlast]
  exact htotal

theorem wide_shortShift128Left {z0 z1 : UInt64} {count : ℕ} (hcount : count < 64)
    (h : z0.toNat * 2 ^ count < 2 ^ 64) :
    wide (shortShift128Left z0 z1 count).1 (shortShift128Left z0 z1 count).2
      = wide z0 z1 * 2 ^ count := by
  have hz1 := z1.toNat_lt
  unfold shortShift128Left wide
  dsimp only
  rcases Nat.eq_zero_or_pos count with rfl | hpos
  · rw [if_pos rfl, toNat_shiftLeft_ofNat (by decide), Nat.pow_zero, Nat.mul_one, Nat.mul_one,
      Nat.mod_eq_of_lt hz1]
  · have hpow : 2 ^ 64 = 2 ^ (64 - count) * 2 ^ count := by
      rw [← Nat.pow_add, Nat.sub_add_cancel hcount.le]
    have hcarry : z1.toNat / 2 ^ (64 - count) < 2 ^ count := by
      rw [Nat.div_lt_iff_lt_mul (Nat.two_pow_pos _), Nat.mul_comm, ← hpow]
      exact hz1
    have hlow : z1.toNat * 2 ^ count % 2 ^ 64 = z1.toNat % 2 ^ (64 - count) * 2 ^ count := by
      rw [hpow, Nat.mul_mod_mul_right]
    have hsplit := Nat.div_add_mod' z1.toNat (2 ^ (64 - count))
    rw [if_neg hpos.ne', UInt64.toNat_or, toNat_shiftLeft_ofNat hcount,
      toNat_shiftRight_ofNat (by omega), toNat_shiftLeft_ofNat hcount, Nat.mod_eq_of_lt h,
      Nat.mul_comm z0.toNat, ← Nat.two_pow_add_eq_or_of_lt hcarry, hlow]
    calc (2 ^ count * z0.toNat + z1.toNat / 2 ^ (64 - count)) * 2 ^ 64
          + z1.toNat % 2 ^ (64 - count) * 2 ^ count
        = (z0.toNat * 2 ^ 64 + (z1.toNat / 2 ^ (64 - count) * 2 ^ (64 - count)
          + z1.toNat % 2 ^ (64 - count))) * 2 ^ count := by
          rw [show (2 : ℕ) ^ 64 = 2 ^ (64 - count) * 2 ^ count from hpow]
          ring
      _ = (z0.toNat * 2 ^ 64 + z1.toNat) * 2 ^ count := by rw [hsplit]

/-! ## The rounding -/

section
variable {x : Floatx80}

theorem normalizeFloatx80Subnormal_spec {sig : UInt64} (h : sig.toNat ≠ 0) :
    2 ^ 63 ≤ (normalizeFloatx80Subnormal sig).2.toNat ∧
      scaled (normalizeFloatx80Subnormal sig).2.toNat ((normalizeFloatx80Subnormal sig).1 - 16446)
        = scaled sig.toNat (-16445) := by
  have hsize : sig.toNat.size ≤ 64 := Nat.size_le.2 sig.toNat_lt
  have hsize0 : 0 < sig.toNat.size := Nat.size_pos.2 (Nat.pos_of_ne_zero h)
  have hmul := size_mul_two_pow h (64 - sig.toNat.size)
  have hlt : sig.toNat * 2 ^ (64 - sig.toNat.size) < 2 ^ 64 := Nat.size_le.1 (by omega)
  have hge : 2 ^ 63 ≤ sig.toNat * 2 ^ (64 - sig.toNat.size) := Nat.lt_size.1 (by omega)
  unfold normalizeFloatx80Subnormal
  dsimp only
  rw [countLeadingZeros64_eq, toNat_shiftLeft_ofNat (by omega), Nat.mod_eq_of_lt hlt]
  refine ⟨hge, ?_⟩
  rw [scaled, scaled, Nat.cast_mul, mul_assoc, natCast_two_pow]
  congr 2
  omega

/-- A number that is not zero, with the leading bit of its significand. -/
theorem normalized_spec (hcan : x.Canonical) (hne : ¬(x.exponent.toNat = 0 ∧ x.low = 0))
    {y : ℤ × UInt64} (hy : normalized x.exponent.toNat x.low = y) :
    2 ^ 63 ≤ y.2.toNat ∧ |x.value| = scaled y.2.toNat (y.1 - 16446) := by
  unfold normalized at hy
  rcases Nat.eq_zero_or_pos x.exponent.toNat with h0 | hpos
  · rw [if_pos h0] at hy
    subst hy
    obtain ⟨hbig, hvalue⟩ := normalizeFloatx80Subnormal_spec fun h => hne ⟨h0, UInt64.toNat_inj.1 h⟩
    refine ⟨hbig, ?_⟩
    rw [hvalue, abs_value, Floatx80.scale, h0]
    rfl
  · rw [if_neg hpos.ne'] at hy
    subst hy
    refine ⟨hcan.resolve_left fun h => hpos.ne' (exponent_eq_zero.1 h), ?_⟩
    rw [abs_value, Floatx80.scale, Nat.max_eq_left hpos]

theorem scaled_double (m : ℕ) (e : ℤ) : scaled (2 * m) e = scaled m (e + 1) := by
  unfold scaled
  rw [zpow_add_one₀ two_ne_zero]
  push_cast
  ring

theorem value_eq_zero (h : x.low = 0) : x.value = 0 := by
  have hz : x.low.toNat = 0 := by rw [h]; rfl
  rw [← abs_eq_zero, abs_value, hz, scaled, Nat.cast_zero, zero_mul]

end

theorem floatx80Mul_spec (mode : RoundingMode) {a b : Floatx80} (ha : a.Finite) (hacan : a.Canonical)
    (hb : b.Finite) (hbcan : b.Canonical) :
    RoundedTo mode (a.negative != b.negative) |a.value * b.value| (floatx80Mul mode a b) := by
  unfold floatx80Mul
  dsimp only
  rw [if_neg (finite_iff.1 ha).ne, if_neg (finite_iff.1 hb).ne]
  by_cases ha0 : a.exponent.toNat = 0 ∧ a.low = 0
  · rw [if_pos ha0]
    rw [value_eq_zero ha0.2, zero_mul, abs_zero]
    exact roundedTo_zero _ _
  rw [if_neg ha0]
  by_cases hb0 : b.exponent.toNat = 0 ∧ b.low = 0
  · rw [if_pos hb0]
    rw [value_eq_zero hb0.2, mul_zero, abs_zero]
    exact roundedTo_zero _ _
  rw [if_neg hb0]
  obtain ⟨x, hx⟩ : ∃ x, normalized a.exponent.toNat a.low = x := ⟨_, rfl⟩
  obtain ⟨y, hy⟩ : ∃ y, normalized b.exponent.toNat b.low = y := ⟨_, rfl⟩
  obtain ⟨hxbig, hxvalue⟩ := normalized_spec hacan ha0 hx
  obtain ⟨hybig, hyvalue⟩ := normalized_spec hbcan hb0 hy
  have hproduct := wide_mul64To128 x.2 y.2
  have hlarge : 2 ^ 63 * 2 ^ 63 ≤ x.2.toNat * y.2.toNat := Nat.mul_le_mul hxbig hybig
  have hvalue : |a.value * b.value| = scaled (x.2.toNat * y.2.toNat) (x.1 - 16446 + (y.1 - 16446)) := by
    rw [abs_mul, hxvalue, hyvalue, scaled, scaled, scaled, mul_mul_mul_comm, ← Nat.cast_mul,
      ← zpow_add₀ two_ne_zero]
  rw [hx, hy]
  obtain ⟨z, hz⟩ : ∃ z, mul64To128 x.2 y.2 = z := ⟨_, rfl⟩
  rw [hz] at hproduct ⊢
  have hlow := z.2.toNat_lt
  have htop : z.1 < 0x8000000000000000 ↔ z.1.toNat < 2 ^ 63 := UInt64.lt_iff_toNat_lt
  have hne : z.1 ≠ 0 := by
    intro h
    have hz1 : z.1.toNat = 0 := by rw [h]; rfl
    unfold wide at hproduct
    omega
  by_cases hsmall : z.1.toNat < 2 ^ 63
  · rw [if_pos ⟨hne, htop.2 hsmall⟩]
    have hdouble : wide (shortShift128Left z.1 z.2 1).1 (shortShift128Left z.1 z.2 1).2
        = wide z.1 z.2 * 2 ^ 1 := wide_shortShift128Left (by decide) (by omega)
    rw [Nat.pow_one, Nat.mul_comm] at hdouble
    refine roundAndPackFloatx80_rounds (m := 2 * wide z.1 z.2) (j := 0) (.inr ?_) (fun k hk => ?_) ?_
    · have hdiv := wide_div (shortShift128Left z.1 z.2 1).1 (shortShift128Left z.1 z.2 1).2
      rw [← hdiv, hdouble, hproduct]
      omega
    · rw [hdouble]
      exact SameSide.refl _ _
    · rw [hvalue, hproduct, scaled_double]
      congr 1
      push_cast
      ring
  · rw [if_neg fun h => hsmall (htop.1 h.2)]
    refine roundAndPackFloatx80_rounds (m := wide z.1 z.2) (j := 0) (.inr (Nat.not_lt.1 hsmall))
      (fun k _ => SameSide.refl _ _) ?_
    rw [hvalue, hproduct]
    congr 1
    push_cast
    ring

/-- The product is the rounding of the product of the numbers. -/
theorem floatx80Mul_rounds (mode : RoundingMode) (a b : Floatx80) (ha : a.Finite) (hacan : a.Canonical)
    (hb : b.Finite) (hbcan : b.Canonical) :
    RoundedTo mode (a.negative != b.negative) |a.value * b.value| (floatx80Mul mode a b) :=
  floatx80Mul_spec mode ha hacan hb hbcan

/-- A third of three, rounded down. -/
theorem floatx80Mul_rounds_third :
    RoundedTo .down false
      |(⟨0x3ffd, 0xaaaaaaaaaaaaaaab⟩ : Floatx80).value * (⟨0x4000, 0xc000000000000000⟩ : Floatx80).value|
      (floatx80Mul .down ⟨0x3ffd, 0xaaaaaaaaaaaaaaab⟩ ⟨0x4000, 0xc000000000000000⟩) :=
  floatx80Mul_rounds .down ⟨0x3ffd, 0xaaaaaaaaaaaaaaab⟩ ⟨0x4000, 0xc000000000000000⟩ (by decide)
    (.inr (by decide)) (by decide) (.inr (by decide))

example : floatx80Mul .down ⟨0x3ffd, 0xaaaaaaaaaaaaaaab⟩ ⟨0x4000, 0xc000000000000000⟩
    = (⟨0x3fff, 0x8000000000000000⟩, floatFlagInexact) := by
  decide +kernel

end CuteMac.Fpu
