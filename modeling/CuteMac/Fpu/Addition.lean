/-
  Sums and differences of numbers of the extended format (`softfloat.c`, `softfloat-macros`).

  * `addFloatx80Sigs`, `subFloatx80Sigs`: the sum and the difference of the sizes;
  * `floatx80Add`, `floatx80Sub`: they are chosen by the signs;
  * `addFloatx80Sigs_rounds`, `subFloatx80Sigs_rounds`: what is lost when the smaller number is
    shifted does not change the rounding;
  * `floatx80_sum_rounds`: the results are the roundings of the sum and the difference of the numbers.
-/
import CuteMac.Fpu.Multiplication

namespace CuteMac.Fpu

open Rounding Scaled

def shift128RightJamming (a0 a1 : UInt64) (count : Nat) : UInt64 × UInt64 :=
  if count = 0 then (a0, a1)
  else if count < 64 then
    (a0 >>> UInt64.ofNat count,
      (a0 <<< UInt64.ofNat (64 - count)) ||| (a1 >>> UInt64.ofNat count) |||
        (if a1 <<< UInt64.ofNat (64 - count) ≠ 0 then 1 else 0))
  else
    (0,
      if count = 64 then a0 ||| (if a1 ≠ 0 then 1 else 0)
      else if count < 128 then
        (a0 >>> UInt64.ofNat (count - 64)) |||
          (if (a0 <<< UInt64.ofNat (128 - count)) ||| a1 ≠ 0 then 1 else 0)
      else if a0 ||| a1 ≠ 0 then 1 else 0)

def sub128 (a0 a1 b0 b1 : UInt64) : UInt64 × UInt64 :=
  (a0 - b0 - (if a1 < b1 then 1 else 0), a1 - b1)

def normalizeRoundAndPackFloatx80 (mode : RoundingMode) (zSign : Bool) (zExp : Int)
    (zSig0 zSig1 : UInt64) : Floatx80 × UInt8 :=
  let pack (zExp : Int) (zSig0 zSig1 : UInt64) : Floatx80 × UInt8 :=
    let shiftCount := countLeadingZeros64 zSig0
    let z := shortShift128Left zSig0 zSig1 shiftCount
    roundAndPackFloatx80 mode zSign (zExp - shiftCount) z.1 z.2
  if zSig0 = 0 then pack (zExp - 64) zSig1 0 else pack zExp zSig0 zSig1

/-- What follows a carry out of the significand (`shiftRight1`). -/
def shiftRight1 (mode : RoundingMode) (zSign : Bool) (zExp : Int) (zSig0 zSig1 : UInt64) :
    Floatx80 × UInt8 :=
  let z := shift64ExtraRightJamming zSig0 zSig1 1
  roundAndPackFloatx80 mode zSign (zExp + 1) (z.1 ||| 0x8000000000000000) z.2

def addFloatx80Sigs (mode : RoundingMode) (a b : Floatx80) (zSign : Bool) : Floatx80 × UInt8 :=
  let aSig := a.low
  let aExp := a.exponent.toNat
  let bSig := b.low
  let bExp := b.exponent.toNat
  let aligned (zExp : Nat) (zSig0 zSig1 : UInt64) : Floatx80 × UInt8 :=
    if 0x8000000000000000 ≤ zSig0 then roundAndPackFloatx80 mode zSign zExp zSig0 zSig1
    else shiftRight1 mode zSign zExp zSig0 zSig1
  if bExp < aExp then
    if aExp = 0x7fff then if aSig <<< 1 ≠ 0 then propagateFloatx80NaN a b else (a, 0)
    else
      let z := shift64ExtraRightJamming bSig 0 (if bExp = 0 then aExp - bExp - 1 else aExp - bExp)
      aligned aExp (aSig + z.1) z.2
  else if aExp < bExp then
    if bExp = 0x7fff then
      if bSig <<< 1 ≠ 0 then propagateFloatx80NaN a b
      else (packFloatx80 zSign 0x7fff 0x8000000000000000, 0)
    else
      let z := shift64ExtraRightJamming aSig 0 (if aExp = 0 then bExp - aExp - 1 else bExp - aExp)
      aligned bExp (z.1 + bSig) z.2
  else if aExp = 0x7fff then
    if (aSig ||| bSig) <<< 1 ≠ 0 then propagateFloatx80NaN a b else (a, 0)
  else if aExp = 0 then
    let z := normalizeFloatx80Subnormal (aSig + bSig)
    roundAndPackFloatx80 mode zSign z.1 z.2 0
  else shiftRight1 mode zSign aExp (aSig + bSig) 0

def subFloatx80Sigs (mode : RoundingMode) (a b : Floatx80) (zSign : Bool) : Floatx80 × UInt8 :=
  let aSig := a.low
  let aExp := a.exponent.toNat
  let bSig := b.low
  let bExp := b.exponent.toNat
  let bigger (zSign : Bool) (zExp : Nat) (sig : UInt64) (z : UInt64 × UInt64) : Floatx80 × UInt8 :=
    let d := sub128 sig 0 z.1 z.2
    normalizeRoundAndPackFloatx80 mode zSign zExp d.1 d.2
  if bExp < aExp then
    if aExp = 0x7fff then if aSig <<< 1 ≠ 0 then propagateFloatx80NaN a b else (a, 0)
    else
      bigger zSign aExp aSig
        (shift128RightJamming bSig 0 (if bExp = 0 then aExp - bExp - 1 else aExp - bExp))
  else if aExp < bExp then
    if bExp = 0x7fff then
      if bSig <<< 1 ≠ 0 then propagateFloatx80NaN a b
      else (packFloatx80 (!zSign) 0x7fff 0x8000000000000000, 0)
    else
      bigger (!zSign) bExp bSig
        (shift128RightJamming aSig 0 (if aExp = 0 then bExp - aExp - 1 else bExp - aExp))
  else if aExp = 0x7fff then
    if (aSig ||| bSig) <<< 1 ≠ 0 then propagateFloatx80NaN a b
    else (floatx80DefaultNan, floatFlagInvalid)
  else
    let zExp := if aExp = 0 then 1 else aExp
    if bSig < aSig then bigger zSign zExp aSig (bSig, 0)
    else if aSig < bSig then bigger (!zSign) zExp bSig (aSig, 0)
    else (packFloatx80 (mode == .down) 0 0, 0)

def floatx80Add (mode : RoundingMode) (a b : Floatx80) : Floatx80 × UInt8 :=
  if a.negative = b.negative then addFloatx80Sigs mode a b a.negative
  else subFloatx80Sigs mode a b a.negative

def floatx80Sub (mode : RoundingMode) (a b : Floatx80) : Floatx80 × UInt8 :=
  if a.negative = b.negative then subFloatx80Sigs mode a b a.negative
  else addFloatx80Sigs mode a b a.negative

/-! ## Sums -/

section
variable {mode : RoundingMode} {zSign : Bool} {v : ℚ}

theorem wide_zero (a : UInt64) : wide a 0 = a.toNat * 2 ^ 64 := Nat.add_zero _

/-- A sum that has carried out of its first word. -/
theorem shiftRight1_rounds {zExp : ℤ} {zSig0 zSig1 : UInt64} {m D : ℕ}
    (hside : SameSide 64 (wide zSig0 zSig1 + 2 ^ 64 * 2 ^ 64) (64 + D) m)
    (hv : v = scaled m (zExp - 16510 - D)) :
    RoundedTo mode zSign v (shiftRight1 mode zSign zExp zSig0 zSig1) := by
  obtain ⟨z, hz⟩ : ∃ z, shift64ExtraRightJamming zSig0 zSig1 1 = z := ⟨_, rfl⟩
  have hshift := shift64ExtraRightJamming_sameSide zSig0 zSig1 1 hz
  have hhigh : z.1.toNat < 2 ^ 63 := by
    have hq := hshift.quotient
    have hlt := zSig0.toNat_lt
    rw [wide_div, (wide_split ..).1] at hq
    omega
  have hor : (z.1 ||| 0x8000000000000000).toNat = 2 ^ 63 + z.1.toNat :=
    toNat_or_two_pow (p := 63) (by decide) hhigh
  have hwide : wide (z.1 ||| 0x8000000000000000) z.2 = wide z.1 z.2 + 2 ^ 63 * 2 ^ 64 := by
    rw [wide, hor, wide]
    ring
  have hcarry : wide zSig0 zSig1 + 2 ^ 63 * 2 ^ (64 + 1) = wide zSig0 zSig1 + 2 ^ 64 * 2 ^ 64 := rfl
  have hsame : SameSide 64 (wide (z.1 ||| 0x8000000000000000) z.2) (64 + (D + 1)) m := by
    have h := (hshift.add (2 ^ 63)).trans (hcarry ▸ hside.widen 1)
    rwa [← hwide, Nat.add_assoc] at h
  unfold shiftRight1
  rw [hz]
  refine roundAndPackFloatx80_rounds (m := m) (j := D + 1) (.inr (by omega)) (fun k hk => ?_) ?_
  · obtain ⟨i, rfl⟩ : ∃ i, k = 64 + i := ⟨k - 64, by omega⟩
    have h := hsame.widen i
    rwa [Nat.add_right_comm] at h
  · rw [hv]
    congr 1
    push_cast
    ring

/-- A larger number and a smaller one that was shifted. -/
theorem aligned_rounds {zExp : ℕ} {A B sum : UInt64} {D : ℕ} {z : UInt64 × UInt64}
    (hA : 2 ^ 63 ≤ A.toNat) (hB : 0 < D ∨ B.toNat < 2 ^ 63)
    (hz : shift64ExtraRightJamming B 0 D = z) (hsum : sum = A + z.1)
    (hv : v = scaled ((A.toNat * 2 ^ D + B.toNat) * 2 ^ 64) (zExp - 16510 - D)) :
    RoundedTo mode zSign v
      (if 0x8000000000000000 ≤ sum then roundAndPackFloatx80 mode zSign zExp sum z.2
        else shiftRight1 mode zSign zExp sum z.2) := by
  have hAlt := A.toNat_lt
  have hshift := shift64ExtraRightJamming_sameSide B 0 D hz
  have hquot : z.1.toNat = B.toNat / 2 ^ D := by
    have hq := hshift.quotient
    rwa [wide_div, (wide_split ..).1] at hq
  have hsmall : z.1.toNat < 2 ^ 63 := by
    rw [hquot]
    rcases hB with hD | hB
    · have hpow : 2 ^ 1 ≤ 2 ^ D := Nat.pow_le_pow_right Nat.two_pos hD
      have hBlt := B.toNat_lt
      rw [Nat.div_lt_iff_lt_mul (by omega)]
      omega
    · exact lt_of_le_of_lt (Nat.div_le_self _ _) hB
  rw [wide_zero] at hshift
  have hadd := hshift.add A.toNat
  have hm : B.toNat * 2 ^ 64 + A.toNat * 2 ^ (64 + D) = (A.toNat * 2 ^ D + B.toNat) * 2 ^ 64 := by
    rw [Nat.pow_add]
    ring
  rw [hm] at hadd
  have htop : (0x8000000000000000 : UInt64) ≤ sum ↔ 2 ^ 63 ≤ sum.toNat := UInt64.le_iff_toNat_le
  have htoNat : sum.toNat = (A.toNat + z.1.toNat) % 2 ^ 64 := by rw [hsum, UInt64.toNat_add]
  by_cases hcarry : A.toNat + z.1.toNat < 2 ^ 64
  · rw [Nat.mod_eq_of_lt hcarry] at htoNat
    have hwide : wide sum z.2 = wide z.1 z.2 + A.toNat * 2 ^ 64 := by
      rw [wide, wide, htoNat]
      ring
    rw [← hwide] at hadd
    rw [if_pos (htop.2 (by omega))]
    refine roundAndPackFloatx80_rounds (.inr (by omega)) (fun k hk => ?_) hv
    obtain ⟨i, rfl⟩ : ∃ i, k = 64 + i := ⟨k - 64, by omega⟩
    have h := hadd.widen i
    rwa [Nat.add_right_comm] at h
  · have hwide : wide sum z.2 + 2 ^ 64 * 2 ^ 64 = wide z.1 z.2 + A.toNat * 2 ^ 64 := by
      have hword : sum.toNat + 2 ^ 64 = A.toNat + z.1.toNat := by omega
      calc wide sum z.2 + 2 ^ 64 * 2 ^ 64 = (sum.toNat + 2 ^ 64) * 2 ^ 64 + z.2.toNat := by
            unfold wide
            ring
        _ = wide z.1 z.2 + A.toNat * 2 ^ 64 := by
            rw [hword, wide]
            ring
    rw [← hwide] at hadd
    rw [if_neg (mt htop.1 (by omega))]
    exact shiftRight1_rounds hadd hv

end

/-- The numbers that the arithmetic gives: those below the smallest exponent, and only they, have
    no leading bit. -/
def Floatx80.Proper (x : Floatx80) : Prop := x.exponent.toNat = 0 ↔ x.low.toNat < 2 ^ 63

instance (x : Floatx80) : Decidable x.Proper := by
  unfold Floatx80.Proper
  infer_instance

section
variable {mode : RoundingMode} {zSign : Bool} {a b : Floatx80}

theorem scaled_wide (n : ℕ) (e : ℤ) : scaled (n * 2 ^ 64) (e - 64) = scaled n e := by
  rw [scaled, scaled, Nat.cast_mul, mul_assoc, natCast_two_pow]
  congr 2
  push_cast
  ring

theorem scaled_two_pow (m : ℕ) (e : ℤ) (t : ℕ) : scaled (m * 2 ^ t) e = scaled m (e + t) := by
  rw [scaled, scaled, Nat.cast_mul, mul_assoc, natCast_two_pow, add_comm]

theorem scaled_add (m n : ℕ) (e : ℤ) : scaled m e + scaled n e = scaled (m + n) e := by
  unfold scaled
  push_cast
  ring

/-- The sum of the sizes, with the exponents brought together. -/
theorem abs_add_abs {D : ℕ} (h : a.scale = b.scale + D) :
    |a.value| + |b.value| = scaled ((a.low.toNat * 2 ^ D + b.low.toNat) * 2 ^ 64) (a.scale - 64 - D) := by
  rw [abs_value, abs_value, h, ← scaled_two_pow, scaled_add, ← scaled_wide]
  congr 1
  ring

theorem addFloatx80Sigs_rounds (mode : RoundingMode) (zSign : Bool) (ha : a.Finite) (hap : a.Proper)
    (hb : b.Finite) (hbp : b.Proper) :
    RoundedTo mode zSign (|a.value| + |b.value|) (addFloatx80Sigs mode a b zSign) := by
  have haexp := finite_iff.1 ha
  have hbexp := finite_iff.1 hb
  have halt := a.low.toNat_lt
  have hblt := b.low.toNat_lt
  unfold Floatx80.Proper at hap hbp
  unfold addFloatx80Sigs
  dsimp only
  by_cases hgt : b.exponent.toNat < a.exponent.toNat
  · rw [if_pos hgt, if_neg haexp.ne]
    refine aligned_rounds (by omega) ?_ rfl rfl ?_
    · split_ifs with h0
      · exact .inr (hbp.1 h0)
      · exact .inl (by omega)
    · have hscale : a.scale = b.scale
          + (if b.exponent.toNat = 0 then a.exponent.toNat - b.exponent.toNat - 1
            else a.exponent.toNat - b.exponent.toNat : ℕ) := by
        unfold Floatx80.scale
        split_ifs <;> omega
      have hexp : a.scale = a.exponent.toNat - 16446 := by
        unfold Floatx80.scale
        omega
      rw [abs_add_abs hscale, hexp]
      congr 1
      ring
  rw [if_neg hgt]
  by_cases hlt : a.exponent.toNat < b.exponent.toNat
  · rw [if_pos hlt, if_neg hbexp.ne]
    refine aligned_rounds (by omega) ?_ rfl (UInt64.add_comm ..) ?_
    · split_ifs with h0
      · exact .inr (hap.1 h0)
      · exact .inl (by omega)
    · have hscale : b.scale = a.scale
          + (if a.exponent.toNat = 0 then b.exponent.toNat - a.exponent.toNat - 1
            else b.exponent.toNat - a.exponent.toNat : ℕ) := by
        unfold Floatx80.scale
        split_ifs <;> omega
      have hexp : b.scale = b.exponent.toNat - 16446 := by
        unfold Floatx80.scale
        omega
      rw [add_comm, abs_add_abs hscale, hexp]
      congr 1
      ring
  rw [if_neg hlt, if_neg haexp.ne]
  have hsame : a.exponent.toNat = b.exponent.toNat := by omega
  have hscale : a.scale = b.scale + (0 : ℕ) := by
    unfold Floatx80.scale
    omega
  have hvalue := abs_add_abs hscale
  rw [Nat.pow_zero, Nat.mul_one] at hvalue
  by_cases h0 : a.exponent.toNat = 0
  · rw [if_pos h0]
    have hsum : (a.low + b.low).toNat = a.low.toNat + b.low.toNat := by
      rw [UInt64.toNat_add, Nat.mod_eq_of_lt (by omega)]
    have hlowest : a.scale = -16445 := by
      unfold Floatx80.scale
      omega
    rw [hlowest, ← hsum] at hvalue
    obtain ⟨y, hy⟩ : ∃ y, normalizeFloatx80Subnormal (a.low + b.low) = y := ⟨_, rfl⟩
    rw [hy]
    by_cases hz : (a.low + b.low).toNat = 0
    · -- nothing is left to be shifted
      have hzero : a.low + b.low = 0 := UInt64.toNat_inj.1 hz
      have hy0 : y = (-63, 0) := by
        rw [← hy, hzero]
        decide
      rw [hvalue, hy0, hz, Nat.zero_mul]
      refine roundAndPackFloatx80_rounds (m := 0) (j := 0) (.inl (by decide))
        (fun k _ => SameSide.refl _ _) ?_
      unfold scaled
      rw [Nat.cast_zero, zero_mul, zero_mul]
    · obtain ⟨hbig, hspec⟩ := normalizeFloatx80Subnormal_spec hz
      rw [hy] at hbig hspec
      refine roundAndPackFloatx80_rounds (m := wide y.2 0) (j := 0) (.inr hbig)
        (fun k _ => SameSide.refl _ _) ?_
      rw [hvalue, wide_zero, show y.1 - 16510 - (0 : ℕ) = y.1 - 16446 - 64 by push_cast; ring, scaled_wide,
        hspec, Nat.cast_zero, sub_zero, scaled_wide]
  · rw [if_neg h0]
    have hcarry : wide (a.low + b.low) 0 + 2 ^ 64 * 2 ^ 64 = (a.low.toNat + b.low.toNat) * 2 ^ 64 := by
      have hsum : (a.low + b.low).toNat + 2 ^ 64 = a.low.toNat + b.low.toNat := by
        rw [UInt64.toNat_add]
        omega
      rw [wide_zero, ← hsum, Nat.add_mul]
    refine shiftRight1_rounds (m := (a.low.toNat + b.low.toNat) * 2 ^ 64) (D := 0) ?_ ?_
    · rw [hcarry]
      exact SameSide.refl _ _
    · have hexp : a.scale = a.exponent.toNat - 16446 := by
        unfold Floatx80.scale
        omega
      rw [hvalue, hexp]
      congr 1
      ring

end

/-! ## Differences -/

theorem wide_shift128RightJamming (B : UInt64) (D : ℕ) :
    wide (shift128RightJamming B 0 D).1 (shift128RightJamming B 0 D).2 = jam D (B.toNat * 2 ^ 64) := by
  have hnone : ∀ k : UInt64, (0 : UInt64) <<< k = 0 ∧ (0 : UInt64) >>> k = 0 := fun k =>
    ⟨UInt64.zero_shiftLeft, UInt64.zero_shiftRight⟩
  unfold shift128RightJamming
  by_cases h0 : D = 0
  · rw [if_pos h0, h0, jam_zero, wide_zero]
  rw [if_neg h0]
  by_cases h64 : D < 64
  · have hpow : 2 ^ 64 = 2 ^ D * 2 ^ (64 - D) := by rw [← Nat.pow_add, Nat.add_sub_cancel' h64.le]
    have hexact : B.toNat * 2 ^ 64 = B.toNat * 2 ^ (64 - D) * 2 ^ D := by
      rw [hpow]
      ring
    have hsplit := Nat.div_add_mod' B.toNat (2 ^ D)
    rw [if_pos h64, (hnone _).1, (hnone _).2, if_neg (not_not.2 rfl), UInt64.or_zero, UInt64.or_zero, wide,
      toNat_shiftRight_ofNat h64, toNat_shiftLeft_ofNat (by omega), hexact, jam_mul_two_pow]
    calc B.toNat / 2 ^ D * 2 ^ 64 + B.toNat * 2 ^ (64 - D) % 2 ^ 64
        = (B.toNat / 2 ^ D * 2 ^ D + B.toNat % 2 ^ D) * 2 ^ (64 - D) := by
          rw [show (2 : ℕ) ^ 64 = 2 ^ D * 2 ^ (64 - D) from hpow, Nat.mul_mod_mul_right]
          ring
      _ = B.toNat * 2 ^ (64 - D) := by rw [hsplit]
  · rw [if_neg h64]
    obtain ⟨c, rfl⟩ : ∃ c, D = c + 64 := ⟨D - 64, by omega⟩
    have hlow : (if c + 64 = 64 then B ||| (if (0 : UInt64) ≠ 0 then 1 else 0)
        else if c + 64 < 128 then (B >>> UInt64.ofNat (c + 64 - 64)) |||
          (if (B <<< UInt64.ofNat (128 - (c + 64))) ||| 0 ≠ 0 then 1 else 0)
        else if B ||| 0 ≠ 0 then 1 else 0) = shift64RightJamming B c := by
      unfold shift64RightJamming
      rw [UInt64.or_zero, UInt64.or_zero, Nat.add_sub_cancel]
      rcases Nat.eq_zero_or_pos c with rfl | hpos
      · rw [if_pos rfl, if_pos rfl, if_neg (not_not.2 rfl), UInt64.or_zero]
      · rw [if_neg (by omega), if_neg hpos.ne', show 128 - (c + 64) = 64 - c by omega]
        exact if_congr (by omega) rfl rfl
    have hjam := toNat_shift64RightJamming B c
    rw [hlow, jam_add_mul, ← hjam]
    show 0 * 2 ^ 64 + _ = _
    rw [Nat.zero_mul, Nat.zero_add]

theorem wide_sub128 {A z0 z1 : UInt64} (h : wide z0 z1 ≤ A.toNat * 2 ^ 64) :
    wide (sub128 A 0 z0 z1).1 (sub128 A 0 z0 z1).2 = A.toNat * 2 ^ 64 - wide z0 z1 := by
  have hA := A.toNat_lt
  have hz0 := z0.toNat_lt
  have hz1 := z1.toNat_lt
  have hlow : (0 - z1).toNat = (2 ^ 64 - z1.toNat) % 2 ^ 64 := by
    rw [UInt64.toNat_sub, UInt64.toNat_zero, Nat.add_zero]
  have hpos : (0 : UInt64) < z1 ↔ 0 < z1.toNat := UInt64.lt_iff_toNat_lt
  unfold sub128 wide at *
  dsimp only
  rw [hlow]
  by_cases hz : 0 < z1.toNat
  · rw [if_pos (hpos.2 hz), UInt64.toNat_sub, UInt64.toNat_sub]
    have hone : (1 : UInt64).toNat = 1 := rfl
    rw [hone, Nat.mod_eq_of_lt (a := 2 ^ 64 - z1.toNat) (by omega)]
    omega
  · rw [if_neg (mt hpos.1 hz), UInt64.sub_zero, UInt64.toNat_sub]
    omega

section
variable {mode : RoundingMode} {zSign : Bool} {v : ℚ}

/-- A difference is shifted until its leading bit is there. What is exact stays so, and where
    something was lost it is shifted by one bit at most. -/
theorem shifted_rounds {zExp : ℤ} {s0 s1 : UInt64} {X D M t : ℕ} (hs0 : s0.toNat ≠ 0)
    (hwide : wide s0 s1 = M * 2 ^ t)
    (hX : X = M * 2 ^ D ∨ M = jam D X ∧ t = 0 ∧ 2 ^ 126 ≤ M)
    (hv : v = scaled X (zExp + t - 16510 - D)) :
    RoundedTo mode zSign v
      (roundAndPackFloatx80 mode zSign (zExp - countLeadingZeros64 s0)
        (shortShift128Left s0 s1 (countLeadingZeros64 s0)).1
        (shortShift128Left s0 s1 (countLeadingZeros64 s0)).2) := by
  have hs1 := s1.toNat_lt
  have hsize : s0.toNat.size ≤ 64 := Nat.size_le.2 s0.toNat_lt
  have hsize0 : 0 < s0.toNat.size := Nat.size_pos.2 (Nat.pos_of_ne_zero hs0)
  rw [countLeadingZeros64_eq]
  obtain ⟨s, hs⟩ : ∃ s, 64 - s0.toNat.size = s := ⟨_, rfl⟩
  rw [hs]
  have hmul := size_mul_two_pow hs0 s
  have hlt : s0.toNat * 2 ^ s < 2 ^ 64 := Nat.size_le.1 (by omega)
  have hge : 2 ^ 63 ≤ s0.toNat * 2 ^ s := Nat.lt_size.1 (by omega)
  have hshifted : wide (shortShift128Left s0 s1 s).1 (shortShift128Left s0 s1 s).2
      = wide s0 s1 * 2 ^ s := wide_shortShift128Left (by omega) hlt
  have hlead : 2 ^ 63 ≤ (shortShift128Left s0 s1 s).1.toNat := by
    rw [← wide_div _ (shortShift128Left s0 s1 s).2, hshifted, Nat.le_div_iff_mul_le (Nat.two_pow_pos 64),
      wide, Nat.add_mul, Nat.mul_right_comm]
    exact le_trans (Nat.mul_le_mul_right _ hge) (Nat.le_add_right _ _)
  rcases hX with rfl | ⟨hM, rfl, hbig⟩
  · refine roundAndPackFloatx80_rounds (m := M * 2 ^ t * 2 ^ s) (j := 0) (.inr hlead) (fun k _ => ?_) ?_
    · rw [hshifted, hwide]
      exact SameSide.refl _ _
    · rw [hv, scaled_two_pow, scaled_two_pow, scaled_two_pow]
      congr 1
      push_cast
      ring
  · rw [Nat.pow_zero, Nat.mul_one] at hwide
    have hs1' : s ≤ 1 := by
      have h62 : 2 ^ 62 ≤ s0.toNat := by
        rw [← wide_div s0 s1, hwide]
        omega
      have := Nat.lt_size.2 h62
      omega
    refine roundAndPackFloatx80_rounds (m := X * 2 ^ s) (j := D) (.inr hlead) (fun k hk => ?_) ?_
    · rw [hshifted, hwide]
      obtain ⟨i, rfl⟩ : ∃ i, k = i + s := ⟨k - s, by omega⟩
      have hjam := jam_sameSide (k := i) (by omega) D X
      rw [← hM] at hjam
      have h := (SameSide.shift i M s).symm.trans (hjam.trans (SameSide.shift (i + D) X s))
      rwa [Nat.add_right_comm] at h
    · rw [hv, scaled_two_pow]
      congr 1
      push_cast
      ring

/-- The difference of a larger number and a smaller one that was shifted. -/
theorem bigger_rounds {zExp : ℕ} {A B : UInt64} {D : ℕ} {z : UInt64 × UInt64}
    (hA : 2 ^ 63 ≤ A.toNat ∨ D = 0) (hlt : B.toNat < A.toNat * 2 ^ D)
    (hz : shift128RightJamming B 0 D = z)
    (hv : v = scaled ((A.toNat * 2 ^ D - B.toNat) * 2 ^ 64) (zExp - 16510 - D)) :
    RoundedTo mode zSign v
      (normalizeRoundAndPackFloatx80 mode zSign zExp (sub128 A 0 z.1 z.2).1 (sub128 A 0 z.1 z.2).2) := by
  have hBlt := B.toNat_lt
  have hwide := wide_shift128RightJamming B D
  rw [hz] at hwide
  have hX : (A.toNat * 2 ^ D - B.toNat) * 2 ^ 64 = A.toNat * 2 ^ 64 * 2 ^ D - B.toNat * 2 ^ 64 := by
    rw [Nat.sub_mul, Nat.mul_right_comm]
  have hle : B.toNat * 2 ^ 64 ≤ A.toNat * 2 ^ 64 * 2 ^ D := by
    rw [Nat.mul_right_comm]
    exact Nat.mul_le_mul_right _ hlt.le
  have hjam := jam_sub (A := A.toNat * 2 ^ 64) (j := D) (m := B.toNat * 2 ^ 64) (by omega) hle
  have hpos : 0 < (A.toNat * 2 ^ D - B.toNat) * 2 ^ 64 := Nat.mul_pos (Nat.sub_pos_of_lt hlt) (by decide)
  have hne : A.toNat * 2 ^ 64 - jam D (B.toNat * 2 ^ 64) ≠ 0 := by
    rw [← hjam, ← hX]
    exact mt (jam_eq_zero D).1 hpos.ne'
  have hdiff : wide (sub128 A 0 z.1 z.2).1 (sub128 A 0 z.1 z.2).2
      = A.toNat * 2 ^ 64 - wide z.1 z.2 := wide_sub128 (by omega)
  rw [hwide, ← hjam, ← hX] at hdiff
  generalize sub128 A 0 z.1 z.2 = d at hdiff ⊢
  -- a shift by at most a word is exact
  have hexact : (A.toNat * 2 ^ D - B.toNat) * 2 ^ 64 = wide d.1 d.2 * 2 ^ D ∨
      wide d.1 d.2 = jam D ((A.toNat * 2 ^ D - B.toNat) * 2 ^ 64) ∧ 2 ^ 126 ≤ wide d.1 d.2 := by
    rcases Nat.lt_or_ge 64 D with hD | hD
    · right
      refine ⟨hdiff, ?_⟩
      have hsmall : jam D (B.toNat * 2 ^ 64) < 2 ^ 63 := by
        refine jam_lt (by decide) (lt_of_lt_of_le ?_ (Nat.pow_le_pow_right Nat.two_pos
          (show 128 ≤ D + 63 by omega)))
        omega
      have hlarge := hA.resolve_right (by omega)
      rw [hdiff, hX, hjam]
      omega
    · left
      have hfactor : (A.toNat * 2 ^ D - B.toNat) * 2 ^ 64
          = (A.toNat * 2 ^ D - B.toNat) * 2 ^ (64 - D) * 2 ^ D := by
        rw [Nat.mul_assoc, ← Nat.pow_add, Nat.sub_add_cancel hD]
      rw [hdiff]
      conv_rhs => rw [hfactor, jam_mul_two_pow]
      exact hfactor
  have hne0 : wide d.1 d.2 ≠ 0 := by
    rw [hdiff, hX, hjam]
    exact hne
  unfold normalizeRoundAndPackFloatx80
  dsimp only
  by_cases hd : d.1 = 0
  · rw [if_pos hd]
    have hd0 : d.1.toNat = 0 := by rw [hd]; rfl
    have hlow : wide d.1 d.2 = d.2.toNat := by rw [wide, hd0, Nat.zero_mul, Nat.zero_add]
    have hd2 := d.2.toNat_lt
    have hkept := hexact.resolve_right fun h => by omega
    refine shifted_rounds (X := (A.toNat * 2 ^ D - B.toNat) * 2 ^ 64) (D := D) (M := wide d.1 d.2) (t := 64)
      (by omega) ((wide_zero _).trans (by rw [← hlow])) (.inl hkept) ?_
    · rw [hv]
      congr 1
      push_cast
      ring
  · rw [if_neg hd]
    have hd0 : d.1.toNat ≠ 0 := fun h => hd (UInt64.toNat_inj.1 h)
    refine shifted_rounds (X := (A.toNat * 2 ^ D - B.toNat) * 2 ^ 64) (D := D) (M := wide d.1 d.2) (t := 0)
      hd0 (by rw [Nat.pow_zero, Nat.mul_one]) (hexact.imp_right fun h => ?_) ?_
    · exact ⟨h.1, rfl, h.2⟩
    · rw [hv]
      push_cast
      rw [add_zero]

end

/-- The sign of a difference of sizes. -/
def differenceSign (mode : RoundingMode) (zSign : Bool) (x y : ℚ) : Bool :=
  if y < x then zSign else if x < y then !zSign else mode == .down

section
variable {a b : Floatx80}

theorem scaled_sub {m n : ℕ} (h : n ≤ m) (e : ℤ) : scaled m e - scaled n e = scaled (m - n) e := by
  unfold scaled
  rw [Nat.cast_sub h]
  ring

/-- The difference of the sizes, with the exponents brought together. -/
theorem abs_sub_abs {D : ℕ} (h : a.scale = b.scale + D) (hlt : b.low.toNat < a.low.toNat * 2 ^ D) :
    |b.value| < |a.value| ∧ |(|a.value| - |b.value|)|
      = scaled ((a.low.toNat * 2 ^ D - b.low.toNat) * 2 ^ 64) (a.scale - 64 - D) := by
  have hdiff : |a.value| - |b.value| = scaled (a.low.toNat * 2 ^ D - b.low.toNat) b.scale := by
    rw [abs_value, abs_value, h, ← scaled_two_pow, scaled_sub hlt.le]
  have hpos : 0 < |a.value| - |b.value| := by
    rw [hdiff]
    exact scaled_pos (Nat.sub_ne_zero_of_lt hlt)
  refine ⟨sub_pos.1 hpos, ?_⟩
  rw [abs_of_pos hpos, hdiff, ← scaled_wide, h]
  congr 1
  ring

theorem subFloatx80Sigs_rounds (mode : RoundingMode) (zSign : Bool) (ha : a.Finite) (hap : a.Proper)
    (hb : b.Finite) (hbp : b.Proper) :
    RoundedTo mode (differenceSign mode zSign |a.value| |b.value|) |(|a.value| - |b.value|)|
      (subFloatx80Sigs mode a b zSign) := by
  have haexp := finite_iff.1 ha
  have hbexp := finite_iff.1 hb
  have halt := a.low.toNat_lt
  have hblt := b.low.toNat_lt
  unfold Floatx80.Proper at hap hbp
  -- a number of a larger exponent is the larger one
  have hlarger : ∀ {A B D : ℕ}, 2 ^ 63 ≤ A → B < 2 ^ 64 → (0 < D ∨ B < 2 ^ 63) → B < A * 2 ^ D := by
    intro A B D hA hB hD
    rcases hD with hD | hD
    · have hpow : 2 ^ 1 ≤ 2 ^ D := Nat.pow_le_pow_right Nat.two_pos hD
      exact lt_of_lt_of_le hB (Nat.mul_le_mul hA hpow)
    · exact lt_of_lt_of_le (lt_of_lt_of_le hD hA) (Nat.le_mul_of_pos_right _ (Nat.two_pow_pos D))
  unfold subFloatx80Sigs
  dsimp only
  by_cases hgt : b.exponent.toNat < a.exponent.toNat
  · rw [if_pos hgt, if_neg haexp.ne]
    obtain ⟨D, hD⟩ : ∃ D, D = if b.exponent.toNat = 0 then a.exponent.toNat - b.exponent.toNat - 1
      else a.exponent.toNat - b.exponent.toNat := ⟨_, rfl⟩
    have hscale : a.scale = b.scale + D := by
      unfold Floatx80.scale
      split_ifs at hD <;> omega
    have hexp : a.scale = a.exponent.toNat - 16446 := by
      unfold Floatx80.scale
      omega
    have hlt := hlarger (A := a.low.toNat) (D := D) (by omega) hblt (by split_ifs at hD <;> omega)
    obtain ⟨hless, hvalue⟩ := abs_sub_abs hscale hlt
    rw [← hD, differenceSign, if_pos hless, hvalue]
    refine bigger_rounds (.inl (by omega)) hlt rfl ?_
    rw [hexp]
    congr 1
    ring
  rw [if_neg hgt]
  by_cases hlt : a.exponent.toNat < b.exponent.toNat
  · rw [if_pos hlt, if_neg hbexp.ne]
    obtain ⟨D, hD⟩ : ∃ D, D = if a.exponent.toNat = 0 then b.exponent.toNat - a.exponent.toNat - 1
      else b.exponent.toNat - a.exponent.toNat := ⟨_, rfl⟩
    have hscale : b.scale = a.scale + D := by
      unfold Floatx80.scale
      split_ifs at hD <;> omega
    have hexp : b.scale = b.exponent.toNat - 16446 := by
      unfold Floatx80.scale
      omega
    have hlow := hlarger (A := b.low.toNat) (D := D) (by omega) halt (by split_ifs at hD <;> omega)
    obtain ⟨hless, hvalue⟩ := abs_sub_abs hscale hlow
    rw [← hD, differenceSign, if_neg hless.not_gt, if_pos hless, abs_sub_comm, hvalue]
    refine bigger_rounds (.inl (by omega)) hlow rfl ?_
    rw [hexp]
    congr 1
    ring
  rw [if_neg hlt, if_neg haexp.ne]
  have hsame : a.exponent.toNat = b.exponent.toNat := by omega
  have hexp : a.scale = (if a.exponent.toNat = 0 then 1 else a.exponent.toNat : ℕ) - 16446 := by
    unfold Floatx80.scale
    split_ifs <;> omega
  have hscale : a.scale = b.scale := by
    unfold Floatx80.scale
    rw [hsame]
  have hword : ∀ {x y : UInt64}, x < y ↔ x.toNat < y.toNat := UInt64.lt_iff_toNat_lt
  by_cases hba : b.low < a.low
  · have hlow : b.low.toNat < a.low.toNat * 2 ^ 0 := by
      rw [Nat.pow_zero, Nat.mul_one]
      exact hword.1 hba
    obtain ⟨hless, hvalue⟩ := abs_sub_abs (D := 0) (hscale.trans (add_zero _).symm) hlow
    rw [if_pos hba, differenceSign, if_pos hless, hvalue]
    refine bigger_rounds (z := (b.low, 0)) (.inr rfl) hlow rfl ?_
    rw [hexp]
    congr 1
    ring
  rw [if_neg hba]
  by_cases hab : a.low < b.low
  · have hlow : a.low.toNat < b.low.toNat * 2 ^ 0 := by
      rw [Nat.pow_zero, Nat.mul_one]
      exact hword.1 hab
    obtain ⟨hless, hvalue⟩ := abs_sub_abs (D := 0) (hscale.symm.trans (add_zero _).symm) hlow
    rw [if_pos hab, differenceSign, if_neg hless.not_gt, if_pos hless, abs_sub_comm, hvalue]
    refine bigger_rounds (z := (a.low, 0)) (.inr rfl) hlow rfl ?_
    rw [← hscale, hexp]
    congr 1
    ring
  · have hlow : a.low.toNat = b.low.toNat := by
      have hle := mt hword.2 hba
      have hge := mt hword.2 hab
      omega
    have hsize : |a.value| = |b.value| := by rw [abs_value, abs_value, hlow, hscale]
    rw [if_neg hab, differenceSign, hsize, if_neg (lt_irrefl _), if_neg (lt_irrefl _), sub_self, abs_zero]
    exact roundedTo_zero _ _

end

/-! ## Numbers with signs -/

/-- The sign of a sum; a zero has the sign of both operands, or that of the mode. -/
def sumSign (mode : RoundingMode) (aSign bSign : Bool) (sum : ℚ) : Bool :=
  if sum < 0 then true else if 0 < sum then false else if aSign = bSign then aSign else mode == .down

section
variable {x y : ℚ} (hx : 0 ≤ x) (hy : 0 ≤ y) (mode : RoundingMode) (s : Bool)
include hx hy

theorem sum_same :
    sumSign mode s s ((if s then -x else x) + (if s then -y else y)) = s ∧
      |(if s then -x else x) + (if s then -y else y)| = x + y := by
  unfold sumSign
  cases s with
  | false =>
    simp only [Bool.false_eq_true, if_false, if_true]
    refine ⟨?_, abs_of_nonneg (add_nonneg hx hy)⟩
    rw [if_neg (not_lt.2 (add_nonneg hx hy)), ite_self]
  | true =>
    simp only [if_true]
    have hle : -x + -y ≤ 0 := by linarith
    refine ⟨?_, by rw [abs_of_nonpos hle]; ring⟩
    rw [if_neg (not_lt.2 hle), ite_self]

omit hx hy in
theorem sum_differ :
    sumSign mode s (!s) ((if s then -x else x) + (if (!s) = true then -y else y))
        = differenceSign mode s x y ∧
      |(if s then -x else x) + (if (!s) = true then -y else y)| = |x - y| := by
  unfold sumSign differenceSign
  cases s with
  | false =>
    simp only [Bool.false_eq_true, if_false, Bool.not_false, if_true]
    refine ⟨?_, by rw [← sub_eq_add_neg]⟩
    rcases lt_trichotomy x y with h | rfl | h
    · rw [if_pos (by linarith), if_neg h.not_gt, if_pos h]
    · rw [if_neg (by linarith), if_neg (by linarith), if_neg (lt_irrefl _), if_neg (lt_irrefl _)]
    · rw [if_neg (by linarith), if_pos (by linarith), if_pos h]
  | true =>
    simp only [if_true, Bool.not_true, Bool.false_eq_true, if_false]
    refine ⟨?_, by rw [neg_add_eq_sub, abs_sub_comm]⟩
    rcases lt_trichotomy x y with h | rfl | h
    · rw [if_neg (by linarith), if_pos (by linarith), if_neg h.not_gt, if_pos h]
    · rw [if_neg (by linarith), if_neg (by linarith), if_neg (lt_irrefl _), if_neg (lt_irrefl _)]
      rfl
    · rw [if_pos (by linarith), if_pos h]

end

theorem value_eq_signed (x : Floatx80) : x.value = if x.negative then -|x.value| else |x.value| := by
  rw [abs_value]
  cases h : x.negative with
  | true => exact value_of_negative h
  | false => exact value_of_positive h

section
variable {a b : Floatx80} (ha : a.Finite) (hap : a.Proper) (hb : b.Finite) (hbp : b.Proper)

include ha hap hb hbp in
theorem floatx80Add_spec (mode : RoundingMode) :
    RoundedTo mode (sumSign mode a.negative b.negative (a.value + b.value)) |a.value + b.value|
      (floatx80Add mode a b) := by
  have hplus : a.value + b.value
      = (if a.negative then -|a.value| else |a.value|) + (if b.negative then -|b.value| else |b.value|) := by
    conv_lhs => rw [value_eq_signed a, value_eq_signed b]
  rw [hplus]
  unfold floatx80Add
  by_cases hs : a.negative = b.negative
  · obtain ⟨hsign, hsize⟩ := sum_same (abs_nonneg a.value) (abs_nonneg b.value) mode a.negative
    rw [if_pos hs, ← hs, hsign, hsize]
    exact addFloatx80Sigs_rounds mode _ ha hap hb hbp
  · have hnot : b.negative = !a.negative := Bool.eq_not.2 (Ne.symm hs)
    obtain ⟨hsign, hsize⟩ := sum_differ (x := |a.value|) (y := |b.value|) mode a.negative
    rw [if_neg hs, hnot, hsign, hsize]
    exact subFloatx80Sigs_rounds mode _ ha hap hb hbp

include ha hap hb hbp in
theorem floatx80Sub_spec (mode : RoundingMode) :
    RoundedTo mode (sumSign mode a.negative (!b.negative) (a.value - b.value)) |a.value - b.value|
      (floatx80Sub mode a b) := by
  have hminus : a.value - b.value
      = (if a.negative then -|a.value| else |a.value|)
        + (if (!b.negative) = true then -|b.value| else |b.value|) := by
    conv_lhs => rw [value_eq_signed a, value_eq_signed b]
    cases b.negative <;> simp [sub_eq_add_neg]
  rw [hminus]
  unfold floatx80Sub
  by_cases hs : a.negative = b.negative
  · obtain ⟨hsign, hsize⟩ := sum_differ (x := |a.value|) (y := |b.value|) mode a.negative
    rw [if_pos hs, ← hs, hsign, hsize]
    exact subFloatx80Sigs_rounds mode _ ha hap hb hbp
  · have hnot : b.negative = !a.negative := Bool.eq_not.2 (Ne.symm hs)
    obtain ⟨hsign, hsize⟩ := sum_same (abs_nonneg a.value) (abs_nonneg b.value) mode a.negative
    rw [if_neg hs, hnot, Bool.not_not, hsign, hsize]
    exact addFloatx80Sigs_rounds mode _ ha hap hb hbp

end

/-- The sum and the difference are the roundings of the sum and the difference of the numbers. -/
theorem floatx80_sum_rounds (mode : RoundingMode) (a b : Floatx80) (ha : a.Finite) (hap : a.Proper)
    (hb : b.Finite) (hbp : b.Proper) :
    RoundedTo mode (sumSign mode a.negative b.negative (a.value + b.value)) |a.value + b.value|
        (floatx80Add mode a b) ∧
      RoundedTo mode (sumSign mode a.negative (!b.negative) (a.value - b.value)) |a.value - b.value|
        (floatx80Sub mode a b) :=
  ⟨floatx80Add_spec ha hap hb hbp mode, floatx80Sub_spec ha hap hb hbp mode⟩

/-- One and the smallest number, rounded up and down. -/
theorem floatx80_sum_rounds_smallest :
    RoundedTo .up
        (sumSign .up false false
          ((⟨0x3fff, 0x8000000000000000⟩ : Floatx80).value + (⟨0, 1⟩ : Floatx80).value))
        |(⟨0x3fff, 0x8000000000000000⟩ : Floatx80).value + (⟨0, 1⟩ : Floatx80).value|
        (floatx80Add .up ⟨0x3fff, 0x8000000000000000⟩ ⟨0, 1⟩) ∧
      RoundedTo .up
        (sumSign .up false true
          ((⟨0x3fff, 0x8000000000000000⟩ : Floatx80).value - (⟨0, 1⟩ : Floatx80).value))
        |(⟨0x3fff, 0x8000000000000000⟩ : Floatx80).value - (⟨0, 1⟩ : Floatx80).value|
        (floatx80Sub .up ⟨0x3fff, 0x8000000000000000⟩ ⟨0, 1⟩) :=
  floatx80_sum_rounds .up ⟨0x3fff, 0x8000000000000000⟩ ⟨0, 1⟩ (by decide) (by decide) (by decide) (by decide)

example : floatx80Add .up ⟨0x3fff, 0x8000000000000000⟩ ⟨0, 1⟩
    = (⟨0x3fff, 0x8000000000000001⟩, floatFlagInexact) := by
  decide +kernel

end CuteMac.Fpu
