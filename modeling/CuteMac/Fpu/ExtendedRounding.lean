/-
  The rounding to the extended format (`softfloat.c`, `softfloat-macros`).

  * `shift64ExtraRightJamming`: a shift of two words that keeps what goes as one bit;
  * `roundAndPackFloatx80`: a significand of two words is packed in the full precision;
  * `ofPattern`, `value_ofPattern`: the numbers of the format in their order;
  * `roundAndPackFloatx80_spec`: the number is the rounded significand at its exponent, up to
    infinity or the largest number.
-/
import CuteMac.Fpu.Conversions

namespace CuteMac.Fpu

open Rounding Scaled

def shift64ExtraRightJamming (a0 a1 : UInt64) (count : Nat) : UInt64 × UInt64 :=
  if count = 0 then (a0, a1)
  else if count < 64 then
    (a0 >>> UInt64.ofNat count, (a0 <<< UInt64.ofNat (64 - count)) ||| (if a1 ≠ 0 then 1 else 0))
  else
    (0, if count = 64 then a0 ||| (if a1 ≠ 0 then 1 else 0) else if a0 ||| a1 ≠ 0 then 1 else 0)

/-- Whether the second word takes the first one up. -/
def extraIncrement (mode : RoundingMode) (zSign : Bool) (zSig1 : UInt64) : Bool :=
  match mode with
  | .nearestEven => 0x8000000000000000 ≤ zSig1
  | .toZero => false
  | .down => zSign && zSig1 != 0
  | .up => !zSign && zSig1 != 0

/-- The first word when it is taken up; in the middle it becomes even. -/
def incremented (mode : RoundingMode) (zSig0 zSig1 : UInt64) : UInt64 :=
  if zSig1 <<< 1 = 0 ∧ mode = .nearestEven then (zSig0 + 1) &&& ~~~1 else zSig0 + 1

/-- `roundAndPackFloatx80` with the precision of 80 bits, with the exceptions that are raised. -/
def roundAndPackFloatx80 (mode : RoundingMode) (zSign : Bool) (zExp : Int) (zSig0 zSig1 : UInt64) :
    Floatx80 × UInt8 :=
  let increment := extraIncrement mode zSign zSig1
  if 0x7ffe < zExp ∨ zExp = 0x7ffe ∧ zSig0 = 0xffffffffffffffff ∧ increment = true then
    (if mode = .toZero ∨ zSign = true ∧ mode = .up ∨ zSign = false ∧ mode = .down then
        packFloatx80 zSign 0x7ffe (~~~0)
      else packFloatx80 zSign 0x7fff 0x8000000000000000, floatFlagOverflow ||| floatFlagInexact)
  else if zExp ≤ 0 then
    let isTiny := zExp < 0 ∨ increment = false ∨ zSig0 < 0xffffffffffffffff
    let z := shift64ExtraRightJamming zSig0 zSig1 (1 - zExp).toNat
    let flags := if isTiny ∧ z.2 ≠ 0 then floatFlagUnderflow else 0
    let flags := if z.2 = 0 then flags else flags ||| floatFlagInexact
    if extraIncrement mode zSign z.2 = true then
      let zSig0 := incremented mode z.1 z.2
      (packFloatx80 zSign (if 0x8000000000000000 ≤ zSig0 then 1 else 0) zSig0, flags)
    else (packFloatx80 zSign 0 z.1, flags)
  else
    let flags := if zSig1 = 0 then 0 else 0 ||| floatFlagInexact
    if increment = true then
      if zSig0 + 1 = 0 then (packFloatx80 zSign (zExp.toNat + 1) 0x8000000000000000, flags)
      else (packFloatx80 zSign zExp.toNat (incremented mode zSig0 zSig1), flags)
    else (packFloatx80 zSign (if zSig0 = 0 then 0 else zExp.toNat) zSig0, flags)

/-! ## Two words -/

/-- A number of two words. -/
def wide (z0 z1 : UInt64) : ℕ := z0.toNat * 2 ^ 64 + z1.toNat

section
variable {a0 a1 : UInt64}

theorem wide_div (a0 a1 : UInt64) : wide a0 a1 / 2 ^ 64 = a0.toNat := by
  have := a1.toNat_lt
  unfold wide
  omega

theorem wide_mod (a0 a1 : UInt64) : wide a0 a1 % 2 ^ 64 = a1.toNat := by
  have := a1.toNat_lt
  unfold wide
  omega

theorem toNat_sticky (a : UInt64) : (if a ≠ 0 then 1 else 0 : UInt64).toNat = if a.toNat = 0 then 0 else 1 := by
  have hzero : a = 0 ↔ a.toNat = 0 := (UInt64.toNat_inj (b := 0)).symm
  by_cases h : a.toNat = 0
  · rw [if_pos h, if_neg (not_not.2 (hzero.2 h))]
    rfl
  · rw [if_neg h, if_pos (mt hzero.1 h)]
    rfl

theorem or_bit {n b : ℕ} (hb : b ≤ 1) : n ||| b = n + b * (1 - n % 2) := by
  rcases Nat.le_one_iff_eq_zero_or_eq_one.1 hb with rfl | rfl
  · rw [Nat.or_zero, Nat.zero_mul, Nat.add_zero]
  · rw [or_one, Nat.one_mul]

/-- The low bits of a shifted number of two words. -/
theorem wide_split (a0 a1 : UInt64) (count : ℕ) :
    wide a0 a1 / 2 ^ (64 + count) = a0.toNat / 2 ^ count ∧
      wide a0 a1 % 2 ^ (64 + count) = a1.toNat + 2 ^ 64 * (a0.toNat % 2 ^ count) := by
  rw [Nat.pow_add, ← Nat.div_div_eq_div_mul, Nat.mod_mul, wide_div, wide_mod]
  exact ⟨rfl, rfl⟩

/-- The words below the point of a shift by less than a word. -/
theorem sides_below {H P r a : ℕ} (hP : 0 < P) (hr : r < 2 * H) (hword : 2 ^ 64 = 4 * (H * P))
    (ha : a < 2 ^ 64) :
    (2 ^ 64 < 2 * (r * (2 * P) + if a = 0 then 0 else 1) ↔ 2 ^ 64 * (2 * H) < 2 * (a + 2 ^ 64 * r)) ∧
      (2 * (r * (2 * P) + if a = 0 then 0 else 1) = 2 ^ 64 ↔ 2 * (a + 2 ^ 64 * r) = 2 ^ 64 * (2 * H)) ∧
      ((r * (2 * P) + if a = 0 then 0 else 1) = 0 ↔ a + 2 ^ 64 * r = 0) := by
  have hcomm : r * (2 * P) = 2 * (r * P) := Nat.mul_left_comm ..
  obtain ⟨b, hb⟩ : ∃ b, b = if a = 0 then 0 else 1 := ⟨_, rfl⟩
  have hb1 : b ≤ 1 ∧ (b = 0 ↔ a = 0) := by split_ifs at hb <;> omega
  rw [hcomm, ← hb]
  refine ⟨?_, ?_, ?_⟩
  · -- the middle is at `r = H`
    rcases lt_trichotomy r H with hlt | rfl | hgt
    · have hmul : (r + 1) * P ≤ H * P := Nat.mul_le_mul_right P hlt
      rw [Nat.succ_mul] at hmul
      exact iff_of_false (by omega) (by omega)
    · omega
    · have hmul : (H + 1) * P ≤ r * P := Nat.mul_le_mul_right P hgt
      rw [Nat.succ_mul] at hmul
      exact iff_of_true (by omega) (by omega)
  · rcases lt_trichotomy r H with hlt | rfl | hgt
    · have hmul : (r + 1) * P ≤ H * P := Nat.mul_le_mul_right P hlt
      rw [Nat.succ_mul] at hmul
      exact iff_of_false (by omega) (by omega)
    · omega
    · have hmul : (H + 1) * P ≤ r * P := Nat.mul_le_mul_right P hgt
      rw [Nat.succ_mul] at hmul
      exact iff_of_false (by omega) (by omega)
  · have hzero : r * P = 0 ↔ r = 0 := by rw [Nat.mul_eq_zero, or_iff_left hP.ne']
    omega

/-- The shifted words lie alike to the middle. -/
theorem shift64ExtraRightJamming_sameSide (a0 a1 : UInt64) (count : ℕ) {z : UInt64 × UInt64}
    (hz : shift64ExtraRightJamming a0 a1 count = z) :
    SameSide 64 (wide z.1 z.2) (64 + count) (wide a0 a1) := by
  obtain ⟨hquot, hrem⟩ := wide_split a0 a1 count
  have ha0 := a0.toNat_lt
  have ha1 := a1.toNat_lt
  have hbit : (if a1.toNat = 0 then 0 else 1) ≤ 1 := by split_ifs <;> omega
  have hor : ∀ b : UInt64, (b ||| (if a1 ≠ 0 then 1 else 0)).toNat
      = b.toNat + (if a1.toNat = 0 then 0 else 1) * (1 - b.toNat % 2) := by
    intro b
    rw [UInt64.toNat_or, toNat_sticky, or_bit hbit]
  -- the quotient and the low bits of the shifted words
  suffices h : z.1.toNat = a0.toNat / 2 ^ count ∧
      (2 ^ 64 < 2 * z.2.toNat ↔ 2 ^ (64 + count) < 2 * (a1.toNat + 2 ^ 64 * (a0.toNat % 2 ^ count))) ∧
      (2 * z.2.toNat = 2 ^ 64 ↔ 2 * (a1.toNat + 2 ^ 64 * (a0.toNat % 2 ^ count)) = 2 ^ (64 + count)) ∧
      (z.2.toNat = 0 ↔ a1.toNat + 2 ^ 64 * (a0.toNat % 2 ^ count) = 0) by
    obtain ⟨h1, h2, h3, h4⟩ := h
    refine ⟨?_, ?_, ?_, ?_⟩
    · rw [wide_div, hquot, h1]
    · rw [wide_mod, hrem, h2]
    · rw [wide_mod, hrem, h3]
    · rw [wide_mod, hrem, h4]
  unfold shift64ExtraRightJamming at hz
  by_cases h0 : count = 0
  · rw [if_pos h0] at hz
    subst h0 hz
    rw [Nat.pow_zero, Nat.div_one, Nat.mod_one]
    refine ⟨rfl, ?_, ?_, ?_⟩ <;> dsimp only <;> omega
  rw [if_neg h0] at hz
  by_cases h64 : count < 64
  · rw [if_pos h64] at hz
    obtain ⟨i, rfl⟩ : ∃ i, count = i + 1 := ⟨count - 1, by omega⟩
    have hpow : 2 ^ 64 = 2 ^ (i + 1) * 2 ^ (64 - (i + 1)) := by
      rw [← Nat.pow_add, Nat.add_sub_cancel' h64.le]
    have heven : 2 ^ (64 - (i + 1)) = 2 * 2 ^ (62 - i) := by
      rw [← Nat.pow_succ']
      congr 1
      omega
    have hleft : (a0 <<< UInt64.ofNat (64 - (i + 1))).toNat
        = a0.toNat % 2 ^ (i + 1) * 2 ^ (64 - (i + 1)) := by
      rw [toNat_shiftLeft_ofNat (by omega), hpow, Nat.mul_mod_mul_right]
    have hz1 : z.1.toNat = a0.toNat / 2 ^ (i + 1) := by
      rw [← hz]
      exact toNat_shiftRight_ofNat h64 a0
    have hz2 : z.2.toNat = a0.toNat % 2 ^ (i + 1) * 2 ^ (64 - (i + 1))
        + (if a1.toNat = 0 then 0 else 1) := by
      have hmod : a0.toNat % 2 ^ (i + 1) * 2 ^ (64 - (i + 1)) % 2 = 0 := by
        rw [heven, Nat.mul_left_comm, Nat.mul_mod_right]
      rw [← hz]
      dsimp only
      rw [hor, hleft, hmod, Nat.sub_zero, Nat.mul_one]
    have hpowi : 2 ^ (i + 1) = 2 * 2 ^ i := Nat.pow_succ'
    refine ⟨hz1, ?_⟩
    rw [hz2, Nat.pow_add 2 64, heven, hpowi]
    refine sides_below (Nat.two_pow_pos _) (Nat.mod_lt _ (by positivity)) ?_ ha1
    rw [hpow, heven, hpowi]
    ring
  · rw [if_neg h64] at hz
    have hbig : 2 ^ 64 ≤ 2 ^ count := Nat.pow_le_pow_right Nat.two_pos (Nat.not_lt.1 h64)
    have hz1 : z.1.toNat = a0.toNat / 2 ^ count := by
      rw [← hz, Nat.div_eq_of_lt (by omega)]
      rfl
    rw [Nat.mod_eq_of_lt (by omega), Nat.pow_add]
    refine ⟨hz1, ?_⟩
    by_cases hc : count = 64
    · rw [if_pos hc] at hz
      have hz2 : z.2.toNat = a0.toNat + (if a1.toNat = 0 then 0 else 1) * (1 - a0.toNat % 2) := by
        rw [← hz]
        exact hor a0
      rw [hz2, hc]
      split_ifs with hs
      · refine ⟨?_, ?_, ?_⟩ <;> omega
      · refine ⟨?_, ?_, ?_⟩ <;> omega
    · rw [if_neg hc] at hz
      have hdouble : 2 * 2 ^ 64 ≤ 2 ^ count := by
        rw [← Nat.pow_succ']
        exact Nat.pow_le_pow_right Nat.two_pos (by omega)
      have hz2 : z.2.toNat = if a1.toNat = 0 ∧ a0.toNat = 0 then 0 else 1 := by
        rw [← hz]
        dsimp only
        rw [toNat_sticky, UInt64.toNat_or]
        exact if_congr (Nat.or_eq_zero_iff.trans and_comm) rfl rfl
      have hwide : 2 ^ 64 * (2 * 2 ^ 64) ≤ 2 ^ 64 * 2 ^ count := Nat.mul_le_mul_left _ hdouble
      have hbit2 : z.2.toNat ≤ 1 ∧ (z.2.toNat = 0 ↔ a1.toNat = 0 ∧ a0.toNat = 0) := by
        split_ifs at hz2 <;> omega
      generalize 2 ^ 64 * 2 ^ count = C at *
      refine ⟨?_, ?_, ?_⟩ <;> omega

/-- The first word after rounding, as a number. -/
theorem roundShift_wide (mode : RoundingMode) (zSign : Bool) (z0 z1 : UInt64) :
    roundShift (mode.direction zSign) 64 (wide z0 z1) =
      if extraIncrement mode zSign z1 = true then
        z0.toNat + 1 - (if mode = .nearestEven ∧ z1.toNat = 2 ^ 63 then (z0.toNat + 1) % 2 else 0)
      else z0.toNat := by
  have hlt := z1.toNat_lt
  have hne : (z1 != 0) = true ↔ z1.toNat ≠ 0 := by
    rw [bne_iff_ne]
    exact not_congr (UInt64.toNat_inj (b := 0)).symm
  have hup : ∀ d, d ≠ .nearest → roundShift d 64 (wide z0 z1)
      = if d = .away ∧ (z1 != 0) = true then z0.toNat + 1 else z0.toNat := by
    intro d hd
    rw [roundShift, wide_div]
    cases d with
    | nearest => exact absurd rfl hd
    | towardZero => rfl
    | away =>
      rw [roundsUp, wide_mod]
      by_cases h : z1.toNat = 0
      · have hz : (z1.toNat != 0) = false := by rw [h]; rfl
        rw [hz, if_neg fun hc => (hne.1 hc.2) h]
        rfl
      · rw [bne_iff_ne.2 h, if_pos ⟨rfl, hne.2 h⟩]
        rfl
  cases mode with
  | nearestEven =>
    have htop : extraIncrement .nearestEven zSign z1 = true ↔ 2 ^ 63 ≤ z1.toNat := by
      unfold extraIncrement
      rw [decide_eq_true_iff, UInt64.le_iff_toNat_le]
      rfl
    show roundShift .nearest 64 _ = _
    rw [roundShift, toNat_roundsUp_nearest, wide_div, wide_mod]
    by_cases hge : 2 ^ 63 ≤ z1.toNat
    · rw [if_pos (htop.2 hge)]
      by_cases htie : z1.toNat = 2 ^ 63
      · rw [if_pos (c := RoundingMode.nearestEven = .nearestEven ∧ _) ⟨rfl, htie⟩]
        split_ifs <;> omega
      · rw [if_neg (c := RoundingMode.nearestEven = .nearestEven ∧ _) fun h => htie h.2,
          if_pos (.inl (by omega))]
        rfl
    · rw [if_neg (mt htop.1 hge), if_neg (by omega)]
      rfl
  | toZero => exact hup .towardZero (by decide)
  | down =>
    cases zSign
    · exact hup .towardZero (by decide)
    · refine (hup .away (by decide)).trans ?_
      simp [extraIncrement]
  | up =>
    cases zSign
    · refine (hup .away (by decide)).trans ?_
      simp [extraIncrement]
    · exact hup .towardZero (by decide)

theorem toNat_incremented {mode : RoundingMode} {zSign : Bool} {z0 z1 : UInt64}
    (hinc : extraIncrement mode zSign z1 = true) (hz : z0.toNat + 1 < 2 ^ 64) :
    (incremented mode z0 z1).toNat = roundShift (mode.direction zSign) 64 (wide z0 z1) := by
  have hlt := z1.toNat_lt
  have hsum : (z0 + 1).toNat = z0.toNat + 1 := by
    rw [UInt64.toNat_add]
    exact Nat.mod_eq_of_lt hz
  have hshift : z1 <<< 1 = 0 ↔ z1.toNat * 2 % 2 ^ 64 = 0 := by
    rw [← UInt64.toNat_inj]
    show (z1 <<< UInt64.ofNat 1).toNat = 0 ↔ _
    rw [toNat_shiftLeft_ofNat (by decide), Nat.pow_one]
  have htie : z1 <<< 1 = 0 ∧ mode = .nearestEven ↔ mode = .nearestEven ∧ z1.toNat = 2 ^ 63 := by
    rw [hshift, and_comm]
    refine and_congr_right fun hmode => ?_
    subst hmode
    unfold extraIncrement at hinc
    have hge : 2 ^ 63 ≤ z1.toNat := UInt64.le_iff_toNat_le.1 (of_decide_eq_true hinc)
    omega
  rw [roundShift_wide, if_pos hinc, incremented]
  by_cases h : mode = .nearestEven ∧ z1.toNat = 2 ^ 63
  · rw [if_pos (htie.2 h), if_pos h, toNat_and_not_one, hsum]
  · rw [if_neg (mt htie.1 h), if_neg h, hsum, Nat.sub_zero]

end

/-! ## The numbers in their order -/

/-- The number of a pattern: the leading bit of the significand is written out. -/
def ofPattern (zSign : Bool) (n : ℕ) : Floatx80 :=
  packFloatx80 zSign (n / 2 ^ 63)
    (UInt64.ofNat (if n / 2 ^ 63 = 0 then n else 2 ^ 63 + n % 2 ^ 63))

def infinityExtended : ℕ := 0x7fff * 2 ^ 63

/-- The size of a number of the extended format. -/
def sizeExtended (n : ℕ) : ℚ := magnitude 63 (-16445) n

theorem strictMono_sizeExtended : StrictMono sizeExtended := strictMono_magnitude _ _

theorem ofPattern_segment (zSign : Bool) {E q : ℕ} (hq : q ≤ 2 ^ 64) (h : E = 0 ∨ 2 ^ 63 ≤ q) :
    ofPattern zSign (E * 2 ^ 63 + q) =
      if q = 2 ^ 64 then packFloatx80 zSign (E + 2) 0x8000000000000000
      else packFloatx80 zSign (if 2 ^ 63 ≤ q then E + 1 else 0) (UInt64.ofNat q) := by
  unfold ofPattern
  rcases Nat.lt_or_ge q (2 ^ 63) with hlow | hge
  · have hE : E = 0 := h.resolve_right (Nat.not_le.2 hlow)
    have hne : q ≠ 2 ^ 64 := by omega
    rw [hE, Nat.zero_mul, Nat.zero_add, Nat.div_eq_of_lt hlow, if_pos rfl, if_neg hne,
      if_neg (Nat.not_le.2 hlow)]
  · rcases eq_or_ne q (2 ^ 64) with rfl | hne
    · have hdiv : (E * 2 ^ 63 + 2 ^ 64) / 2 ^ 63 = E + 2 := by omega
      have hmod : (E * 2 ^ 63 + 2 ^ 64) % 2 ^ 63 = 0 := by omega
      rw [if_pos rfl, hdiv, hmod, if_neg (by omega)]
      rfl
    · have hdiv : (E * 2 ^ 63 + q) / 2 ^ 63 = E + 1 := by omega
      have hmod : 2 ^ 63 + (E * 2 ^ 63 + q) % 2 ^ 63 = q := by omega
      rw [if_neg hne, if_pos hge, hdiv, hmod, if_neg (by omega)]

/-- A pattern below infinity is a number, with the value of the pattern. -/
theorem value_ofPattern (zSign : Bool) {n : ℕ} (hn : n < infinityExtended) :
    (ofPattern zSign n).Finite ∧ (ofPattern zSign n).Canonical ∧
      (ofPattern zSign n).negative = zSign ∧ |(ofPattern zSign n).value| = sizeExtended n := by
  unfold infinityExtended at hn
  have hE : n / 2 ^ 63 < 2 ^ 15 := by omega
  obtain ⟨x, hx⟩ : ∃ x, x = ofPattern zSign n := ⟨_, rfl⟩
  have hexp : x.exponent.toNat = n / 2 ^ 63 := hx ▸ packed_exponent zSign hE _
  have hlow : x.low.toNat = if n / 2 ^ 63 = 0 then n else 2 ^ 63 + n % 2 ^ 63 := by
    rw [hx]
    show (UInt64.ofNat _).toNat = _
    rw [UInt64.toNat_ofNat', Nat.mod_eq_of_lt]
    split_ifs <;> omega
  rw [← hx]
  refine ⟨finite_iff.2 (by omega), ?_, hx ▸ packed_negative zSign hE _, ?_⟩
  · rcases Nat.eq_zero_or_pos (n / 2 ^ 63) with h0 | hpos
    · exact .inl (exponent_eq_zero.2 (by omega))
    · rw [if_neg hpos.ne'] at hlow
      exact .inr (by omega)
  · have hscale : x.scale = -16445 + ((n / 2 ^ 63 - 1 : ℕ) : ℤ) := by
      unfold Floatx80.scale
      rw [hexp]
      omega
    rw [abs_value, hlow, hscale]
    rfl

/-- A result of the extended format: the pattern `n`, up to infinity or the largest number, and the
    exceptions. -/
structure PacksExtended (d : Direction) (zSign : Bool) (n : ℕ) (exact : Prop)
    (z : Floatx80 × UInt8) : Prop where
  pattern : z.1 = ofPattern zSign (saturated d infinityExtended n)
  raises : Raises infinityExtended n exact z.2

/-- The significand is normalized, or the number is so small that it need not be. -/
theorem roundAndPackFloatx80_spec {mode : RoundingMode} {zSign : Bool} {zExp : ℤ} {zSig0 zSig1 : UInt64}
    (hnorm : zExp ≤ 0 ∨ 2 ^ 63 ≤ zSig0.toNat) {n : ℕ}
    (hn : n = (zExp - 1).toNat * 2 ^ 63
      + roundShift (mode.direction zSign) (64 + (1 - zExp).toNat) (wide zSig0 zSig1)) :
    PacksExtended (mode.direction zSign) zSign n (wide zSig0 zSig1 % 2 ^ (64 + (1 - zExp).toNat) = 0)
      (roundAndPackFloatx80 mode zSign zExp zSig0 zSig1) := by
  have hsig := zSig0.toNat_lt
  have hones : zSig0 = 0xffffffffffffffff ↔ zSig0.toNat = 2 ^ 64 - 1 :=
    (UInt64.toNat_inj (b := 0xffffffffffffffff)).symm
  have hdirection : (mode = .toZero ∨ zSign = true ∧ mode = .up ∨ zSign = false ∧ mode = .down) ↔
      mode.direction zSign = .towardZero := by
    cases mode <;> cases zSign <;> decide
  have hinf : infinityExtended = 0x7fff * 2 ^ 63 := rfl
  unfold roundAndPackFloatx80
  dsimp only
  by_cases hover : 0x7ffe < zExp ∨
      zExp = 0x7ffe ∧ zSig0 = 0xffffffffffffffff ∧ extraIncrement mode zSign zSig1 = true
  · have hge : infinityExtended ≤ n := by
      have hcount : (1 - zExp).toNat = 0 := by omega
      rw [hcount, Nat.add_zero, roundShift_wide] at hn
      rcases hover with hexp | ⟨hexp, hall, hinc⟩
      · have hbig := hnorm.resolve_left (by omega)
        split_ifs at hn <;> omega
      · have hall' := hones.1 hall
        rw [if_pos hinc] at hn
        split_ifs at hn <;> omega
    rw [if_pos hover]
    refine ⟨?_, Raises.overflowed hge⟩
    dsimp only
    rw [saturated, if_pos hge]
    by_cases hzero : mode.direction zSign = .towardZero
    · rw [if_pos (hdirection.2 hzero), if_pos hzero]
      rfl
    · rw [if_neg (mt hdirection.1 hzero), if_neg hzero]
      rfl
  rw [if_neg hover]
  push Not at hover
  by_cases hsmall : zExp ≤ 0
  · rw [if_pos hsmall]
    obtain ⟨z, hz⟩ : ∃ z, shift64ExtraRightJamming zSig0 zSig1 (1 - zExp).toNat = z := ⟨_, rfl⟩
    have hside := shift64ExtraRightJamming_sameSide zSig0 zSig1 _ hz
    have hexact : wide zSig0 zSig1 % 2 ^ (64 + (1 - zExp).toNat) = 0 ↔ z.2 = 0 := by
      rw [← hside.zero, wide_mod]
      exact UInt64.toNat_inj (b := 0)
    have hlow : z.1.toNat < 2 ^ 63 := by
      have hq := hside.quotient
      rw [wide_div, (wide_split ..).1] at hq
      have hpow : 2 ^ 1 ≤ 2 ^ (1 - zExp).toNat := Nat.pow_le_pow_right Nat.two_pos (by omega)
      rw [hq, Nat.div_lt_iff_lt_mul (by omega)]
      omega
    rw [← hside.roundShift_eq, show (zExp - 1).toNat = 0 by omega, Nat.zero_mul, Nat.zero_add] at hn
    rw [hz, propext hexact]
    have hle : n ≤ 2 ^ 63 := by
      rw [roundShift_wide] at hn
      split_ifs at hn <;> omega
    have hpattern := ofPattern_segment zSign (E := 0) (q := n) (by omega) (.inl rfl)
    have hne : n ≠ 2 ^ 64 := by omega
    have hlt : n < infinityExtended := by omega
    rw [Nat.zero_mul, Nat.zero_add, if_neg hne] at hpattern
    have hraises : Raises infinityExtended n (z.2 = 0)
        (if z.2 = 0 then if (zExp < 0 ∨ extraIncrement mode zSign zSig1 = false ∨
            zSig0 < 0xffffffffffffffff) ∧ z.2 ≠ 0 then floatFlagUnderflow else 0
          else (if (zExp < 0 ∨ extraIncrement mode zSign zSig1 = false ∨
            zSig0 < 0xffffffffffffffff) ∧ z.2 ≠ 0 then floatFlagUnderflow else 0) ||| floatFlagInexact) := by
      refine Raises.inRange hlt ?_
      split_ifs with htiny
      · exact .inr ⟨rfl, htiny.2⟩
      · exact .inl rfl
    by_cases hinc : extraIncrement mode zSign z.2 = true
    · rw [if_pos hinc]
      refine ⟨?_, hraises⟩
      have hvalue := toNat_incremented hinc (show z.1.toNat + 1 < 2 ^ 64 by omega)
      rw [← hn] at hvalue
      have htop : (0x8000000000000000 : UInt64) ≤ incremented mode z.1 z.2 ↔ 2 ^ 63 ≤ n := by
        rw [UInt64.le_iff_toNat_le, hvalue]
        rfl
      have hword : UInt64.ofNat n = incremented mode z.1 z.2 := by rw [← hvalue, UInt64.ofNat_toNat]
      rw [saturated, if_neg (Nat.not_le.2 hlt), hpattern, hword]
      dsimp only
      by_cases h63 : 2 ^ 63 ≤ n
      · rw [if_pos (htop.2 h63), if_pos h63]
      · rw [if_neg (mt htop.1 h63), if_neg h63]
    · rw [if_neg hinc]
      refine ⟨?_, hraises⟩
      rw [roundShift_wide, if_neg hinc] at hn
      have hword : UInt64.ofNat n = z.1 := by rw [hn, UInt64.ofNat_toNat]
      have h63 : ¬2 ^ 63 ≤ n := by omega
      rw [saturated, if_neg (Nat.not_le.2 hlt), hpattern, if_neg h63, hword]
  · rw [if_neg hsmall]
    have hbig := hnorm.resolve_left hsmall
    have hcount : (1 - zExp).toNat = 0 := by omega
    have hexact : wide zSig0 zSig1 % 2 ^ (64 + (1 - zExp).toNat) = 0 ↔ zSig1 = 0 := by
      rw [hcount, Nat.add_zero, wide_mod]
      exact UInt64.toNat_inj (b := 0)
    rw [propext hexact]
    rw [hcount, Nat.add_zero] at hn
    obtain ⟨q, hq⟩ : ∃ q, roundShift (mode.direction zSign) 64 (wide zSig0 zSig1) = q := ⟨_, rfl⟩
    have hshape := roundShift_wide mode zSign zSig0 zSig1
    rw [hq] at hn hshape
    have hqle : q ≤ 2 ^ 64 ∧ 2 ^ 63 ≤ q := by split_ifs at hshape <;> omega
    obtain ⟨E, hE⟩ : ∃ E : ℕ, zExp = E + 1 := ⟨(zExp - 1).toNat, by omega⟩
    rw [hE] at hn hover ⊢
    have hE1 : ((E : ℤ) + 1 - 1).toNat = E := by omega
    have hE2 : ((E : ℤ) + 1).toNat = E + 1 := by omega
    rw [hE1] at hn
    have hpattern := ofPattern_segment zSign (E := E) hqle.1 (.inr hqle.2)
    rw [← hn] at hpattern
    -- a carry out of the significand would be the overflow of the last exponent
    have hlt : n < infinityExtended := by
      rcases eq_or_ne (E : ℤ) 0x7ffd with hlast | hne
      · have hnot : q ≠ 2 ^ 64 := by
          intro h64
          have hinc : extraIncrement mode zSign zSig1 = true := by
            by_contra hinc
            rw [if_neg hinc] at hshape
            omega
          refine hover.2 (by omega) (hones.2 ?_) hinc
          rw [if_pos hinc] at hshape
          omega
        omega
      · have hle := hover.1
        omega
    have hraises : Raises infinityExtended n (zSig1 = 0)
        (if zSig1 = 0 then 0 else 0 ||| floatFlagInexact) := Raises.inRange hlt (.inl rfl)
    by_cases hinc : extraIncrement mode zSign zSig1 = true
    · rw [if_pos hinc] at hshape ⊢
      have hwrap : zSig0 + 1 = 0 ↔ zSig0.toNat = 2 ^ 64 - 1 := by
        rw [← UInt64.toNat_inj, UInt64.toNat_add]
        show (zSig0.toNat + 1) % 2 ^ 64 = 0 ↔ _
        omega
      by_cases hall : zSig0.toNat = 2 ^ 64 - 1
      · have hq64 : q = 2 ^ 64 := by split_ifs at hshape <;> omega
        rw [if_pos (hwrap.2 hall)]
        refine ⟨?_, hraises⟩
        rw [saturated, if_neg (Nat.not_le.2 hlt), hpattern, if_pos hq64, hE2]
      · rw [if_neg (mt hwrap.1 hall)]
        refine ⟨?_, hraises⟩
        have hvalue := toNat_incremented hinc (show zSig0.toNat + 1 < 2 ^ 64 by omega)
        rw [hq] at hvalue
        have hword : UInt64.ofNat q = incremented mode zSig0 zSig1 := by rw [← hvalue, UInt64.ofNat_toNat]
        have hq64 : q ≠ 2 ^ 64 := by
          rw [← hvalue]
          exact (UInt64.toNat_lt _).ne
        rw [saturated, if_neg (Nat.not_le.2 hlt), hpattern, if_neg hq64, if_pos hqle.2, hword, hE2]
    · rw [if_neg hinc] at hshape ⊢
      have hne : zSig0 ≠ 0 := by
        rintro rfl
        exact absurd hbig (by decide)
      refine ⟨?_, hraises⟩
      have hword : UInt64.ofNat q = zSig0 := by rw [hshape, UInt64.ofNat_toNat]
      have hq64 : q ≠ 2 ^ 64 := by omega
      rw [saturated, if_neg (Nat.not_le.2 hlt), hpattern, if_neg hq64, if_pos hqle.2, hword, if_neg hne,
        hE2]

/-- The result of the sign `zSign` is the rounding of the size `v`. -/
def RoundedTo (mode : RoundingMode) (zSign : Bool) (v : ℚ) (z : Floatx80 × UInt8) : Prop :=
  ∃ n, Rounds (mode.direction zSign) sizeExtended v n ∧
    PacksExtended (mode.direction zSign) zSign n (sizeExtended n = v) z

/-- Significands of two words that lie like a number to the middle, wherever it is, round like the
    number. -/
theorem roundAndPackFloatx80_rounds {mode : RoundingMode} {zSign : Bool} {zExp : ℤ}
    {zSig0 zSig1 : UInt64} (hnorm : zExp ≤ 0 ∨ 2 ^ 63 ≤ zSig0.toNat) {v : ℚ} {m j : ℕ}
    (hside : ∀ k, 64 ≤ k → SameSide k (wide zSig0 zSig1) (k + j) m)
    (hv : v = scaled m (zExp - 16510 - j)) :
    RoundedTo mode zSign v (roundAndPackFloatx80 mode zSign zExp zSig0 zSig1) := by
  obtain ⟨c, hc⟩ : ∃ c, c = (1 - zExp).toNat := ⟨_, rfl⟩
  obtain ⟨E, hE⟩ : ∃ E, E = (zExp - 1).toNat := ⟨_, rfl⟩
  have hat := hside (64 + c) (Nat.le_add_right _ _)
  have hquot : m / 2 ^ (64 + c + j) = zSig0.toNat / 2 ^ c := by
    rw [← hat.quotient, (wide_split ..).1]
  have hq : zSig0.toNat / 2 ^ c < 2 ^ 64 := lt_of_le_of_lt (Nat.div_le_self _ _) zSig0.toNat_lt
  have hlead : E = 0 ∨ 2 ^ 63 ≤ zSig0.toNat / 2 ^ c := by
    rcases hnorm with hle | hbig
    · exact .inl (by omega)
    · rcases Nat.eq_zero_or_pos E with h0 | hpos
      · exact .inl h0
      · rw [show c = 0 by omega, Nat.pow_zero, Nat.div_one]
        exact .inr hbig
  have hcount : Counted sizeExtended v (2 ^ (-16445 + E : ℤ)) (E * 2 ^ 63) (64 + c + j) m := by
    refine ⟨strictMono_sizeExtended, ?_, two_zpow_pos _, ?_, ?_, ?_⟩
    · exact (Nat.even_pow.2 ⟨even_two, by decide⟩).mul_left E
    · rw [hquot]
      exact magnitude_segment hq.le hlead
    · rw [hquot, Nat.add_assoc]
      refine (magnitude_segment (p := 63) hq (hlead.imp_right Nat.le_succ_of_le)).trans ?_
      unfold scaled
      rw [Nat.cast_succ]
    · rw [hv, scaled, mul_assoc, mul_comm ((2 : ℚ) ^ _), natCast_two_pow]
      congr 2
      omega
  refine ⟨_, hcount.rounds _, ?_⟩
  rw [propext (hcount.exact_iff _), ← propext hat.zero, ← hat.roundShift_eq, hc, hE]
  exact roundAndPackFloatx80_spec hnorm rfl

/-- Zero is exact. -/
theorem roundedTo_zero (mode : RoundingMode) (zSign : Bool) :
    RoundedTo mode zSign 0 (packFloatx80 zSign 0 0, 0) := by
  have hzero : sizeExtended 0 = 0 := by
    unfold sizeExtended magnitude scaled
    norm_num
  have hcount : Counted sizeExtended 0 (2 ^ (-16445 : ℤ)) 0 0 0 := by
    have hone := magnitude_segment (p := 63) (e := -16445) (E := 0) (q := 1) (by norm_num) (.inl rfl)
    refine ⟨strictMono_sizeExtended, ⟨0, rfl⟩, two_zpow_pos _, ?_, ?_, ?_⟩
    · simpa using hzero
    · simpa [scaled, sizeExtended] using hone
    · rw [zero_mul, Nat.cast_zero, zero_mul]
  have hround : roundShift (mode.direction zSign) 0 0 = 0 := by
    cases mode.direction zSign <;> rfl
  have hraises : Raises infinityExtended 0 (sizeExtended 0 = 0)
      (if sizeExtended 0 = 0 then 0 else 0 ||| floatFlagInexact) :=
    Raises.inRange (by decide) (.inl rfl)
  have hrounds := hcount.rounds (mode.direction zSign)
  rw [hround] at hrounds
  rw [if_pos hzero] at hraises
  refine ⟨0, hrounds, ?_, hraises⟩
  rw [saturated, if_neg (by decide), ofPattern, Nat.zero_div, if_pos rfl]
  rfl

end CuteMac.Fpu
