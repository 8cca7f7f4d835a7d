/-
  Integers of 32 bits and the extended format (`softfloat.c`).

  * `int32ToFloatx80`, `floatx80ToInt32`: the conversions both ways;
  * `floatx80ToInt32_rounds`: an integer that is stored is the rounding of the number, up to the
    ends of 32 bits;
  * `int32_load_store`: an integer that is loaded is exact, and is stored again as it was.
-/
import CuteMac.Fpu.Conversions

namespace CuteMac.Fpu

open Rounding Scaled

def int32ToFloatx80 (a : UInt32) : Floatx80 :=
  if a = 0 then packFloatx80 false 0 0
  else
    let zSign := decide (a.toInt32 < 0)
    let absA := if zSign then 0 - a else a
    let shiftCount := countLeadingZeros32 absA + 32
    packFloatx80 zSign (0x403e - shiftCount) (absA.toUInt64 <<< UInt64.ofNat shiftCount)

/-- `roundAndPackInt32`; what is added is the same as for a single. -/
def roundAndPackInt32 (mode : RoundingMode) (zSign : Bool) (absZ : UInt64) : UInt32 × UInt8 :=
  let roundBits := absZ &&& 0x7f
  let absZ := (absZ + binary32.roundIncrement mode zSign) >>> 7
  let absZ := if roundBits = 0x40 ∧ mode = .nearestEven then absZ &&& ~~~1 else absZ
  let z := if zSign then 0 - absZ.toUInt32 else absZ.toUInt32
  if absZ >>> 32 ≠ 0 ∨ z ≠ 0 ∧ (decide (z.toInt32 < 0) != zSign) = true then
    (if zSign then 0x80000000 else 0x7fffffff, floatFlagInvalid)
  else (z, if roundBits ≠ 0 then floatFlagInexact else 0)

def floatx80ToInt32 (mode : RoundingMode) (a : Floatx80) : UInt32 × UInt8 :=
  let aSig := a.low
  let aExp := a.exponent.toNat
  let aSign := if aExp = 0x7fff ∧ aSig <<< 1 ≠ 0 then false else a.negative
  let shiftCount := if 0x4037 ≤ aExp then 1 else 0x4037 - aExp
  roundAndPackInt32 mode aSign (shift64RightJamming aSig shiftCount)

/-! ## The rounding -/

/-- The largest size of an integer of 32 bits with a sign. -/
def integerLimit (zSign : Bool) : ℕ := if zSign then 2 ^ 31 else 2 ^ 31 - 1

/-- A whole number with its sign, up to the ends of 32 bits. -/
def clamped (zSign : Bool) (n : ℕ) : ℤ :=
  (if zSign then -1 else 1) * (min n (integerLimit zSign) : ℕ)

/-- The result of a conversion that rounds to `n`, and the exceptions that are raised for it. -/
structure Converts (zSign : Bool) (n : ℕ) (exact : Prop) (z : UInt32 × UInt8) : Prop where
  value : z.1.toInt32.toInt = clamped zSign n
  invalid : z.2 = floatFlagInvalid ↔ integerLimit zSign < n
  inexact : z.2 = floatFlagInexact ↔ n ≤ integerLimit zSign ∧ ¬exact
  quiet : z.2 = 0 ↔ n ≤ integerLimit zSign ∧ exact

/-- All sizes that do not fit give the same. -/
theorem Converts.of_large {zSign : Bool} {n m : ℕ} {exact exact' : Prop} {z : UInt32 × UInt8}
    (h : Converts zSign n exact z) (hn : integerLimit zSign < n) (hm : integerLimit zSign < m) :
    Converts zSign m exact' z := by
  have hflags := h.invalid.2 hn
  have hraised : floatFlagInvalid ≠ floatFlagInexact ∧ floatFlagInvalid ≠ 0 := by decide
  refine ⟨?_, iff_of_true hflags hm, ?_, ?_⟩
  · rw [h.value, clamped, clamped, Nat.min_eq_right hn.le, Nat.min_eq_right hm.le]
  · rw [hflags]
    exact iff_of_false hraised.1 fun h => absurd h.1 (Nat.not_le.2 hm)
  · rw [hflags]
    exact iff_of_false hraised.2 fun h => absurd h.1 (Nat.not_le.2 hm)

/-- The sign shows whether a size fits. -/
theorem sizeFits_iff {a : UInt64} {n : ℕ} (ha : a.toNat = n) (zSign : Bool) {z : UInt32}
    (hz : z = if zSign then 0 - a.toUInt32 else a.toUInt32) :
    (a >>> 32 ≠ 0 ∨ z ≠ 0 ∧ (decide (z.toInt32 < 0) != zSign) = true ↔ integerLimit zSign < n) ∧
      (n ≤ integerLimit zSign → z.toInt32.toInt = clamped zSign n) := by
  have hn := ha ▸ a.toNat_lt
  have hlimit : integerLimit zSign < 2 ^ 32 := by cases zSign <;> decide
  have hhigh : a >>> 32 ≠ 0 ↔ 2 ^ 32 ≤ n := by
    have hdiv : (a >>> 32).toNat = n / 2 ^ 32 := by
      rw [UInt64.toNat_shiftRight, ha]
      exact Nat.shiftRight_eq_div_pow ..
    rw [ne_eq, ← UInt64.toNat_inj, hdiv]
    show ¬_ = 0 ↔ _
    omega
  rcases Nat.lt_or_ge n (2 ^ 32) with hlt | hge
  · rw [or_iff_right (mt hhigh.1 (Nat.not_le.2 hlt))]
    have hlow : a.toUInt32.toNat = n := by rw [UInt64.toNat_toUInt32, ha, Nat.mod_eq_of_lt hlt]
    have hsigned := toInt_toInt32 z
    have hneg : z.toInt32 < 0 ↔ z.toInt32.toInt < 0 := by
      rw [Int32.lt_iff_toInt_lt, Int32.toInt_zero]
    have hzero : z ≠ 0 ↔ z.toNat ≠ 0 := not_congr (UInt32.toNat_inj (b := 0)).symm
    cases zSign with
    | false =>
      rw [if_neg Bool.false_ne_true] at hz
      rw [hz] at hsigned hneg hzero ⊢
      rw [hlow] at hsigned hzero
      rw [Bool.bne_false, decide_eq_true_iff, hneg, hzero, hsigned]
      unfold clamped integerLimit
      simp only [Bool.false_eq_true, if_false, one_mul]
      constructor
      · split_ifs <;> omega
      · intro hle
        rw [if_pos (by omega), Nat.min_eq_left hle]
    | true =>
      rw [if_pos rfl] at hz
      have hminus : z.toNat = (2 ^ 32 - n) % 2 ^ 32 := by
        rw [hz, UInt32.toNat_sub, hlow, UInt32.toNat_zero, Nat.add_zero]
      rw [hminus] at hsigned hzero
      rw [Bool.bne_true, Bool.not_eq_true', decide_eq_false_iff_not, hneg, hzero, hsigned]
      unfold clamped integerLimit
      simp only [if_true, neg_one_mul]
      rcases Nat.eq_zero_or_pos n with h0 | hpos
      · rw [h0]
        decide
      · rw [Nat.mod_eq_of_lt (by omega)]
        constructor
        · split_ifs <;> omega
        · intro hle
          rw [Nat.min_eq_left hle]
          split_ifs <;> omega
  · exact ⟨iff_of_true (.inl (hhigh.2 hge)) (by omega), fun hle => by omega⟩

/-- The rounding of a number of seven bits below the point. -/
theorem roundAndPackInt32_spec (mode : RoundingMode) (zSign : Bool) {absZ : UInt64}
    (hs : absZ.toNat < 2 ^ 63) :
    Converts zSign (roundShift (mode.direction zSign) 7 absZ.toNat) (absZ.toNat % 2 ^ 7 = 0)
      (roundAndPackInt32 mode zSign absZ) := by
  have hrounded := toNat_rounded sound_binary32 hs mode zSign
  have hbits : absZ &&& 0x7f ≠ 0 ↔ absZ.toNat % 2 ^ 7 ≠ 0 := by
    have hmask := toNat_roundBits sound_binary32 absZ
    rw [ne_eq, ← UInt64.toNat_inj]
    exact not_congr (Eq.congr_left hmask)
  obtain ⟨z, hz⟩ : ∃ z, z = roundAndPackInt32 mode zSign absZ := ⟨_, rfl⟩
  rw [← hz]
  unfold roundAndPackInt32 at hz
  dsimp only at hz
  have hshape : (if absZ &&& 0x7f = 0x40 ∧ mode = .nearestEven then
      ((absZ + binary32.roundIncrement mode zSign) >>> 7) &&& ~~~1
      else (absZ + binary32.roundIncrement mode zSign) >>> 7).toNat
      = roundShift (mode.direction zSign) 7 absZ.toNat := hrounded
  generalize (if absZ &&& 0x7f = 0x40 ∧ mode = .nearestEven then
      ((absZ + binary32.roundIncrement mode zSign) >>> 7) &&& ~~~1
      else (absZ + binary32.roundIncrement mode zSign) >>> 7) = a at hshape hz
  generalize roundShift (mode.direction zSign) 7 absZ.toNat = n at hshape ⊢
  obtain ⟨hfits, hvalue⟩ := sizeFits_iff hshape zSign rfl
  by_cases hlarge : integerLimit zSign < n
  · have hraised : floatFlagInvalid ≠ floatFlagInexact ∧ floatFlagInvalid ≠ 0 := by decide
    rw [if_pos (hfits.2 hlarge)] at hz
    rw [hz]
    refine ⟨?_, iff_of_true rfl hlarge, iff_of_false hraised.1 ?_, iff_of_false hraised.2 ?_⟩
    · unfold clamped
      rw [Nat.min_eq_right hlarge.le]
      cases zSign <;> rfl
    · exact fun h => absurd h.1 (Nat.not_le.2 hlarge)
    · exact fun h => absurd h.1 (Nat.not_le.2 hlarge)
  · have hle := Nat.not_lt.1 hlarge
    rw [if_neg (mt hfits.1 hlarge)] at hz
    rw [hz]
    refine ⟨hvalue hle, iff_of_false ?_ hlarge, ?_, ?_⟩
    · dsimp only
      split_ifs <;> decide
    · dsimp only
      by_cases hexact : absZ.toNat % 2 ^ 7 = 0
      · rw [if_neg (mt hbits.1 (not_not.2 hexact))]
        exact iff_of_false (by decide) fun h => h.2 hexact
      · rw [if_pos (hbits.2 hexact)]
        exact iff_of_true rfl ⟨hle, hexact⟩
    · dsimp only
      by_cases hexact : absZ.toNat % 2 ^ 7 = 0
      · rw [if_neg (mt hbits.1 (not_not.2 hexact))]
        exact iff_of_true rfl ⟨hle, hexact⟩
      · rw [if_pos (hbits.2 hexact)]
        exact iff_of_false (by decide) fun h => hexact h.2

section
variable {x : Floatx80}

/-- A number among the whole numbers, as bits below the point or as zeros above it. -/
theorem counted_integer (x : Floatx80) :
    ∃ k m, Counted (fun n : ℕ => (n : ℚ)) |x.value| 1 0 k m ∧
      (x.scale ≤ 0 → k = (-x.scale).toNat ∧ m = x.low.toNat) ∧
      (0 < x.scale → k = 0 ∧ m = x.low.toNat * 2 ^ x.scale.toNat) := by
  have hcounted : ∀ {k m : ℕ}, |x.value| * (2 ^ k : ℕ) = m →
      Counted (fun n : ℕ => (n : ℚ)) |x.value| 1 0 k m := by
    intro k m h
    refine ⟨Nat.strictMono_cast, ⟨0, rfl⟩, one_pos, ?_, ?_, by rw [h, mul_one]⟩
    · rw [Nat.zero_add, mul_one]
    · rw [Nat.zero_add, mul_one, Nat.cast_succ]
  rcases le_or_gt x.scale 0 with hle | hpos
  · refine ⟨(-x.scale).toNat, x.low.toNat, hcounted ?_, fun _ => ⟨rfl, rfl⟩, fun h => by omega⟩
    rw [abs_value, scaled, mul_assoc, mul_comm ((2 : ℚ) ^ x.scale), natCast_two_pow,
      show ((-x.scale).toNat : ℤ) + x.scale = 0 by omega, zpow_zero, mul_one]
  · refine ⟨0, x.low.toNat * 2 ^ x.scale.toNat, hcounted ?_, fun h => by omega, fun _ => ⟨rfl, rfl⟩⟩
    have hcast : ((2 ^ x.scale.toNat : ℕ) : ℚ) = 2 ^ x.scale := by
      rw [Nat.cast_pow, Nat.cast_ofNat, ← zpow_natCast, Int.toNat_of_nonneg hpos.le]
    rw [abs_value, scaled, Nat.cast_mul, hcast, Nat.pow_zero, Nat.cast_one, mul_one]

/-- The rounding of a number to a whole one. -/
theorem floatx80ToInt32_spec (mode : RoundingMode) (hfin : x.Finite) (hcan : x.Canonical) :
    ∃ n : ℕ, Rounds (mode.direction x.negative) (fun n : ℕ => (n : ℚ)) |x.value| n ∧
      Converts x.negative n ((n : ℚ) = |x.value|) (floatx80ToInt32 mode x) := by
  have hlt := finite_iff.1 hfin
  have hm := low_lt x
  have hlimit : integerLimit x.negative < 2 ^ 32 := by cases x.negative <;> decide
  obtain ⟨k, m, hcount, hbelow, habove⟩ := counted_integer x
  refine ⟨0 + roundShift (mode.direction x.negative) k m, hcount.rounds _, ?_⟩
  rw [propext (hcount.exact_iff _), Nat.zero_add]
  unfold floatx80ToInt32
  dsimp only
  rw [if_neg (c := x.exponent.toNat = 0x7fff ∧ _) (fun h => by omega)]
  have hspec : ∀ {s : ℕ}, 1 ≤ s → Converts x.negative (roundShift (mode.direction x.negative) (7 + s) x.low.toNat)
      (x.low.toNat % 2 ^ (7 + s) = 0)
      (roundAndPackInt32 mode x.negative (shift64RightJamming x.low s)) := by
    intro s hs
    have hpow : 2 ^ 64 ≤ 2 ^ (s + 63) := Nat.pow_le_pow_right Nat.two_pos (by omega)
    have hsig := toNat_shift64RightJamming x.low s
    have hbelow : (shift64RightJamming x.low s).toNat < 2 ^ 63 := by
      rw [hsig]
      exact jam_lt (by decide) (by omega)
    have hpacked := roundAndPackInt32_spec mode x.negative hbelow
    rwa [hsig, roundShift_jam _ (by decide), propext (jam_mod (by decide) s _)] at hpacked
  by_cases hbig : 0x4037 ≤ x.exponent.toNat
  · rw [if_pos hbig]
    have hint : 2 ^ 63 ≤ x.low.toNat := hcan.resolve_left fun h => by
      have := exponent_eq_zero.1 h
      omega
    refine (hspec le_rfl).of_large ?_ ?_
    · have hq : 2 ^ 55 ≤ x.low.toNat / 2 ^ (7 + 1) := by omega
      unfold roundShift
      omega
    · have hq : 2 ^ 32 ≤ m / 2 ^ k := by
        rcases le_or_gt x.scale 0 with hle | hpos
        · obtain ⟨rfl, rfl⟩ := hbelow hle
          have hk : (-x.scale).toNat ≤ 7 := by
            unfold Floatx80.scale
            omega
          rw [Nat.le_div_iff_mul_le (Nat.two_pow_pos _)]
          have hpow : 2 ^ (-x.scale).toNat ≤ 2 ^ 7 := Nat.pow_le_pow_right Nat.two_pos hk
          exact le_trans (Nat.mul_le_mul_left _ hpow) (by omega)
        · obtain ⟨rfl, rfl⟩ := habove hpos
          rw [Nat.pow_zero, Nat.div_one]
          exact le_trans (by omega) (Nat.le_mul_of_pos_right _ (Nat.two_pow_pos _))
      unfold roundShift
      omega
  · rw [if_neg hbig]
    have hscale : x.scale ≤ 0 := by
      unfold Floatx80.scale
      omega
    obtain ⟨rfl, rfl⟩ := hbelow hscale
    have hconverts := hspec (s := 0x4037 - x.exponent.toNat) (by omega)
    rcases Nat.eq_zero_or_pos x.exponent.toNat with h0 | hpos
    · -- a denormal number is far below one half
      have hk : (-x.scale).toNat = 16445 := by
        unfold Floatx80.scale
        rw [h0]
        rfl
      have hsmall : ∀ {i : ℕ}, 65 ≤ i → 2 * x.low.toNat < 2 ^ i := fun hi =>
        lt_of_lt_of_le (by omega) (Nat.pow_le_pow_right Nat.two_pos hi)
      have hmod : ∀ {i : ℕ}, 65 ≤ i → x.low.toNat % 2 ^ i = x.low.toNat := fun hi => by
        have := hsmall hi
        exact Nat.mod_eq_of_lt (by omega)
      rw [hmod (by omega), roundShift_small (hsmall (i := 16445) (by omega)) (hsmall (by omega))] at hconverts
      rwa [hk, hmod (by omega)]
    · have hk : (-x.scale).toNat = 7 + (0x4037 - x.exponent.toNat) := by
        unfold Floatx80.scale
        omega
      rwa [hk]

end

/-- A number that is stored as an integer is rounded in the current mode, up to the ends of 32
    bits. -/
theorem floatx80ToInt32_rounds (mode : RoundingMode) (x : Floatx80) (hfin : x.Finite)
    (hcan : x.Canonical) :
    ∃ n : ℕ, Rounds (mode.direction x.negative) (fun n : ℕ => (n : ℚ)) |x.value| n ∧
      Converts x.negative n ((n : ℚ) = |x.value|) (floatx80ToInt32 mode x) :=
  floatx80ToInt32_spec mode hfin hcan

/-- Two and a half, to the even neighbour. -/
theorem floatx80ToInt32_rounds_half :
    ∃ n : ℕ, Rounds (RoundingMode.nearestEven.direction (⟨0x4000, 0xa000000000000000⟩ : Floatx80).negative)
        (fun n : ℕ => (n : ℚ)) |(⟨0x4000, 0xa000000000000000⟩ : Floatx80).value| n ∧
      Converts (⟨0x4000, 0xa000000000000000⟩ : Floatx80).negative n
        ((n : ℚ) = |(⟨0x4000, 0xa000000000000000⟩ : Floatx80).value|)
        (floatx80ToInt32 .nearestEven ⟨0x4000, 0xa000000000000000⟩) :=
  floatx80ToInt32_rounds .nearestEven ⟨0x4000, 0xa000000000000000⟩ (by decide) (.inr (by decide))

example : floatx80ToInt32 .nearestEven ⟨0x4000, 0xa000000000000000⟩ = (2, floatFlagInexact) := by
  decide +kernel

/-! ## Loads -/

/-- The size of an integer with its sign. -/
theorem toNat_absA (a : UInt32) :
    (if decide (a.toInt32 < 0) then 0 - a else a).toNat = a.toInt32.toInt.natAbs := by
  have hsigned := toInt_toInt32 a
  have hlt := a.toNat_lt
  have hneg : a.toInt32 < 0 ↔ a.toInt32.toInt < 0 := by
    rw [Int32.lt_iff_toInt_lt, Int32.toInt_zero]
  by_cases h : a.toInt32 < 0
  · have hint := hneg.1 h
    rw [decide_eq_true h, if_pos rfl, UInt32.toNat_sub, UInt32.toNat_zero, Nat.add_zero]
    split_ifs at hsigned <;> omega
  · have hint := mt hneg.2 h
    rw [decide_eq_false h, if_neg Bool.false_ne_true]
    split_ifs at hsigned <;> omega

/-- A loaded integer has its sign and its size. -/
theorem int32ToFloatx80_spec (a : UInt32) :
    (int32ToFloatx80 a).Finite ∧ (int32ToFloatx80 a).Canonical ∧
      (int32ToFloatx80 a).negative = decide (a.toInt32.toInt < 0) ∧
      |(int32ToFloatx80 a).value| = (a.toInt32.toInt.natAbs : ℕ) := by
  by_cases h0 : a = 0
  · subst h0
    have hz : int32ToFloatx80 0 = packFloatx80 false 0 0 := rfl
    have hlow : (packFloatx80 false 0 0).low.toNat = 0 := rfl
    rw [hz]
    refine ⟨by decide, .inl (by decide), by decide, ?_⟩
    rw [abs_value, hlow, scaled, Nat.cast_zero, zero_mul]
    rfl
  · have habs := toNat_absA a
    have hneg : decide (a.toInt32 < 0) = decide (a.toInt32.toInt < 0) := by
      exact decide_eq_decide.2 (by rw [Int32.lt_iff_toInt_lt, Int32.toInt_zero])
    obtain ⟨n, hn⟩ : ∃ n, n = a.toInt32.toInt.natAbs := ⟨_, rfl⟩
    have hpos : n ≠ 0 := by
      have hne : a.toNat ≠ 0 := fun h => h0 (UInt32.toNat_inj.1 h)
      have hlt := a.toNat_lt
      have hsigned := toInt_toInt32 a
      split_ifs at hsigned <;> omega
    rw [← hn] at habs ⊢
    unfold int32ToFloatx80
    dsimp only
    rw [if_neg h0, hneg] at *
    generalize (if decide (a.toInt32.toInt < 0) = true then 0 - a else a) = absA at habs ⊢
    have hsize : n.size ≤ 32 := Nat.size_le.2 (habs ▸ absA.toNat_lt)
    have hsize0 : 0 < n.size := Nat.size_pos.2 (Nat.pos_of_ne_zero hpos)
    have hcount : countLeadingZeros32 absA + 32 = 64 - n.size := by
      rw [countLeadingZeros32_eq, habs]
      omega
    have hmul := size_mul_two_pow hpos (64 - n.size)
    have hlow : (absA.toUInt64 <<< UInt64.ofNat (64 - n.size)).toNat = n * 2 ^ (64 - n.size) := by
      have hlt : n * 2 ^ (64 - n.size) < 2 ^ 64 := Nat.size_le.1 (by omega)
      rw [toNat_shiftLeft_ofNat (by omega), UInt32.toNat_toUInt64, habs, Nat.mod_eq_of_lt hlt]
    have hE : 0x403e - (64 - n.size) < 2 ^ 15 := by omega
    rw [hcount]
    obtain ⟨x, hx⟩ : ∃ x, x = packFloatx80 (decide (a.toInt32.toInt < 0)) (0x403e - (64 - n.size))
        (absA.toUInt64 <<< UInt64.ofNat (64 - n.size)) := ⟨_, rfl⟩
    have hexp : x.exponent.toNat = 0x403e - (64 - n.size) := hx ▸ packed_exponent _ hE _
    have hxlow : x.low.toNat = n * 2 ^ (64 - n.size) := by rw [hx]; exact hlow
    rw [← hx]
    refine ⟨finite_iff.2 (by omega), .inr ?_, hx ▸ packed_negative _ hE _, ?_⟩
    · rw [hxlow]
      exact Nat.lt_size.1 (by omega)
    · have hscale : x.scale = -((64 - n.size : ℕ) : ℤ) := by
        unfold Floatx80.scale
        omega
      rw [abs_value, hxlow, hscale, scaled, Nat.cast_mul, mul_assoc, natCast_two_pow, add_neg_cancel,
        zpow_zero, mul_one]

/-- A loaded integer is exact, and is stored again as it was, whatever the mode. -/
theorem int32_load_store (a : UInt32) :
    (int32ToFloatx80 a).Finite ∧ (int32ToFloatx80 a).Canonical ∧
      (int32ToFloatx80 a).value = (a.toInt32.toInt : ℚ) ∧
      ∀ mode, floatx80ToInt32 mode (int32ToFloatx80 a) = (a, 0) := by
  obtain ⟨hfin, hcan, hneg, hsize⟩ := int32ToFloatx80_spec a
  have hsigned := toInt_toInt32 a
  have hlt := a.toNat_lt
  refine ⟨hfin, hcan, ?_, fun mode => ?_⟩
  · rw [abs_value] at hsize
    by_cases h : a.toInt32.toInt < 0
    · rw [value_of_negative (hneg.trans (decide_eq_true h)), hsize, ← Int.cast_natCast,
        Int.ofNat_natAbs_of_nonpos h.le, Int.cast_neg, neg_neg]
    · rw [value_of_positive (hneg.trans (decide_eq_false h)), hsize, ← Int.cast_natCast,
        Int.natAbs_of_nonneg (not_lt.1 h)]
  · obtain ⟨n, hround, hconv⟩ := floatx80ToInt32_spec mode hfin hcan
    rw [hsize] at hround hconv
    have hn : n = a.toInt32.toInt.natAbs := hround.eq_of_value Nat.strictMono_cast
    have hfits : n ≤ integerLimit (int32ToFloatx80 a).negative := by
      rw [hneg, integerLimit]
      by_cases h : a.toInt32.toInt < 0
      · rw [decide_eq_true h, if_pos rfl]
        split_ifs at hsigned <;> omega
      · rw [decide_eq_false h, if_neg Bool.false_ne_true]
        split_ifs at hsigned <;> omega
    have hvalue : (floatx80ToInt32 mode (int32ToFloatx80 a)).1.toInt32.toInt = a.toInt32.toInt := by
      rw [hconv.value, clamped, Nat.min_eq_left hfits, hneg, hn]
      by_cases h : a.toInt32.toInt < 0
      · rw [decide_eq_true h, if_pos rfl]
        omega
      · rw [decide_eq_false h, if_neg Bool.false_ne_true]
        omega
    refine Prod.ext ?_ (hconv.quiet.2 ⟨hfits, by rw [hn]⟩)
    have hword := toInt_toInt32 (floatx80ToInt32 mode (int32ToFloatx80 a)).1
    have hword' := (floatx80ToInt32 mode (int32ToFloatx80 a)).1.toNat_lt
    rw [hvalue] at hword
    refine UInt32.toNat_inj.1 ?_
    show (floatx80ToInt32 mode (int32ToFloatx80 a)).1.toNat = a.toNat
    split_ifs at hword hsigned <;> omega

end CuteMac.Fpu
