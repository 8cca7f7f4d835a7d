/-
  Singles, doubles and the extended format (`softfloat.c`, `softfloat-specialize`).

  * `float32ToFloatx80`, `float64ToFloatx80`: the loads, which are exact;
  * `floatx80ToFloat32`, `floatx80ToFloat64`: the stores, which round;
  * `floatx80ToFloat_spec`: a store gives the rounding of the number;
  * `store_load`: what was loaded is stored again as it was.
-/
import CuteMac.Fpu.RoundAndPack

namespace CuteMac.Fpu

open Rounding Scaled

/-- `countLeadingZerosHigh`, the table of the leading zeros of a byte. -/
def countLeadingZerosHigh (byte : UInt32) : Nat := 8 - byte.toNat.size

def countLeadingZeros32 (a : UInt32) : Nat :=
  let first := if a < 0x10000 then (16, a <<< 16) else (0, a)
  let second := if first.2 < 0x1000000 then (first.1 + 8, first.2 <<< 8) else first
  second.1 + countLeadingZerosHigh (second.2 >>> 24)

def countLeadingZeros64 (a : UInt64) : Nat :=
  if a < 0x100000000 then 32 + countLeadingZeros32 a.toUInt32
  else countLeadingZeros32 (a >>> 32).toUInt32

/-- `commonNaNT`; `low` is not used. -/
structure CommonNaN where
  sign : Bool
  high : UInt64

def packFloatx80 (zSign : Bool) (zExp : Nat) (zSig : UInt64) : Floatx80 :=
  { high := (zSign.toUInt16 <<< 15) + UInt16.ofNat zExp, low := zSig }

def floatx80IsSignalingNan (a : Floatx80) : Bool :=
  let aLow := a.low &&& ~~~0x4000000000000000
  a.high &&& 0x7fff == 0x7fff && aLow <<< 1 != 0 && a.low == aLow

def floatx80ToCommonNaN (a : Floatx80) : CommonNaN × UInt8 :=
  (⟨a.negative, a.low <<< 1⟩, if floatx80IsSignalingNan a then floatFlagInvalid else 0)

def commonNaNToFloatx80 (a : CommonNaN) : Floatx80 :=
  { high := (a.sign.toUInt16 <<< 15) ||| 0x7fff, low := (0xc000000000000000 : UInt64) ||| (a.high >>> 1) }

namespace BinaryFormat

variable (f : BinaryFormat)

def maxExponent : Nat := 2 ^ f.exponentBits - 1

def frac (a : UInt64) : UInt64 := a &&& ((1 <<< UInt64.ofNat f.fractionBits) - 1)
def exp (a : UInt64) : Nat :=
  ((a >>> UInt64.ofNat f.fractionBits) &&& UInt64.ofNat f.maxExponent).toNat
def sign (a : UInt64) : Bool := a >>> UInt64.ofNat (f.exponentBits + f.fractionBits) != 0

/-- `float32_is_signaling_nan` and `float64_is_signaling_nan`. -/
def isSignalingNan (a : UInt64) : Bool :=
  (a >>> UInt64.ofNat (f.fractionBits - 1)) &&& UInt64.ofNat (2 ^ (f.exponentBits + 1) - 1)
      == UInt64.ofNat (2 ^ (f.exponentBits + 1) - 2) &&
    a &&& ((1 <<< UInt64.ofNat (f.fractionBits - 1)) - 1) != 0

/-- `float32ToCommonNaN` and `float64ToCommonNaN`. -/
def toCommonNaN (a : UInt64) : CommonNaN × UInt8 :=
  (⟨f.sign a, a <<< UInt64.ofNat (64 - f.fractionBits)⟩,
    if f.isSignalingNan a then floatFlagInvalid else 0)

def quietNaN : UInt64 :=
  UInt64.ofNat (f.maxExponent * 2 ^ f.fractionBits + 2 ^ (f.fractionBits - 1))

/-- `commonNaNToFloat32` and `commonNaNToFloat64`. -/
def ofCommonNaN (a : CommonNaN) : UInt64 :=
  (a.sign.toUInt64 <<< UInt64.ofNat (f.exponentBits + f.fractionBits)) ||| f.quietNaN |||
    (a.high >>> UInt64.ofNat (64 - f.fractionBits))

/-- `normalizeFloat32Subnormal` and `normalizeFloat64Subnormal`: the zeros are counted in 64 bits. -/
def normalizeSubnormal (aSig : UInt64) : Int × UInt64 :=
  let shiftCount := countLeadingZeros64 aSig - (63 - f.fractionBits)
  (1 - (shiftCount : Int), aSig <<< UInt64.ofNat shiftCount)

end BinaryFormat

/-- `float32_to_floatx80` and `float64_to_floatx80`, with the exceptions that are raised. -/
def floatToFloatx80 (f : BinaryFormat) (a : UInt64) : Floatx80 × UInt8 :=
  let aSig := f.frac a
  let aExp := f.exp a
  let aSign := f.sign a
  let number (aExp : Int) (aSig : UInt64) : Floatx80 × UInt8 :=
    (packFloatx80 aSign (aExp + f.widened).toNat
      ((aSig ||| (1 <<< UInt64.ofNat f.fractionBits)) <<< UInt64.ofNat (63 - f.fractionBits)), 0)
  if aExp = f.maxExponent then
    if aSig ≠ 0 then
      let nan := f.toCommonNaN a
      (commonNaNToFloatx80 nan.1, nan.2)
    else (packFloatx80 aSign 0x7fff 0x8000000000000000, 0)
  else if aExp = 0 then
    if aSig = 0 then (packFloatx80 aSign 0 0, 0)
    else number (f.normalizeSubnormal aSig).1 (f.normalizeSubnormal aSig).2
  else number aExp aSig

def float32ToFloatx80 (a : UInt32) : Floatx80 × UInt8 := floatToFloatx80 binary32 a.toUInt64

def float64ToFloatx80 (a : UInt64) : Floatx80 × UInt8 := floatToFloatx80 binary64 a

/-- `floatx80_to_float32` and `floatx80_to_float64`, with the exceptions that are raised. -/
def floatx80ToFloat (f : BinaryFormat) (mode : RoundingMode) (a : Floatx80) : UInt64 × UInt8 :=
  let aSig := a.low
  let aExp := a.exponent.toNat
  let aSign := a.negative
  if aExp = 0x7fff then
    if aSig <<< 1 ≠ 0 then
      let nan := floatx80ToCommonNaN a
      (f.ofCommonNaN nan.1, nan.2)
    else (f.pack aSign f.maxExponent 0, 0)
  else
    roundAndPack f mode aSign (if aExp ≠ 0 ∨ aSig ≠ 0 then (aExp : Int) - f.narrowed else aExp)
      (shift64RightJamming aSig f.excess)

def floatx80ToFloat32 (mode : RoundingMode) (a : Floatx80) : UInt64 × UInt8 :=
  floatx80ToFloat binary32 mode a

def floatx80ToFloat64 (mode : RoundingMode) (a : Floatx80) : UInt64 × UInt8 :=
  floatx80ToFloat binary64 mode a

/-! ## Stores -/

namespace BinaryFormat

/-- The numbers of the format are multiples of this power of two. -/
def lowest (f : BinaryFormat) : ℤ := (f.widened : ℤ) - f.fractionBits - 16382

/-- The size of a number of the format. -/
def size (f : BinaryFormat) (n : ℕ) : ℚ := magnitude f.fractionBits f.lowest n

theorem strictMono_size (f : BinaryFormat) : StrictMono f.size := strictMono_magnitude _ _

end BinaryFormat

section
variable {f : BinaryFormat} (hf : f.Sound) {x : Floatx80}
include hf

theorem dropped_eq : f.guardBits + f.excess = 63 - f.fractionBits := by
  have htop := hf.excess
  unfold BinaryFormat.topBit at htop
  omega

/-- A word of 64 bits among the numbers of one exponent. -/
theorem counted_of {v : ℚ} {m E k : ℕ} (hm : m < 2 ^ 64)
    (hk : E = 0 ∧ 63 - f.fractionBits ≤ k ∨ k = 63 - f.fractionBits ∧ 2 ^ 63 ≤ m)
    (hparts : v * (2 ^ k : ℕ) = m * 2 ^ (f.lowest + E)) :
    Counted f.size v (2 ^ (f.lowest + E)) (E * 2 ^ f.fractionBits) k m := by
  have htop := hf.topBit
  unfold BinaryFormat.topBit at htop
  have hq : m / 2 ^ k < 2 ^ (f.fractionBits + 1) := by
    rw [Nat.div_lt_iff_lt_mul (Nat.two_pow_pos k), ← Nat.pow_add]
    exact lt_of_lt_of_le hm (Nat.pow_le_pow_right Nat.two_pos (by omega))
  have hnorm : E = 0 ∨ 2 ^ f.fractionBits ≤ m / 2 ^ k := by
    refine hk.imp And.left fun h => ?_
    rw [Nat.le_div_iff_mul_le (Nat.two_pow_pos k), ← Nat.pow_add, h.1]
    exact le_trans (Nat.pow_le_pow_right Nat.two_pos (by omega)) h.2
  refine ⟨f.strictMono_size, ?_, two_zpow_pos _, ?_, ?_, hparts⟩
  · exact (Nat.even_pow.2 ⟨even_two, hf.fraction.ne'⟩).mul_left E
  · exact magnitude_segment hq.le hnorm
  · rw [Nat.add_assoc]
    refine (magnitude_segment hq (hnorm.imp_right fun h => Nat.le_succ_of_le h)).trans ?_
    unfold scaled
    rw [Nat.cast_succ]

/-- A number of the extended format among those of a smaller one. -/
theorem counted_store (hcan : x.Canonical) {zExp : ℤ}
    (hexp : zExp = if x.exponent.toNat ≠ 0 ∨ x.low ≠ 0 then (x.exponent.toNat : ℤ) - f.narrowed
      else x.exponent.toNat) :
    ∃ k u, Counted f.size |x.value| u (zExp.toNat * 2 ^ f.fractionBits) k x.low.toNat ∧
      (∀ d, roundShift d k x.low.toNat
        = roundShift d (f.guardBits + (-zExp).toNat + f.excess) x.low.toNat) ∧
      (x.low.toNat % 2 ^ k = 0
        ↔ x.low.toNat % 2 ^ (f.guardBits + (-zExp).toNat + f.excess) = 0) := by
  have hm := low_lt x
  have hdrop := dropped_eq hf
  have hnarrow := hf.narrowed
  have hwide := hf.widened
  have htop := hf.topBit
  unfold BinaryFormat.topBit at htop
  have hparts : ∀ {k E : ℕ}, x.scale + k = f.lowest + E →
      |x.value| * (2 ^ k : ℕ) = (x.low.toNat : ℚ) * 2 ^ (f.lowest + E) := by
    intro k E h
    rw [abs_value, scaled, mul_assoc, mul_comm ((2 : ℚ) ^ x.scale), natCast_two_pow, add_comm, h]
  unfold Floatx80.scale BinaryFormat.lowest at *
  rcases Nat.eq_zero_or_pos x.exponent.toNat with h0 | hpos
  · by_cases hlow : x.low = 0
    · -- zero
      rw [if_neg (by simp [h0, hlow]), h0] at hexp
      have hz : x.low.toNat = 0 := by rw [hlow]; rfl
      have hk : f.guardBits + (-zExp).toNat + f.excess = 63 - f.fractionBits := by
        rw [hexp]
        exact hdrop
      have hE : zExp.toNat = 0 := by rw [hexp]; rfl
      refine ⟨_, _, counted_of hf (k := 63 - f.fractionBits) hm (.inl ⟨hE, le_rfl⟩) ?_, ?_, ?_⟩
      · rw [abs_value, hz]
        unfold scaled
        rw [Nat.cast_zero, zero_mul, zero_mul, zero_mul]
      · rw [hk]
        exact fun _ => rfl
      · rw [hk]
    · -- a denormal number is far below the smallest one
      rw [if_pos (.inr hlow), h0] at hexp
      have hE : zExp.toNat = 0 := by omega
      have hk : f.guardBits + (-zExp).toNat + f.excess = 63 - f.fractionBits + f.narrowed := by omega
      have hbig : ∀ {i : ℕ}, 65 ≤ i → 2 * x.low.toNat < 2 ^ i := fun hi =>
        lt_of_lt_of_le (by omega) (Nat.pow_le_pow_right Nat.two_pos hi)
      have hsmall : ∀ {i : ℕ}, 65 ≤ i → (x.low.toNat % 2 ^ i = 0 ↔ x.low.toNat = 0) := fun hi => by
        have := hbig hi
        rw [Nat.mod_eq_of_lt (by omega)]
      refine ⟨63 - f.fractionBits + f.widened, _,
        counted_of hf hm (.inl ⟨hE, Nat.le_add_right _ _⟩) (hparts (by omega)), fun d => ?_, ?_⟩
      · rw [hk]
        exact roundShift_small (hbig (by omega)) (hbig (by omega))
      · rw [hk, hsmall (by omega), hsmall (by omega)]
  · rw [if_pos (.inl hpos.ne')] at hexp
    have hint : 2 ^ 63 ≤ x.low.toNat :=
      hcan.resolve_left fun h => hpos.ne' (exponent_eq_zero.1 h)
    refine ⟨_, _, counted_of hf (k := f.guardBits + (-zExp).toNat + f.excess) hm ?_
      (hparts (by omega)), fun _ => rfl, Iff.rfl⟩
    rcases lt_or_ge zExp 0 with hneg | hge
    · exact .inl ⟨by omega, by omega⟩
    · exact .inr ⟨by omega, hint⟩

/-- A number of the extended format is rounded to one of a smaller format, up to infinity. -/
theorem floatx80ToFloat_spec (mode : RoundingMode) (hfin : x.Finite) (hcan : x.Canonical) :
    ∃ n, Rounds (mode.direction x.negative) f.size |x.value| n ∧
      Packs f (mode.direction x.negative) x.negative n (f.size n = |x.value|)
        (floatx80ToFloat f mode x) := by
  have hm := low_lt x
  have hguard := hf.guard
  have hexcess := hf.excess
  have htop : 0 < f.topBit := Nat.succ_pos _
  obtain ⟨zExp, hexp⟩ : ∃ zExp : ℤ, zExp =
      if x.exponent.toNat ≠ 0 ∨ x.low ≠ 0 then (x.exponent.toNat : ℤ) - f.narrowed
      else x.exponent.toNat := ⟨_, rfl⟩
  obtain ⟨k, u, hcount, hshift, hmod⟩ := counted_store hf hcan hexp
  have hsig := toNat_shift64RightJamming x.low f.excess
  have hround : roundShift (mode.direction x.negative) f.guardBits
      (jam (-zExp).toNat (shift64RightJamming x.low f.excess).toNat)
        = roundShift (mode.direction x.negative) k x.low.toNat := by
    rw [hsig, roundShift_jam _ hguard, roundShift_jam _ (by omega), hshift]
  have hbits : jam (-zExp).toNat (shift64RightJamming x.low f.excess).toNat % 2 ^ f.guardBits = 0
      ↔ f.size (zExp.toNat * 2 ^ f.fractionBits
        + roundShift (mode.direction x.negative) k x.low.toNat) = |x.value| := by
    rw [hcount.exact_iff, hmod, hsig, jam_mod hguard, jam_mod (by omega)]
  refine ⟨_, hcount.rounds _, ?_⟩
  unfold floatx80ToFloat
  dsimp only
  rw [if_neg (Nat.ne_of_lt (finite_iff.1 hfin)), ← hexp]
  have hspec : Packs f (mode.direction x.negative) x.negative _ _
      (roundAndPack f mode x.negative zExp (shift64RightJamming x.low f.excess)) :=
    roundAndPack_spec hf ?_ ?_ (congrArg _ hround.symm)
  · rwa [← propext hbits]
  · rw [hsig]
    exact jam_lt htop (hexcess.symm ▸ hm)
  · -- only zero has no leading one at a positive exponent
    rcases lt_or_ge 0 zExp with hpos | hle
    · have hne : x.exponent ≠ 0 := by
        intro h
        rw [exponent_eq_zero.1 h] at hexp
        split_ifs at hexp <;> omega
      have hint := hcan.resolve_left hne
      have hdrop := dropped_eq hf
      have htop63 := hf.topBit
      unfold BinaryFormat.topBit at htop63
      right
      rw [hsig, jam]
      refine le_trans ?_ (Nat.le_add_right _ _)
      rw [Nat.le_div_iff_mul_le (Nat.two_pow_pos _), ← Nat.pow_add]
      exact le_trans (Nat.pow_le_pow_right Nat.two_pos (by omega)) hint
    · exact .inl hle

end

/-! ## The words of a number -/

section
variable {x : Floatx80}

theorem toNat_exponent (x : Floatx80) : x.exponent.toNat = x.high.toNat % 2 ^ 15 := by
  unfold Floatx80.exponent
  rw [UInt16.toNat_and]
  exact Nat.and_two_pow_sub_one_eq_mod _ 15

theorem negative_iff (x : Floatx80) : x.negative = true ↔ 2 ^ 15 ≤ x.high.toNat := by
  have hlt : x.high.toNat < 2 ^ 16 := x.high.toNat_lt
  have hand : (x.high &&& 0x8000).toNat = (x.high.toNat.testBit 15).toNat * 2 ^ 15 := by
    rw [UInt16.toNat_and]
    exact Nat.and_two_pow _ 15
  have hzero : x.high &&& 0x8000 ≠ 0 ↔ (x.high &&& 0x8000).toNat ≠ 0 :=
    not_congr (UInt16.toNat_inj (b := 0)).symm
  unfold Floatx80.negative
  rw [bne_iff_ne, hzero, hand, Nat.testBit_eq_decide_div_mod_eq]
  by_cases h : x.high.toNat / 2 ^ 15 % 2 = 1
  · rw [decide_eq_true h]
    exact iff_of_true (by decide) (by omega)
  · rw [decide_eq_false h]
    exact iff_of_false (by decide) (by omega)

theorem toNat_packed_high (s : Bool) {E : ℕ} (hE : E < 2 ^ 15) (sig : UInt64) :
    (packFloatx80 s E sig).high.toNat = s.toNat * 2 ^ 15 + E := by
  have hofNat : (UInt16.ofNat E).toNat = E := by
    rw [UInt16.toNat_ofNat', Nat.mod_eq_of_lt (by omega)]
  have hsign : (s.toUInt16 <<< 15 : UInt16).toNat = s.toNat * 2 ^ 15 := by
    cases s <;> rfl
  have hle := Bool.toNat_le s
  unfold packFloatx80
  rw [UInt16.toNat_add, hsign, hofNat, Nat.mod_eq_of_lt (by omega)]

theorem packed_exponent (s : Bool) {E : ℕ} (hE : E < 2 ^ 15) (sig : UInt64) :
    (packFloatx80 s E sig).exponent.toNat = E := by
  rw [toNat_exponent, toNat_packed_high s hE, Nat.mul_comm, Nat.mul_add_mod, Nat.mod_eq_of_lt hE]

theorem packed_negative (s : Bool) {E : ℕ} (hE : E < 2 ^ 15) (sig : UInt64) :
    (packFloatx80 s E sig).negative = s := by
  rw [Bool.eq_iff_iff, negative_iff, toNat_packed_high s hE]
  cases s
  · exact iff_of_false (by show ¬2 ^ 15 ≤ 0 * 2 ^ 15 + E; omega) Bool.false_ne_true
  · exact iff_of_true (by show 2 ^ 15 ≤ 1 * 2 ^ 15 + E; omega) rfl

end

/-! ## Leading zeros -/

theorem size_div_two_pow (n k : ℕ) : (n / 2 ^ k).size = n.size - k := by
  refine eq_of_forall_ge_iff fun m => ?_
  rw [Nat.size_le, Nat.div_lt_iff_lt_mul (Nat.two_pow_pos k), ← Nat.pow_add, ← Nat.size_le]
  omega

theorem size_mul_two_pow {n : ℕ} (hn : n ≠ 0) (k : ℕ) : (n * 2 ^ k).size = n.size + k := by
  rw [← Nat.shiftLeft_eq, Nat.size_shiftLeft hn]

theorem countLeadingZeros32_eq (a : UInt32) : countLeadingZeros32 a = 32 - a.toNat.size := by
  have hshift : ∀ {b : UInt32} {k : UInt32} {j : ℕ}, k.toNat % 32 = j → b.toNat * 2 ^ j < 2 ^ 32 →
      (b <<< k).toNat = b.toNat * 2 ^ j := by
    intro b k j hk hb
    rw [UInt32.toNat_shiftLeft, hk, Nat.shiftLeft_eq, Nat.mod_eq_of_lt hb]
  have hhigh : ∀ b : UInt32, countLeadingZerosHigh (b >>> 24) = 8 - (b.toNat.size - 24) := by
    intro b
    have hdiv : (b >>> 24).toNat = b.toNat / 2 ^ 24 := by
      rw [UInt32.toNat_shiftRight]
      exact Nat.shiftRight_eq_div_pow ..
    rw [countLeadingZerosHigh, hdiv, size_div_two_pow]
  rcases Nat.eq_zero_or_pos a.toNat with h0 | hpos
  · have ha : a = 0 := UInt32.toNat_inj.1 h0
    rw [ha]
    rfl
  have hsize : ∀ {j : ℕ}, a.toNat < 2 ^ j ↔ a.toNat.size ≤ j := Nat.size_le.symm
  have h32 := hsize.1 a.toNat_lt
  have hlt : ∀ {b c : UInt32}, b < c ↔ b.toNat < c.toNat := UInt32.lt_iff_toNat_lt
  unfold countLeadingZeros32
  dsimp only
  by_cases h16 : a < 0x10000
  · have ha16 : a.toNat < 2 ^ 16 := hlt.1 h16
    have hs16 := hsize.1 ha16
    have hfirst : (a <<< 16).toNat = a.toNat * 2 ^ 16 := hshift rfl (by omega)
    rw [if_pos h16]
    dsimp only
    by_cases h24 : a <<< 16 < 0x1000000
    · have ha24 : (a <<< 16).toNat < 2 ^ 24 := hlt.1 h24
      have ha8 : a.toNat < 2 ^ 8 := by omega
      have hs8 := hsize.1 ha8
      rw [if_pos h24, hhigh, hshift (j := 8) rfl (by omega), hfirst, size_mul_two_pow (by omega),
        size_mul_two_pow hpos.ne']
      omega
    · have ha24 : 2 ^ 24 ≤ (a <<< 16).toNat := Nat.not_lt.1 fun hlow => h24 (hlt.2 hlow)
      have hs8 : ¬a.toNat.size ≤ 8 := mt hsize.2 (by omega)
      rw [if_neg h24, hhigh, hfirst, size_mul_two_pow hpos.ne']
      omega
  · have ha16 : 2 ^ 16 ≤ a.toNat := Nat.not_lt.1 fun hlow => h16 (hlt.2 hlow)
    rw [if_neg h16]
    dsimp only
    by_cases h24 : a < 0x1000000
    · have ha24 : a.toNat < 2 ^ 24 := hlt.1 h24
      have hs24 := hsize.1 ha24
      have hs16 : ¬a.toNat.size ≤ 16 := mt hsize.2 (by omega)
      rw [if_pos h24, hhigh, hshift (j := 8) rfl (by omega), size_mul_two_pow hpos.ne']
      omega
    · have ha24 : 2 ^ 24 ≤ a.toNat := Nat.not_lt.1 fun hlow => h24 (hlt.2 hlow)
      have hs24 : ¬a.toNat.size ≤ 24 := mt hsize.2 (by omega)
      rw [if_neg h24, hhigh]
      dsimp only
      omega

theorem countLeadingZeros64_eq (a : UInt64) : countLeadingZeros64 a = 64 - a.toNat.size := by
  have hsize : ∀ {j : ℕ}, a.toNat < 2 ^ j ↔ a.toNat.size ≤ j := Nat.size_le.symm
  have ha64 := a.toNat_lt
  unfold countLeadingZeros64
  by_cases h : a < 0x100000000
  · have ha : a.toNat < 2 ^ 32 := UInt64.lt_iff_toNat_lt.1 h
    have hs := hsize.1 ha
    have hlow : a.toUInt32.toNat = a.toNat := by
      rw [UInt64.toNat_toUInt32, Nat.mod_eq_of_lt ha]
    rw [if_pos h, countLeadingZeros32_eq, hlow]
    omega
  · have ha : 2 ^ 32 ≤ a.toNat := Nat.not_lt.1 fun hlow => h (UInt64.lt_iff_toNat_lt.2 hlow)
    have hs : ¬a.toNat.size ≤ 32 := mt hsize.2 (by omega)
    have hhigh : (a >>> 32).toUInt32.toNat = a.toNat / 2 ^ 32 := by
      rw [UInt64.toNat_toUInt32, UInt64.toNat_shiftRight]
      show a.toNat >>> 32 % 2 ^ 32 = _
      rw [Nat.shiftRight_eq_div_pow, Nat.mod_eq_of_lt (by omega)]
    rw [if_neg h, countLeadingZeros32_eq, hhigh, size_div_two_pow]
    omega

/-! ## Loads -/

theorem two_pow_or {p r : ℕ} (h : r < 2 ^ p) : 2 ^ p ||| r = 2 ^ p + r := by
  have hsum := Nat.two_pow_add_eq_or_of_lt h 1
  rw [Nat.mul_one] at hsum
  exact hsum.symm

theorem toNat_or_two_pow {a : UInt64} {p : ℕ} (hp : p < 64) (ha : a.toNat < 2 ^ p) :
    (a ||| (1 <<< UInt64.ofNat p)).toNat = 2 ^ p + a.toNat := by
  rw [UInt64.toNat_or, toNat_shiftLeft_one hp, Nat.lor_comm, two_pow_or ha]

/-- The leading one is there already. -/
theorem toNat_or_two_pow_of_le {a : UInt64} {p : ℕ} (hp : p < 64) (hle : 2 ^ p ≤ a.toNat)
    (hlt : a.toNat < 2 ^ (p + 1)) : (a ||| (1 <<< UInt64.ofNat p)).toNat = a.toNat := by
  have hpow : 2 ^ (p + 1) = 2 * 2 ^ p := Nat.pow_succ'
  obtain ⟨r, hr⟩ : ∃ r, a.toNat = 2 ^ p + r := ⟨a.toNat - 2 ^ p, by omega⟩
  rw [UInt64.toNat_or, toNat_shiftLeft_one hp, hr, ← two_pow_or (by omega), Nat.lor_comm,
    ← Nat.lor_assoc, Nat.or_self]

section
variable {f : BinaryFormat} (hf : f.Sound) {a : UInt64}
include hf

theorem toNat_frac (a : UInt64) : (f.frac a).toNat = a.toNat % 2 ^ f.fractionBits := by
  have hsign := hf.sign
  have hexponent := hf.exponent
  have hle : (1 : UInt64) ≤ 1 <<< UInt64.ofNat f.fractionBits := by
    rw [UInt64.le_iff_toNat_le, toNat_shiftLeft_one (by omega)]
    exact Nat.one_le_two_pow
  rw [BinaryFormat.frac, UInt64.toNat_and, UInt64.toNat_sub_of_le _ _ hle,
    toNat_shiftLeft_one (by omega)]
  exact Nat.and_two_pow_sub_one_eq_mod ..

theorem toNat_exp (a : UInt64) :
    f.exp a = a.toNat / 2 ^ f.fractionBits % 2 ^ f.exponentBits := by
  have hsign := hf.sign
  have hexponent := hf.exponent
  have hmax : (UInt64.ofNat f.maxExponent).toNat = 2 ^ f.exponentBits - 1 := by
    have hle : 2 ^ f.exponentBits ≤ 2 ^ 63 := Nat.pow_le_pow_right Nat.two_pos (by omega)
    rw [UInt64.toNat_ofNat', BinaryFormat.maxExponent, Nat.mod_eq_of_lt (by omega)]
  rw [BinaryFormat.exp, UInt64.toNat_and, hmax, toNat_shiftRight_ofNat (by omega),
    Nat.and_two_pow_sub_one_eq_mod]

theorem sign_iff (a : UInt64) :
    f.sign a = true ↔ 2 ^ (f.exponentBits + f.fractionBits) ≤ a.toNat := by
  have hsign := hf.sign
  rw [BinaryFormat.sign, bne_iff_ne, ne_eq, ← UInt64.toNat_inj, toNat_shiftRight_ofNat (by omega)]
  show ¬_ = 0 ↔ _
  rw [Nat.div_eq_zero_iff_lt (Nat.two_pow_pos _), Nat.not_lt]

/-- The fields of a pattern. -/
theorem fields_eq (ha : a.toNat < 2 ^ (f.exponentBits + f.fractionBits + 1)) :
    a.toNat = (f.sign a).toNat * 2 ^ (f.exponentBits + f.fractionBits)
      + (f.exp a * 2 ^ f.fractionBits + (f.frac a).toNat) := by
  have hpow : 2 ^ (f.exponentBits + f.fractionBits) = 2 ^ f.exponentBits * 2 ^ f.fractionBits :=
    Nat.pow_add ..
  have hsplit := Nat.div_add_mod' a.toNat (2 ^ f.fractionBits)
  have hexp := Nat.div_add_mod' (a.toNat / 2 ^ f.fractionBits) (2 ^ f.exponentBits)
  rw [Nat.div_div_eq_div_mul, Nat.mul_comm (2 ^ f.fractionBits), ← hpow] at hexp
  have hquot : a.toNat / 2 ^ (f.exponentBits + f.fractionBits) = (f.sign a).toNat := by
    cases hs : f.sign a with
    | false =>
      have hlow := mt (sign_iff hf a).2 (Bool.eq_false_iff.1 hs)
      exact Nat.div_eq_of_lt (Nat.not_le.1 hlow)
    | true =>
      have hhigh := (sign_iff hf a).1 hs
      rw [Nat.pow_succ'] at ha
      exact Nat.div_eq_of_lt_le (by show 1 * _ ≤ _; omega) (by show _ < 2 * _; omega)
  rw [toNat_frac hf, toNat_exp hf]
  rw [hquot] at hexp
  rw [← hexp, Nat.add_mul, Nat.mul_assoc, ← hpow] at hsplit
  omega

/-- A significand with its leading one. -/
theorem number_spec {s : Bool} {sig : UInt64} {E m : ℕ} {zExp : ℤ} (hexp : E = (zExp + f.widened).toNat)
    (hE : 1 ≤ E ∧ E < 0x7fff)
    (hm : (sig ||| (1 <<< UInt64.ofNat f.fractionBits)).toNat = m)
    (hlead : 2 ^ f.fractionBits ≤ m ∧ m < 2 ^ (f.fractionBits + 1)) {x : Floatx80}
    (hx : x = packFloatx80 s (zExp + f.widened).toNat
      ((sig ||| (1 <<< UInt64.ofNat f.fractionBits)) <<< UInt64.ofNat (63 - f.fractionBits))) :
    x.negative = s ∧ x.Finite ∧ x.Canonical ∧
      |x.value| = scaled m (f.lowest + (E - f.widened : ℤ) - 1) := by
  have htop := hf.topBit
  unfold BinaryFormat.topBit at htop
  have hsmall : m * 2 ^ (63 - f.fractionBits) < 2 ^ 64 := by
    have hpow : 2 ^ 64 = 2 ^ (f.fractionBits + 1) * 2 ^ (63 - f.fractionBits) := by
      rw [← Nat.pow_add]
      congr 1
      omega
    rw [hpow]
    exact Nat.mul_lt_mul_of_pos_right hlead.2 (Nat.two_pow_pos _)
  have hlow : x.low.toNat = m * 2 ^ (63 - f.fractionBits) := by
    rw [hx]
    show (_ <<< _ : UInt64).toNat = _
    rw [toNat_shiftLeft_ofNat (by omega), hm, Nat.mod_eq_of_lt hsmall]
  rw [← hexp] at hx
  have hE15 : E < 2 ^ 15 := by omega
  have hexponent : x.exponent.toNat = E := by rw [hx, packed_exponent s hE15]
  refine ⟨by rw [hx, packed_negative s hE15], finite_iff.2 (by omega), .inr ?_, ?_⟩
  · have hpow : 2 ^ 63 = 2 ^ f.fractionBits * 2 ^ (63 - f.fractionBits) := by
      rw [← Nat.pow_add]
      congr 1
      omega
    rw [hlow, hpow]
    exact Nat.mul_le_mul_right _ hlead.1
  · have hscale : x.scale = E - 16446 := by
      unfold Floatx80.scale
      rw [hexponent, max_eq_left hE.1]
    rw [abs_value, hlow, hscale, scaled, scaled, Nat.cast_mul, mul_assoc, natCast_two_pow]
    unfold BinaryFormat.lowest
    congr 2
    omega

/-- A denormal significand is shifted until its leading one is there. -/
theorem normalizeSubnormal_spec {sig : UInt64} (h0 : sig ≠ 0) (hlt : sig.toNat < 2 ^ f.fractionBits) :
    ∃ shift ≤ f.fractionBits, (f.normalizeSubnormal sig).1 = 1 - (shift : ℤ) ∧
      (f.normalizeSubnormal sig).2.toNat = sig.toNat * 2 ^ shift ∧
      2 ^ f.fractionBits ≤ sig.toNat * 2 ^ shift ∧ sig.toNat * 2 ^ shift < 2 ^ (f.fractionBits + 1) := by
  have htop := hf.topBit
  unfold BinaryFormat.topBit at htop
  have hpos : 0 < sig.toNat := Nat.pos_of_ne_zero fun h => h0 (UInt64.toNat_inj.1 h)
  have hsize : sig.toNat.size ≤ f.fractionBits := Nat.size_le.2 hlt
  have hsize0 := Nat.size_pos.2 hpos
  have hcount := countLeadingZeros64_eq sig
  obtain ⟨shift, hshift⟩ : ∃ shift, countLeadingZeros64 sig - (63 - f.fractionBits) = shift := ⟨_, rfl⟩
  have hsum : sig.toNat.size + shift = f.fractionBits + 1 := by omega
  have hmul := size_mul_two_pow hpos.ne' shift
  have hhigh : sig.toNat * 2 ^ shift < 2 ^ (f.fractionBits + 1) := Nat.size_le.1 (by omega)
  refine ⟨shift, by omega, ?_, ?_, Nat.lt_size.1 (by omega), hhigh⟩
  · rw [BinaryFormat.normalizeSubnormal, hshift]
  · have hpow : 2 ^ (f.fractionBits + 1) ≤ 2 ^ 64 := Nat.pow_le_pow_right Nat.two_pos (by omega)
    rw [BinaryFormat.normalizeSubnormal, hshift]
    show (sig <<< UInt64.ofNat shift).toNat = _
    rw [toNat_shiftLeft_ofNat (by omega), Nat.mod_eq_of_lt (by omega)]

/-- A load is exact. -/
theorem floatToFloatx80_spec (hfin : f.exp a ≠ f.maxExponent) {x : Floatx80} {flags : UInt8}
    (hx : floatToFloatx80 f a = (x, flags)) :
    flags = 0 ∧ x.negative = f.sign a ∧ x.Finite ∧ x.Canonical ∧
      |x.value| = f.size (f.exp a * 2 ^ f.fractionBits + (f.frac a).toNat) := by
  have htop := hf.topBit
  have hwide := hf.widened
  have hrange := hf.range
  unfold BinaryFormat.topBit at htop
  have hpow : 2 ^ (f.fractionBits + 1) = 2 * 2 ^ f.fractionBits := Nat.pow_succ'
  have hfrac : (f.frac a).toNat < 2 ^ f.fractionBits := by
    rw [toNat_frac hf]
    exact Nat.mod_lt _ (Nat.two_pow_pos _)
  have hexp : f.exp a < f.maxExponent := by
    have hlt : f.exp a < 2 ^ f.exponentBits := by
      rw [toNat_exp hf]
      exact Nat.mod_lt _ (Nat.two_pow_pos _)
    unfold BinaryFormat.maxExponent at *
    omega
  have hmax : f.maxExponent < 2 ^ f.exponentBits :=
    Nat.sub_lt (Nat.two_pow_pos _) Nat.one_pos
  unfold floatToFloatx80 at hx
  dsimp only at hx
  rw [if_neg hfin] at hx
  by_cases h0 : f.exp a = 0
  · rw [if_pos h0] at hx
    rw [h0, Nat.zero_mul, Nat.zero_add]
    by_cases hsig : f.frac a = 0
    · -- zero
      rw [if_pos hsig, Prod.mk.injEq] at hx
      obtain ⟨rfl, rfl⟩ := hx
      refine ⟨rfl, packed_negative _ (by decide) _, ?_, ?_, ?_⟩
      · rw [finite_iff, packed_exponent _ (by decide)]
        decide
      · left
        rw [exponent_eq_zero, packed_exponent _ (by decide)]
      · have hfrac0 : (f.frac a).toNat = 0 := by
          rw [hsig]
          rfl
        have hseg := magnitude_segment (p := f.fractionBits) (e := f.lowest) (E := 0) (q := 0)
          (Nat.zero_le _) (.inl rfl)
        rw [Nat.zero_mul, Nat.zero_add] at hseg
        have hlow0 : (packFloatx80 (f.sign a) 0 0).low.toNat = 0 := rfl
        rw [abs_value, hfrac0, hlow0, BinaryFormat.size, hseg]
        unfold scaled
        rw [Nat.cast_zero, zero_mul, zero_mul]
    · rw [if_neg hsig, Prod.mk.injEq] at hx
      obtain ⟨hx, rfl⟩ := hx
      obtain ⟨shift, hle, hexpn, hsign, hlow, hhigh⟩ := normalizeSubnormal_spec hf hsig hfrac
      have hlead := toNat_or_two_pow_of_le (a := (f.normalizeSubnormal (f.frac a)).2)
        (p := f.fractionBits) (by omega) (by omega) (by omega)
      obtain ⟨hneg, hfinite, hcan, hvalue⟩ := number_spec hf rfl (by omega) hlead (by omega) hx.symm
      refine ⟨rfl, hneg, hfinite, hcan, ?_⟩
      have hseg := magnitude_segment (p := f.fractionBits) (e := f.lowest) (E := 0)
        (q := (f.frac a).toNat) (by omega) (.inl rfl)
      rw [Nat.zero_mul, Nat.zero_add] at hseg
      rw [hvalue, BinaryFormat.size, hseg, hsign, scaled, scaled, Nat.cast_mul, mul_assoc, natCast_two_pow,
        hexpn]
      congr 2
      omega
  · rw [if_neg h0, Prod.mk.injEq] at hx
    obtain ⟨hx, rfl⟩ := hx
    have hlead := toNat_or_two_pow (p := f.fractionBits) (by omega) hfrac
    obtain ⟨hneg, hfinite, hcan, hvalue⟩ := number_spec hf rfl (by omega) hlead
      (by omega) hx.symm
    refine ⟨rfl, hneg, hfinite, hcan, ?_⟩
    obtain ⟨E, hE⟩ : ∃ E, f.exp a = E + 1 := ⟨f.exp a - 1, by omega⟩
    have hseg := magnitude_segment (p := f.fractionBits) (e := f.lowest) (E := E)
      (q := 2 ^ f.fractionBits + (f.frac a).toNat) (by omega) (.inr (Nat.le_add_right _ _))
    have hsum : f.exp a * 2 ^ f.fractionBits + (f.frac a).toNat
        = E * 2 ^ f.fractionBits + (2 ^ f.fractionBits + (f.frac a).toNat) := by
      rw [hE, Nat.succ_mul, Nat.add_assoc]
    rw [hvalue, hsum, BinaryFormat.size, hseg]
    congr 1
    omega

end

/-! ## What was loaded is stored again -/

/-- The fraction of a NaN that comes through the extended format: its highest bit is set. -/
theorem toNat_payload {p : ℕ} (hp0 : 0 < p) (hp : p < 64) (a : UInt64) :
    ((((0xc000000000000000 : UInt64) ||| ((a <<< UInt64.ofNat (64 - p)) >>> 1)) <<< 1)
        >>> UInt64.ofNat (64 - p)).toNat = 2 ^ (p - 1) ||| a.toNat % 2 ^ p := by
  have hpow : 2 ^ 64 = 2 ^ p * 2 ^ (64 - p) := by rw [← Nat.pow_add, Nat.add_sub_cancel' hp.le]
  have hdouble : 2 ^ (64 - p) = 2 ^ (63 - p) * 2 := by
    rw [← Nat.pow_succ]
    congr 1
    omega
  have hleft : ((a <<< UInt64.ofNat (64 - p)) >>> 1).toNat = a.toNat % 2 ^ p * 2 ^ (63 - p) := by
    show (_ >>> UInt64.ofNat 1).toNat = _
    rw [toNat_shiftRight_ofNat (by decide), toNat_shiftLeft_ofNat (by omega), hpow, Nat.mul_mod_mul_right,
      hdouble, ← Nat.mul_assoc]
    exact Nat.mul_div_cancel _ Nat.two_pos
  have hsmall : a.toNat % 2 ^ p * 2 ^ (63 - p) < 2 ^ 63 := by
    have hmul : 2 ^ 63 = 2 ^ p * 2 ^ (63 - p) := by rw [← Nat.pow_add, Nat.add_sub_cancel' (by omega)]
    rw [hmul]
    exact Nat.mul_lt_mul_of_pos_right (Nat.mod_lt _ (Nat.two_pow_pos p)) (Nat.two_pow_pos _)
  have hor : 2 ^ 62 ||| a.toNat % 2 ^ p * 2 ^ (63 - p) < 2 ^ 63 :=
    Nat.or_lt_two_pow (by decide) hsmall
  have hset : ((0xc000000000000000 : UInt64) ||| ((a <<< UInt64.ofNat (64 - p)) >>> 1)).toNat
      = 2 ^ 63 + (2 ^ 62 ||| a.toNat % 2 ^ p * 2 ^ (63 - p)) := by
    have hconst : (0xc000000000000000 : UInt64).toNat = 2 ^ 63 ||| 2 ^ 62 := by decide
    rw [UInt64.toNat_or, hconst, hleft, Nat.lor_assoc, two_pow_or hor]
  show (((_ : UInt64) <<< UInt64.ofNat 1) >>> UInt64.ofNat (64 - p)).toNat = _
  rw [toNat_shiftRight_ofNat (by omega), toNat_shiftLeft_ofNat (by decide), hset]
  have hdrop : (2 ^ 63 + (2 ^ 62 ||| a.toNat % 2 ^ p * 2 ^ (63 - p))) * 2 ^ 1 % 2 ^ 64
      = (2 ^ 62 ||| a.toNat % 2 ^ p * 2 ^ (63 - p)) * 2 := by omega
  have htop : 2 ^ 62 / 2 ^ (63 - p) = 2 ^ (p - 1) := by
    rw [Nat.pow_div (by omega) Nat.two_pos]
    congr 1
    omega
  rw [hdrop, hdouble, Nat.mul_div_mul_right _ _ Nat.two_pos, Nat.or_div_two_pow, htop,
    Nat.mul_div_cancel _ (Nat.two_pow_pos _)]

namespace BinaryFormat

/-- A signalling NaN becomes a quiet one. -/
def quieted (f : BinaryFormat) (a : UInt64) : UInt64 :=
  if f.isSignalingNan a then a ||| (1 <<< UInt64.ofNat (f.fractionBits - 1)) else a

end BinaryFormat

section
variable {f : BinaryFormat} (hf : f.Sound) {a : UInt64}
include hf

/-- A signalling NaN is a NaN without the highest bit of the fraction. -/
theorem isSignalingNan_iff (a : UInt64) :
    f.isSignalingNan a = true ↔
      f.exp a = f.maxExponent ∧ (f.frac a).toNat < 2 ^ (f.fractionBits - 1) ∧ f.frac a ≠ 0 := by
  have hsign := hf.sign
  have hfraction := hf.fraction
  have hexponent := hf.exponent
  have hpow : 2 ^ f.fractionBits = 2 ^ (f.fractionBits - 1) * 2 := by
    rw [← Nat.pow_succ, Nat.succ_eq_add_one, Nat.sub_add_cancel hfraction]
  have hwide : 2 ^ (f.exponentBits + 1) = 2 * 2 ^ f.exponentBits := Nat.pow_succ'
  have hone : 2 ≤ 2 ^ f.exponentBits := Nat.le_self_pow hexponent.ne' 2
  have hle : 2 ^ (f.exponentBits + 1) ≤ 2 ^ 63 ∨ f.exponentBits = 63 := by
    rcases Nat.lt_or_ge f.exponentBits 63 with h | h
    · exact .inl (Nat.pow_le_pow_right Nat.two_pos h)
    · exact .inr (by omega)
  have hle : 2 ^ (f.exponentBits + 1) ≤ 2 ^ 63 := hle.resolve_right (by omega)
  have hmask : (UInt64.ofNat (2 ^ (f.exponentBits + 1) - 1)).toNat = 2 ^ (f.exponentBits + 1) - 1 := by
    rw [UInt64.toNat_ofNat', Nat.mod_eq_of_lt (by omega)]
  have hvalue : (UInt64.ofNat (2 ^ (f.exponentBits + 1) - 2)).toNat = 2 ^ (f.exponentBits + 1) - 2 := by
    rw [UInt64.toNat_ofNat', Nat.mod_eq_of_lt (by omega)]
  have hlow : (a &&& ((1 <<< UInt64.ofNat (f.fractionBits - 1)) - 1)).toNat
      = a.toNat % 2 ^ (f.fractionBits - 1) := by
    have hle1 : (1 : UInt64) ≤ 1 <<< UInt64.ofNat (f.fractionBits - 1) := by
      rw [UInt64.le_iff_toNat_le, toNat_shiftLeft_one (by omega)]
      exact Nat.one_le_two_pow
    rw [UInt64.toNat_and, UInt64.toNat_sub_of_le _ _ hle1, toNat_shiftLeft_one (by omega)]
    exact Nat.and_two_pow_sub_one_eq_mod ..
  have hfrac : f.frac a ≠ 0 ↔ (f.frac a).toNat ≠ 0 := not_congr (UInt64.toNat_inj (b := 0)).symm
  rw [BinaryFormat.isSignalingNan, Bool.and_eq_true, beq_iff_eq, bne_iff_ne, ne_eq, ← UInt64.toNat_inj,
    ← UInt64.toNat_inj, UInt64.toNat_and, hmask, hvalue, hlow, toNat_shiftRight_ofNat (by omega),
    Nat.and_two_pow_sub_one_eq_mod, hfrac, toNat_exp hf, toNat_frac hf, BinaryFormat.maxExponent, hpow,
    ← Nat.div_div_eq_div_mul, Nat.mod_mul, hwide, Nat.mod_mul]
  have hlt := Nat.mod_lt a.toNat (Nat.two_pow_pos (f.fractionBits - 1))
  have hbit := Nat.mod_two_eq_zero_or_one (a.toNat / 2 ^ (f.fractionBits - 1))
  show _ ∧ ¬_ = 0 ↔ _
  rcases hbit with hbit | hbit
  · rw [hbit, Nat.mul_zero, Nat.add_zero]
    omega
  · rw [hbit, Nat.mul_one]
    omega

omit hf in
theorem commonNaN_words (s : Bool) (high : UInt64) :
    (commonNaNToFloatx80 ⟨s, high⟩).negative = s ∧ (commonNaNToFloatx80 ⟨s, high⟩).exponent = 0x7fff := by
  unfold Floatx80.negative Floatx80.exponent commonNaNToFloatx80
  cases s <;> dsimp only <;> decide

omit hf in
/-- A NaN that was loaded is quiet. -/
theorem commonNaN_quiet (z : CommonNaN) :
    (commonNaNToFloatx80 z).low <<< 1 ≠ 0 ∧ floatx80IsSignalingNan (commonNaNToFloatx80 z) = false := by
  have hset : (commonNaNToFloatx80 z).low.toNat.testBit 62 = true := by
    unfold commonNaNToFloatx80
    have hconst : (0xc000000000000000 : UInt64).toNat.testBit 62 = true := by decide
    rw [UInt64.toNat_or, Nat.testBit_or, hconst, Bool.true_or]
  generalize commonNaNToFloatx80 z = x at hset ⊢
  constructor
  · intro h
    have hshift : (x.low <<< UInt64.ofNat 1).toNat = 0 := congrArg UInt64.toNat h
    rw [toNat_shiftLeft_ofNat (by decide)] at hshift
    rw [Nat.testBit_eq_decide_div_mod_eq, decide_eq_true_iff] at hset
    omega
  · have hclear : (~~~(0x4000000000000000 : UInt64)).toNat.testBit 62 = false := by decide
    have hne : x.low ≠ x.low &&& ~~~0x4000000000000000 := by
      intro h
      rw [h, UInt64.toNat_and, Nat.testBit_and, hclear, Bool.and_false] at hset
      exact Bool.false_ne_true hset
    unfold floatx80IsSignalingNan
    dsimp only
    rw [beq_false_of_ne hne, Bool.and_false]

/-- The pattern of a NaN after it was loaded and stored. -/
theorem store_load_nan (ha : a.toNat < 2 ^ (f.exponentBits + f.fractionBits + 1))
    (hexp : f.exp a = f.maxExponent) :
    (f.ofCommonNaN (floatx80ToCommonNaN (commonNaNToFloatx80 (f.toCommonNaN a).1)).1).toNat
      = a.toNat / 2 ^ f.fractionBits * 2 ^ f.fractionBits
        + (2 ^ (f.fractionBits - 1) ||| (f.frac a).toNat) := by
  have hsign := hf.sign
  have hfraction := hf.fraction
  have hexponent := hf.exponent
  have hfields := fields_eq hf ha
  have hpowsum : 2 ^ (f.exponentBits + f.fractionBits) = 2 ^ f.fractionBits * 2 ^ f.exponentBits := by
    rw [Nat.add_comm, Nat.pow_add]
  have hlead : 2 ^ (f.fractionBits - 1) < 2 ^ f.fractionBits :=
    Nat.pow_lt_pow_right (by decide) (by omega)
  have hfrac : (f.frac a).toNat < 2 ^ f.fractionBits := by
    rw [toNat_frac hf]
    exact Nat.mod_lt _ (Nat.two_pow_pos _)
  have hpayload : 2 ^ (f.fractionBits - 1) ||| (f.frac a).toNat < 2 ^ f.fractionBits :=
    Nat.or_lt_two_pow hlead hfrac
  have hquot : a.toNat / 2 ^ f.fractionBits = (f.sign a).toNat * 2 ^ f.exponentBits + f.maxExponent := by
    rw [hfields, hexp, hpowsum, Nat.mul_left_comm, ← Nat.add_assoc, Nat.mul_comm f.maxExponent, ← Nat.mul_add,
      Nat.mul_add_div (Nat.two_pow_pos _), Nat.div_eq_of_lt hfrac, Nat.add_zero]
  have hmaxlt : f.maxExponent < 2 ^ f.exponentBits := Nat.sub_lt (Nat.two_pow_pos _) Nat.one_pos
  have hmul : f.maxExponent * 2 ^ f.fractionBits + 2 ^ f.fractionBits ≤ 2 ^ (f.exponentBits + f.fractionBits) := by
    rw [hpowsum, Nat.mul_comm (2 ^ f.fractionBits), ← Nat.succ_mul]
    exact Nat.mul_le_mul_right _ hmaxlt
  have hword : 2 ^ (f.exponentBits + f.fractionBits) ≤ 2 ^ 63 := Nat.pow_le_pow_right Nat.two_pos hsign
  have hquiet : f.quietNaN.toNat = 2 ^ f.fractionBits * f.maxExponent ||| 2 ^ (f.fractionBits - 1) := by
    rw [BinaryFormat.quietNaN, UInt64.toNat_ofNat', Nat.mod_eq_of_lt (by omega),
      Nat.mul_comm f.maxExponent, Nat.two_pow_add_eq_or_of_lt hlead]
  have hsbit : ((f.sign a).toUInt64 <<< UInt64.ofNat (f.exponentBits + f.fractionBits)).toNat
      = 2 ^ (f.exponentBits + f.fractionBits) * (f.sign a).toNat := by
    rw [toNat_shiftLeft_ofNat (by omega), Nat.mul_comm]
    have hle := Nat.mul_le_mul_left (2 ^ (f.exponentBits + f.fractionBits)) (Bool.toNat_le (f.sign a))
    have hcast : (f.sign a).toUInt64.toNat = (f.sign a).toNat := by cases f.sign a <;> rfl
    rw [hcast, Nat.mod_eq_of_lt (by omega)]
  have hbelow : 2 ^ f.fractionBits * f.maxExponent + (2 ^ (f.fractionBits - 1) ||| (f.frac a).toNat)
      < 2 ^ (f.exponentBits + f.fractionBits) := by
    rw [Nat.mul_comm]
    omega
  have hwords := commonNaN_words (f.sign a) (a <<< UInt64.ofNat (64 - f.fractionBits))
  have hcommon : (floatx80ToCommonNaN (commonNaNToFloatx80 (f.toCommonNaN a).1)).1
      = ⟨f.sign a, ((0xc000000000000000 : UInt64)
          ||| ((a <<< UInt64.ofNat (64 - f.fractionBits)) >>> 1)) <<< 1⟩ :=
    congrArg (fun s => CommonNaN.mk s _) hwords.1
  have habsorb : (2 ^ (f.fractionBits - 1) : ℕ) ||| (2 ^ (f.fractionBits - 1) ||| (f.frac a).toNat)
      = 2 ^ (f.fractionBits - 1) ||| (f.frac a).toNat := by
    rw [← Nat.lor_assoc, Nat.or_self]
  rw [hcommon, BinaryFormat.ofCommonNaN, UInt64.toNat_or, UInt64.toNat_or, hsbit, hquiet,
    toNat_payload hfraction (by omega), ← toNat_frac hf, Nat.lor_assoc, Nat.lor_assoc, habsorb,
    ← Nat.two_pow_add_eq_or_of_lt hpayload, ← Nat.two_pow_add_eq_or_of_lt hbelow, hquot, hpowsum]
  ring

theorem quieted_nan (hexp : f.exp a = f.maxExponent) (hne : f.frac a ≠ 0) :
    (f.quieted a).toNat = a.toNat / 2 ^ f.fractionBits * 2 ^ f.fractionBits
      + (2 ^ (f.fractionBits - 1) ||| (f.frac a).toNat) := by
  have hsign := hf.sign
  have hfraction := hf.fraction
  have hexponent := hf.exponent
  have hlead : 2 ^ (f.fractionBits - 1) < 2 ^ f.fractionBits :=
    Nat.pow_lt_pow_right (by decide) (by omega)
  have hpow : 2 ^ f.fractionBits = 2 * 2 ^ (f.fractionBits - 1) := by
    rw [← Nat.pow_succ', Nat.succ_eq_add_one, Nat.sub_add_cancel hfraction]
  have hfrac : (f.frac a).toNat < 2 ^ f.fractionBits := by
    rw [toNat_frac hf]
    exact Nat.mod_lt _ (Nat.two_pow_pos _)
  have hsplit : a.toNat = a.toNat / 2 ^ f.fractionBits * 2 ^ f.fractionBits + (f.frac a).toNat := by
    rw [toNat_frac hf]
    exact (Nat.div_add_mod' ..).symm
  by_cases hbit : (f.frac a).toNat < 2 ^ (f.fractionBits - 1)
  · rw [BinaryFormat.quieted, if_pos ((isSignalingNan_iff hf a).2 ⟨hexp, hbit, hne⟩), UInt64.toNat_or,
      toNat_shiftLeft_one (by omega)]
    conv_lhs => rw [hsplit]
    rw [Nat.mul_comm, Nat.two_pow_add_eq_or_of_lt hfrac, Nat.lor_assoc, Nat.lor_comm (f.frac a).toNat,
      ← Nat.two_pow_add_eq_or_of_lt (Nat.or_lt_two_pow hlead hfrac)]
  · -- the bit is there already
    obtain ⟨r, hr⟩ : ∃ r, (f.frac a).toNat = 2 ^ (f.fractionBits - 1) + r :=
      ⟨(f.frac a).toNat - 2 ^ (f.fractionBits - 1), by omega⟩
    have hset : 2 ^ (f.fractionBits - 1) ||| (f.frac a).toNat = (f.frac a).toNat := by
      rw [hr, ← two_pow_or (by omega), ← Nat.lor_assoc, Nat.or_self]
    rw [BinaryFormat.quieted, if_neg fun h => hbit ((isSignalingNan_iff hf a).1 h).2.1, hset]
    exact hsplit

/-- What was loaded is stored as it was, whatever the mode. -/
theorem floatx80ToFloat_floatToFloatx80 (mode : RoundingMode)
    (ha : a.toNat < 2 ^ (f.exponentBits + f.fractionBits + 1)) :
    floatx80ToFloat f mode (floatToFloatx80 f a).1 = (f.quieted a, 0) := by
  have hfields := fields_eq hf ha
  have hfrac : (f.frac a).toNat < 2 ^ f.fractionBits := by
    rw [toNat_frac hf]
    exact Nat.mod_lt _ (Nat.two_pow_pos _)
  by_cases hexp : f.exp a = f.maxExponent
  · by_cases hne : f.frac a = 0
    · -- infinity
      have hquieted : f.quieted a = a := if_neg fun h => ((isSignalingNan_iff hf a).1 h).2.2 hne
      have hload : (floatToFloatx80 f a).1 = packFloatx80 (f.sign a) 0x7fff 0x8000000000000000 := by
        unfold floatToFloatx80
        dsimp only
        rw [if_pos hexp, if_neg (not_not.2 hne)]
      have hzero : (f.frac a).toNat = 0 := by rw [hne]; rfl
      rw [hexp, hzero] at hfields
      have hpattern : (f.pack (f.sign a) f.maxExponent 0).toNat = a.toNat :=
        Eq.trans (toNat_pack hf le_rfl) hfields.symm
      have hlow : (packFloatx80 (f.sign a) 0x7fff 0x8000000000000000).low <<< 1 = 0 :=
        show (0x8000000000000000 : UInt64) <<< 1 = 0 by decide
      rw [hload, hquieted, floatx80ToFloat]
      dsimp only
      rw [if_pos (packed_exponent _ (by decide) _), if_neg (not_not.2 hlow),
        packed_negative _ (by decide), UInt64.toNat_inj.1 hpattern]
    · have hload : (floatToFloatx80 f a).1 = commonNaNToFloatx80 (f.toCommonNaN a).1 := by
        unfold floatToFloatx80
        dsimp only
        rw [if_pos hexp, if_pos hne]
      obtain ⟨hlow, hsilent⟩ := commonNaN_quiet (f.toCommonNaN a).1
      have hexponent : (commonNaNToFloatx80 (f.toCommonNaN a).1).exponent.toNat = 0x7fff :=
        congrArg UInt16.toNat (commonNaN_words _ _).2
      have hpattern := (store_load_nan hf ha hexp).trans (quieted_nan hf hexp hne).symm
      rw [hload, floatx80ToFloat]
      dsimp only
      rw [if_pos hexponent, if_pos hlow, UInt64.toNat_inj.1 hpattern, floatx80ToCommonNaN]
      dsimp only
      rw [hsilent, if_neg Bool.false_ne_true]
  · obtain ⟨x, flags, hx⟩ : ∃ x flags, floatToFloatx80 f a = (x, flags) := ⟨_, _, rfl⟩
    obtain ⟨-, hneg, hfin, hcan, hvalue⟩ := floatToFloatx80_spec hf hexp hx
    obtain ⟨n, hround, hpacks⟩ := floatx80ToFloat_spec hf mode hfin hcan
    rw [hvalue] at hround
    have hn := hround.eq_of_value f.strictMono_size
    have hlt : n < f.infinity := by
      have hmax : f.exp a + 1 ≤ f.maxExponent := by
        have hltexp : f.exp a < 2 ^ f.exponentBits := by
          rw [toNat_exp hf]
          exact Nat.mod_lt _ (Nat.two_pow_pos _)
        unfold BinaryFormat.maxExponent at *
        omega
      have hmul := Nat.mul_le_mul_right (2 ^ f.fractionBits) hmax
      rw [Nat.succ_mul] at hmul
      show n < f.maxExponent * 2 ^ f.fractionBits
      omega
    have hquieted : f.quieted a = a := if_neg fun h => hexp ((isSignalingNan_iff hf a).1 h).1
    have hflags : (floatx80ToFloat f mode x).2 = 0 := by
      refine hpacks.raises.quiet (not_not.1 fun h => ?_)
      rcases hpacks.raises.inexact.1 h with hbig | hinexact
      · exact absurd hbig (Nat.not_le.2 hlt)
      · exact hinexact (by rw [hn, hvalue])
    have hpattern : (floatx80ToFloat f mode x).1.toNat = a.toNat := by
      rw [hpacks.pattern, saturated, if_neg (Nat.not_le.2 hlt), hneg, hn]
      exact hfields.symm
    rw [hx, hquieted]
    exact Prod.ext (UInt64.toNat_inj.1 hpattern) hflags

end

/-- The result of a store is the rounding of the number, and the exceptions tell how. -/
def StoresRounded (f : BinaryFormat) (mode : RoundingMode) (x : Floatx80) (z : UInt64 × UInt8) : Prop :=
  ∃ n, Rounds (mode.direction x.negative) f.size |x.value| n ∧
    Packs f (mode.direction x.negative) x.negative n (f.size n = |x.value|) z

/-- A number that is stored as a single or a double is rounded in the current mode. -/
theorem Floatx80.stores_rounded (mode : RoundingMode) (x : Floatx80) (hfin : x.Finite)
    (hcan : x.Canonical) :
    StoresRounded binary32 mode x (floatx80ToFloat32 mode x) ∧
      StoresRounded binary64 mode x (floatx80ToFloat64 mode x) :=
  ⟨floatx80ToFloat_spec sound_binary32 mode hfin hcan,
    floatx80ToFloat_spec sound_binary64 mode hfin hcan⟩

/-- Two thirds, rounded up. -/
theorem Floatx80.stores_rounded_two_thirds :
    StoresRounded binary32 .up ⟨0x3ffe, 0xaaaaaaaaaaaaaaab⟩
        (floatx80ToFloat32 .up ⟨0x3ffe, 0xaaaaaaaaaaaaaaab⟩) ∧
      StoresRounded binary64 .up ⟨0x3ffe, 0xaaaaaaaaaaaaaaab⟩
        (floatx80ToFloat64 .up ⟨0x3ffe, 0xaaaaaaaaaaaaaaab⟩) :=
  Floatx80.stores_rounded .up ⟨0x3ffe, 0xaaaaaaaaaaaaaaab⟩ (by decide) (.inr (by decide))

example : floatx80ToFloat64 .up ⟨0x3ffe, 0xaaaaaaaaaaaaaaab⟩ = (0x3fe5555555555556, 0x20) := by
  decide +kernel

/-- A single or a double that is loaded and stored again is the same, but for a NaN that is quiet
    afterwards; nothing is raised by the store. -/
theorem store_load (mode : RoundingMode) :
    (∀ a : UInt32, floatx80ToFloat32 mode (float32ToFloatx80 a).1 = (binary32.quieted a.toUInt64, 0)) ∧
      ∀ a : UInt64, floatx80ToFloat64 mode (float64ToFloatx80 a).1 = (binary64.quieted a, 0) := by
  constructor
  · intro a
    refine floatx80ToFloat_floatToFloatx80 sound_binary32 mode ?_
    rw [UInt32.toNat_toUInt64]
    exact a.toNat_lt
  · exact fun a => floatx80ToFloat_floatToFloatx80 sound_binary64 mode a.toNat_lt

end CuteMac.Fpu
