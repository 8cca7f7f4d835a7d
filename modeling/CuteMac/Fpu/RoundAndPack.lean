/-
  The rounding of singles and doubles (`softfloat.c`, `softfloat-macros`).

  * `RoundingMode`, `roundIncrement`: what is added before the low bits go;
  * `shift64RightJamming`: the shift that keeps what goes as one bit;
  * `roundAndPack`, `roundAndPackFloat32`, `roundAndPackFloat64`;
  * `roundAndPack_spec`: the pattern is the rounded significand at its exponent, up to infinity
    or the largest number, and the flags tell how.
-/
import CuteMac.Fpu.ExtendedNumber
import CuteMac.Lib.Rounding

namespace CuteMac.Fpu

open Rounding Scaled

/-- `float_rounding_mode`. -/
inductive RoundingMode where
  | nearestEven
  | toZero
  | down
  | up
  deriving DecidableEq, Repr

namespace RoundingMode

/-- The direction in which the size of a number goes. -/
def direction (mode : RoundingMode) (zSign : Bool) : Direction :=
  match mode with
  | nearestEven => .nearest
  | toZero => .towardZero
  | down => if zSign then .away else .towardZero
  | up => if zSign then .towardZero else .away

theorem direction_eq_nearest (mode : RoundingMode) (zSign : Bool) :
    mode.direction zSign = .nearest ↔ mode = .nearestEven := by
  cases mode <;> cases zSign <;> decide

end RoundingMode

/-- The constants of a format: the bits of its exponent and its fraction, the bits below the
    fraction that a significand has before it is rounded, one less than the largest exponent of a
    number, and what an exponent and a significand of the extended format differ by. -/
structure BinaryFormat where
  exponentBits : Nat
  fractionBits : Nat
  guardBits : Nat
  lastExponent : Int
  widened : Nat
  narrowed : Nat
  excess : Nat

def binary32 : BinaryFormat := ⟨8, 23, 7, 0xfd, 0x3f80, 0x3f81, 33⟩
def binary64 : BinaryFormat := ⟨11, 52, 10, 0x7fd, 0x3c00, 0x3c01, 1⟩

def floatFlagInvalid : UInt8 := 0x01
def floatFlagOverflow : UInt8 := 0x08
def floatFlagUnderflow : UInt8 := 0x10
def floatFlagInexact : UInt8 := 0x20

namespace BinaryFormat

variable (f : BinaryFormat)

/-- The bit of the significand above its leading one. -/
def topBit : Nat := f.fractionBits + f.guardBits + 1

def roundMask : UInt64 := (1 <<< UInt64.ofNat f.guardBits) - 1
def half : UInt64 := 1 <<< UInt64.ofNat (f.guardBits - 1)
def top : UInt64 := 1 <<< UInt64.ofNat f.topBit

def roundIncrement (mode : RoundingMode) (zSign : Bool) : UInt64 :=
  match mode with
  | .nearestEven => f.half
  | .toZero => 0
  | .up => if zSign then 0 else f.roundMask
  | .down => if zSign then f.roundMask else 0

/-- `packFloat32` and `packFloat64`: the fields are added, so that the leading one of the
    significand goes to the exponent. -/
def pack (zSign : Bool) (zExp : Nat) (zSig : UInt64) : UInt64 :=
  (zSign.toUInt64 <<< UInt64.ofNat (f.exponentBits + f.fractionBits))
    + (UInt64.ofNat zExp <<< UInt64.ofNat f.fractionBits) + zSig

end BinaryFormat

/-- `shift32RightJamming` does the same to numbers of 32 bits. -/
def shift64RightJamming (a : UInt64) (count : Nat) : UInt64 :=
  if count = 0 then a
  else if count < 64 then
    (a >>> UInt64.ofNat count) ||| (if a <<< UInt64.ofNat (64 - count) ≠ 0 then 1 else 0)
  else if a ≠ 0 then 1 else 0

/-- The end of `roundAndPackFloat32` and `roundAndPackFloat64`: the low bits go. -/
def packRounded (f : BinaryFormat) (mode : RoundingMode) (zSign : Bool) (zExp : Nat) (zSig : UInt64)
    (flags : UInt8) : UInt64 × UInt8 :=
  let roundBits := zSig &&& f.roundMask
  let flags := if roundBits ≠ 0 then flags ||| floatFlagInexact else flags
  let zSig := (zSig + f.roundIncrement mode zSign) >>> UInt64.ofNat f.guardBits
  let zSig := if roundBits = f.half ∧ mode = .nearestEven then zSig &&& ~~~1 else zSig
  (f.pack zSign (if zSig = 0 then 0 else zExp) zSig, flags)

/-- `roundAndPackFloat32` and `roundAndPackFloat64`, with the exceptions that are raised. -/
def roundAndPack (f : BinaryFormat) (mode : RoundingMode) (zSign : Bool) (zExp : Int)
    (zSig : UInt64) : UInt64 × UInt8 :=
  let roundIncrement := f.roundIncrement mode zSign
  if f.lastExponent < zExp ∨ zExp = f.lastExponent ∧ f.top ≤ zSig + roundIncrement then
    (f.pack zSign (f.lastExponent + 2).toNat 0 - (if roundIncrement = 0 then 1 else 0),
      floatFlagOverflow ||| floatFlagInexact)
  else if zExp < 0 then
    let isTiny := zExp < -1 ∨ zSig + roundIncrement < f.top
    let zSig := shift64RightJamming zSig (-zExp).toNat
    packRounded f mode zSign 0 zSig
      (if isTiny ∧ zSig &&& f.roundMask ≠ 0 then floatFlagUnderflow else 0)
  else packRounded f mode zSign zExp.toNat zSig 0

def roundAndPackFloat32 (mode : RoundingMode) (zSign : Bool) (zExp : Int) (zSig : UInt64) :
    UInt64 × UInt8 := roundAndPack binary32 mode zSign zExp zSig

def roundAndPackFloat64 (mode : RoundingMode) (zSign : Bool) (zExp : Int) (zSig : UInt64) :
    UInt64 × UInt8 := roundAndPack binary64 mode zSign zExp zSig

/-! ## Words -/

section
variable {f : BinaryFormat} {a b : UInt64} {k : Nat}

theorem toNat_shiftLeft_one (hk : k < 64) : ((1 : UInt64) <<< UInt64.ofNat k).toNat = 2 ^ k := by
  have hshift : (UInt64.ofNat k).toNat % 64 = k := by
    rw [UInt64.toNat_ofNat', Nat.mod_eq_of_lt (a := k) (by omega), Nat.mod_eq_of_lt hk]
  have hlt : 2 ^ k < 2 ^ 64 := Nat.pow_lt_pow_right (by decide) hk
  rw [UInt64.toNat_shiftLeft, hshift]
  show 1 <<< k % 2 ^ 64 = 2 ^ k
  rw [Nat.one_shiftLeft, Nat.mod_eq_of_lt hlt]

theorem toNat_shiftRight_ofNat (hk : k < 64) (a : UInt64) :
    (a >>> UInt64.ofNat k).toNat = a.toNat / 2 ^ k := by
  have hshift : (UInt64.ofNat k).toNat % 64 = k := by
    rw [UInt64.toNat_ofNat', Nat.mod_eq_of_lt (a := k) (by omega), Nat.mod_eq_of_lt hk]
  rw [UInt64.toNat_shiftRight, hshift, Nat.shiftRight_eq_div_pow]

theorem toNat_shiftLeft_ofNat (hk : k < 64) (a : UInt64) :
    (a <<< UInt64.ofNat k).toNat = a.toNat * 2 ^ k % 2 ^ 64 := by
  have hshift : (UInt64.ofNat k).toNat % 64 = k := by
    rw [UInt64.toNat_ofNat', Nat.mod_eq_of_lt (a := k) (by omega), Nat.mod_eq_of_lt hk]
  rw [UInt64.toNat_shiftLeft, hshift, Nat.shiftLeft_eq]

/-- The low bits are pushed out at the top when there are none. -/
theorem shiftLeft_eq_zero (hk0 : 0 < k) (hk : k < 64) (a : UInt64) :
    a <<< UInt64.ofNat (64 - k) = 0 ↔ a.toNat % 2 ^ k = 0 := by
  have hpow : 2 ^ 64 = 2 ^ k * 2 ^ (64 - k) := by rw [← Nat.pow_add, Nat.add_sub_cancel' hk.le]
  rw [← UInt64.toNat_inj, toNat_shiftLeft_ofNat (by omega), hpow, Nat.mul_mod_mul_right]
  show _ = 0 ↔ _
  rw [Nat.mul_eq_zero, or_iff_left (Nat.two_pow_pos _).ne']

theorem or_one (n : Nat) : n ||| 1 = n + (1 - n % 2) := by
  have hdiv : (n ||| 1) / 2 = n / 2 := by
    rw [Nat.or_div_two]
    exact Nat.or_zero _
  have hmod : (n ||| 1) % 2 = 1 := Nat.or_mod_two_eq_one.2 (.inr rfl)
  omega

/-- The lowest bit is cleared. -/
theorem toNat_and_not_one (a : UInt64) : (a &&& ~~~1).toNat = a.toNat - a.toNat % 2 := by
  have hmask : (~~~(1 : UInt64)).toNat = 2 * (2 ^ 63 - 1) := by decide
  have ha := a.toNat_lt
  have hdiv : (a.toNat &&& 2 * (2 ^ 63 - 1)) / 2 = a.toNat / 2 := by
    rw [Nat.and_div_two, Nat.mul_div_cancel_left _ Nat.two_pos, Nat.and_two_pow_sub_one_eq_mod,
      Nat.mod_eq_of_lt (by omega)]
  have hmod : (a.toNat &&& 2 * (2 ^ 63 - 1)) % 2 = 0 := by
    rw [← Nat.not_odd_iff, Nat.odd_iff, Nat.and_mod_two_eq_one]
    omega
  rw [UInt64.toNat_and, hmask]
  omega

theorem toNat_shift64RightJamming (a : UInt64) (count : Nat) :
    (shift64RightJamming a count).toNat = jam count a.toNat := by
  have ha := a.toNat_lt
  unfold shift64RightJamming jam
  by_cases h0 : count = 0
  · rw [if_pos h0, h0, Nat.pow_zero, Nat.div_one, Nat.mod_one, if_pos rfl, Nat.add_zero]
  rw [if_neg h0]
  by_cases h64 : count < 64
  · rw [if_pos h64, UInt64.toNat_or, toNat_shiftRight_ofNat h64]
    have hiff := shiftLeft_eq_zero (Nat.pos_of_ne_zero h0) h64 a
    by_cases hlow : a.toNat % 2 ^ count = 0
    · rw [if_neg (not_not.2 (hiff.2 hlow)), if_pos hlow]
      exact Nat.or_zero _
    · rw [if_pos (mt hiff.1 hlow), if_neg hlow]
      exact or_one _
  · have hle : 2 ^ 64 ≤ 2 ^ count := Nat.pow_le_pow_right (by decide) (Nat.not_lt.1 h64)
    rw [if_neg h64, Nat.div_eq_of_lt (by omega), Nat.mod_eq_of_lt (by omega)]
    by_cases hz : a = 0
    · rw [if_neg (not_not.2 hz), hz]
      rfl
    · have hne : a.toNat ≠ 0 := fun h => hz (UInt64.toNat_inj.1 h)
      rw [if_pos hz, if_neg hne]
      rfl

end

/-! ## Rounding -/

/-- What holds of the formats of both sizes. -/
structure BinaryFormat.Sound (f : BinaryFormat) : Prop where
  guard : 2 ≤ f.guardBits
  topBit : f.topBit ≤ 63
  sign : f.exponentBits + f.fractionBits ≤ 63
  fraction : 0 < f.fractionBits
  exponent : 0 < f.exponentBits
  last : 0 < f.lastExponent
  widened : 64 < f.widened
  range : f.widened + 2 ^ f.exponentBits ≤ 0x7fff
  narrowed : f.narrowed = f.widened + 1
  excess : f.excess + f.topBit = 64
  infinity : f.lastExponent + 2 = 2 ^ f.exponentBits - 1

theorem sound_binary32 : binary32.Sound :=
  ⟨by decide, by decide, by decide, by decide, by decide, by decide, by decide, by decide,
    by decide, by decide, by decide⟩

theorem sound_binary64 : binary64.Sound :=
  ⟨by decide, by decide, by decide, by decide, by decide, by decide, by decide, by decide,
    by decide, by decide, by decide⟩

section
variable {f : BinaryFormat} (hf : f.Sound) {mode : RoundingMode} {zSign : Bool} {zSig : UInt64}
include hf

theorem toNat_roundMask : f.roundMask.toNat = 2 ^ f.guardBits - 1 := by
  have hg : f.guardBits < 64 := by
    have := hf.topBit
    unfold BinaryFormat.topBit at this
    omega
  have hle : (1 : UInt64) ≤ 1 <<< UInt64.ofNat f.guardBits := by
    rw [UInt64.le_iff_toNat_le, toNat_shiftLeft_one hg]
    exact Nat.one_le_two_pow
  rw [BinaryFormat.roundMask, UInt64.toNat_sub_of_le _ _ hle, toNat_shiftLeft_one hg]
  rfl

theorem toNat_half : f.half.toNat = 2 ^ (f.guardBits - 1) := by
  have := hf.topBit
  unfold BinaryFormat.topBit at this
  exact toNat_shiftLeft_one (by omega)

theorem toNat_top : f.top.toNat = 2 ^ f.topBit := toNat_shiftLeft_one (Nat.lt_succ_of_le hf.topBit)

theorem toNat_roundBits (zSig : UInt64) :
    (zSig &&& f.roundMask).toNat = zSig.toNat % 2 ^ f.guardBits := by
  rw [UInt64.toNat_and, toNat_roundMask hf, Nat.and_two_pow_sub_one_eq_mod]

/-- What is added before the low bits go. -/
theorem toNat_roundIncrement (mode : RoundingMode) (zSign : Bool) :
    (f.roundIncrement mode zSign).toNat =
      match mode.direction zSign with
      | .nearest => 2 ^ (f.guardBits - 1)
      | .towardZero => 0
      | .away => 2 ^ f.guardBits - 1 := by
  cases mode with
  | nearestEven => exact toNat_half hf
  | toZero => rfl
  | down =>
    cases zSign
    · rfl
    · exact toNat_roundMask hf
  | up =>
    cases zSign
    · exact toNat_roundMask hf
    · rfl

/-- What is added does not carry out of the word. -/
theorem toNat_add_roundIncrement (hs : zSig.toNat < 2 ^ 63) (mode : RoundingMode) (zSign : Bool) :
    (zSig + f.roundIncrement mode zSign).toNat
      = zSig.toNat + (f.roundIncrement mode zSign).toNat := by
  have hg : f.guardBits ≤ 63 := by
    have := hf.topBit
    unfold BinaryFormat.topBit at this
    omega
  have hmask : 2 ^ f.guardBits ≤ 2 ^ 63 := Nat.pow_le_pow_right (by decide) hg
  have hhalf : 2 ^ (f.guardBits - 1) ≤ 2 ^ 63 := Nat.pow_le_pow_right (by decide) (by omega)
  have hpos := Nat.two_pow_pos f.guardBits
  have hinc : (f.roundIncrement mode zSign).toNat ≤ 2 ^ 63 := by
    rw [toNat_roundIncrement hf]
    cases mode.direction zSign
    · exact hhalf
    · exact Nat.zero_le _
    · show 2 ^ f.guardBits - 1 ≤ 2 ^ 63
      omega
  rw [UInt64.toNat_add, Nat.mod_eq_of_lt (by omega)]

theorem lt_of_topBit (hs : zSig.toNat < 2 ^ f.topBit) : zSig.toNat < 2 ^ 63 :=
  lt_of_lt_of_le hs (Nat.pow_le_pow_right Nat.two_pos hf.topBit)

/-- The significand without its low bits. -/
theorem toNat_rounded (hs : zSig.toNat < 2 ^ 63) (mode : RoundingMode) (zSign : Bool) :
    (if zSig &&& f.roundMask = f.half ∧ mode = .nearestEven then
        ((zSig + f.roundIncrement mode zSign) >>> UInt64.ofNat f.guardBits) &&& ~~~1
      else (zSig + f.roundIncrement mode zSign) >>> UInt64.ofNat f.guardBits).toNat
      = roundShift (mode.direction zSign) f.guardBits zSig.toNat := by
  have hg : f.guardBits < 64 := by
    have := hf.topBit
    unfold BinaryFormat.topBit at this
    omega
  have hg2 := hf.guard
  have htie : zSig &&& f.roundMask = f.half ↔
      zSig.toNat % 2 ^ f.guardBits = 2 ^ (f.guardBits - 1) := by
    rw [← UInt64.toNat_inj, toNat_roundBits hf, toNat_half hf]
  have hsum := toNat_add_roundIncrement hf hs mode zSign
  rw [toNat_roundIncrement hf] at hsum
  have hdir := mode.direction_eq_nearest zSign
  by_cases hmode : mode = .nearestEven
  · rw [hdir.2 hmode] at hsum ⊢
    rw [roundShift_nearest (by omega)]
    by_cases hmid : zSig.toNat % 2 ^ f.guardBits = 2 ^ (f.guardBits - 1)
    · rw [if_pos ⟨htie.2 hmid, hmode⟩, if_pos hmid, toNat_and_not_one, toNat_shiftRight_ofNat hg, hsum]
    · rw [if_neg (fun h => hmid (htie.1 h.1)), if_neg hmid, toNat_shiftRight_ofNat hg, hsum, Nat.sub_zero]
  · rw [if_neg (fun h => hmode h.2), toNat_shiftRight_ofNat hg, hsum]
    cases hd : mode.direction zSign with
    | nearest => exact absurd (hdir.1 hd) hmode
    | towardZero => rw [roundShift_towardZero]; rfl
    | away => exact (roundShift_away ..).symm

/-- The pattern of infinity. -/
def BinaryFormat.infinity (f : BinaryFormat) : Nat := (2 ^ f.exponentBits - 1) * 2 ^ f.fractionBits

theorem toNat_pack {zExp : Nat} (h : zExp * 2 ^ f.fractionBits + zSig.toNat ≤ f.infinity) :
    (f.pack zSign zExp zSig).toNat
      = zSign.toNat * 2 ^ (f.exponentBits + f.fractionBits) + (zExp * 2 ^ f.fractionBits + zSig.toNat) := by
  have hwidth := hf.sign
  have hsign : (zSign.toUInt64 <<< UInt64.ofNat (f.exponentBits + f.fractionBits)).toNat
      = zSign.toNat * 2 ^ (f.exponentBits + f.fractionBits) := by
    have hlt : 2 ^ (f.exponentBits + f.fractionBits) < 2 ^ 64 :=
      Nat.pow_lt_pow_right (by decide) (by omega)
    rw [toNat_shiftLeft_ofNat (by omega)]
    cases zSign
    · show 0 * _ % 2 ^ 64 = 0 * _
      rw [Nat.zero_mul, Nat.zero_mod]
    · show 1 * _ % 2 ^ 64 = 1 * _
      rw [Nat.one_mul, Nat.mod_eq_of_lt hlt]
  have hle : f.infinity + 2 ^ f.fractionBits = 2 ^ (f.exponentBits + f.fractionBits) := by
    have hone : 1 ≤ 2 ^ f.exponentBits := Nat.one_le_two_pow
    rw [BinaryFormat.infinity, Nat.pow_add, Nat.sub_mul, Nat.one_mul, Nat.sub_add_cancel]
    exact Nat.le_mul_of_pos_left _ hone
  have hpow : 2 ^ (f.exponentBits + f.fractionBits) ≤ 2 ^ 63 := Nat.pow_le_pow_right (by decide) hwidth
  have hpos := Nat.two_pow_pos f.fractionBits
  have hexp : (UInt64.ofNat zExp <<< UInt64.ofNat f.fractionBits).toNat = zExp * 2 ^ f.fractionBits := by
    have hz : zExp ≤ zExp * 2 ^ f.fractionBits := Nat.le_mul_of_pos_right _ hpos
    rw [toNat_shiftLeft_ofNat (by omega), UInt64.toNat_ofNat', Nat.mod_eq_of_lt (a := zExp) (by omega),
      Nat.mod_eq_of_lt (by omega)]
  have hsle : zSign.toNat * 2 ^ (f.exponentBits + f.fractionBits) ≤ 2 ^ (f.exponentBits + f.fractionBits) :=
    (Nat.mul_le_mul_right _ (Bool.toNat_le zSign)).trans_eq (Nat.one_mul _)
  rw [BinaryFormat.pack, UInt64.toNat_add, UInt64.toNat_add, hsign, hexp]
  rw [Nat.mod_eq_of_lt (a := _ + zExp * 2 ^ f.fractionBits) (by omega), Nat.mod_eq_of_lt (by omega),
    Nat.add_assoc]

omit hf in
/-- A rounded pattern from infinity on is infinity, or the number before it. -/
def saturated (d : Direction) (infinity n : Nat) : Nat :=
  if infinity ≤ n then if d = .towardZero then infinity - 1 else infinity else n

theorem roundIncrement_eq_zero (mode : RoundingMode) (zSign : Bool) :
    f.roundIncrement mode zSign = 0 ↔ mode.direction zSign = .towardZero := by
  have hg := hf.guard
  have hhalf := Nat.two_pow_pos (f.guardBits - 1)
  have hmask : 2 ^ 2 ≤ 2 ^ f.guardBits := Nat.pow_le_pow_right (by decide) hg
  have hinc := toNat_roundIncrement hf mode zSign
  rw [← UInt64.toNat_inj, hinc]
  cases mode.direction zSign
  · exact iff_of_false hhalf.ne' nofun
  · exact iff_of_true rfl rfl
  · exact iff_of_false (show 2 ^ f.guardBits - 1 ≠ 0 by omega) nofun

/-- The significand carries into the next exponent. -/
theorem top_le_iff (hs : zSig.toNat < 2 ^ f.topBit) (mode : RoundingMode) (zSign : Bool) :
    f.top ≤ zSig + f.roundIncrement mode zSign ↔
      2 ^ (f.fractionBits + 1) ≤ roundShift (mode.direction zSign) f.guardBits zSig.toNat := by
  have hg := hf.guard
  have hsplit : 2 ^ f.topBit = 2 ^ (f.fractionBits + 1) * 2 ^ f.guardBits := by
    rw [← Nat.pow_add]
    congr 1
    unfold BinaryFormat.topBit
    omega
  have heven : 2 ^ (f.fractionBits + 1) % 2 = 0 := by rw [Nat.pow_succ, Nat.mul_mod_left]
  rw [UInt64.le_iff_toNat_le, toNat_top hf, toNat_add_roundIncrement hf (lt_of_topBit hf hs), toNat_roundIncrement hf, hsplit,
    ← Nat.le_div_iff_mul_le (Nat.two_pow_pos _)]
  cases mode.direction zSign with
  | nearest =>
    rw [roundShift_nearest (by omega)]
    show 2 ^ (f.fractionBits + 1) ≤ (zSig.toNat + 2 ^ (f.guardBits - 1)) / 2 ^ f.guardBits ↔ _
    generalize (zSig.toNat + 2 ^ (f.guardBits - 1)) / 2 ^ f.guardBits = q
    split_ifs <;> omega
  | towardZero => exact Iff.rfl
  | away =>
    rw [roundShift_away]

omit hf in
theorem roundShift_le {d : Direction} {n : Nat} (hn : n < 2 ^ f.topBit) :
    roundShift d f.guardBits n ≤ 2 ^ (f.fractionBits + 1) := by
  have hsplit : 2 ^ f.topBit = 2 ^ (f.fractionBits + 1) * 2 ^ f.guardBits := by
    rw [← Nat.pow_add]
    congr 1
    unfold BinaryFormat.topBit
    omega
  have hq : n / 2 ^ f.guardBits < 2 ^ (f.fractionBits + 1) := by
    rw [Nat.div_lt_iff_lt_mul (Nat.two_pow_pos _), ← hsplit]
    exact hn
  have hup : (roundsUp d f.guardBits n).toNat ≤ 1 := Bool.toNat_le _
  unfold roundShift
  omega

/-- The pattern and the flags. -/
theorem packRounded_spec {zExp : Nat} {flags : UInt8} (hs : zSig.toNat < 2 ^ f.topBit)
    (hfits : zExp * 2 ^ f.fractionBits + roundShift (mode.direction zSign) f.guardBits zSig.toNat
      < f.infinity) (hzero : zExp = 0 ∨ 2 ^ (f.fractionBits + f.guardBits) ≤ zSig.toNat) :
    (packRounded f mode zSign zExp zSig flags).1.toNat
        = zSign.toNat * 2 ^ (f.exponentBits + f.fractionBits)
          + (zExp * 2 ^ f.fractionBits + roundShift (mode.direction zSign) f.guardBits zSig.toNat) ∧
      (packRounded f mode zSign zExp zSig flags).2
        = if zSig.toNat % 2 ^ f.guardBits ≠ 0 then flags ||| floatFlagInexact else flags := by
  have hrounded := toNat_rounded hf (lt_of_topBit hf hs) mode zSign
  have hbits : (zSig &&& f.roundMask ≠ 0) ↔ zSig.toNat % 2 ^ f.guardBits ≠ 0 := by
    rw [← toNat_roundBits hf, ne_eq, ← UInt64.toNat_inj]
    rfl
  unfold packRounded
  dsimp only
  generalize (if zSig &&& f.roundMask = f.half ∧ mode = .nearestEven then
    ((zSig + f.roundIncrement mode zSign) >>> UInt64.ofNat f.guardBits) &&& ~~~1
    else (zSig + f.roundIncrement mode zSign) >>> UInt64.ofNat f.guardBits) = r at hrounded ⊢
  have hexp : (if r = 0 then 0 else zExp) = zExp := by
    rcases hzero with h0 | hbig
    · rw [h0, ite_self]
    · refine if_neg fun hr => ?_
      -- a normalized significand is not rounded to zero
      have hq : 2 ^ f.fractionBits ≤ zSig.toNat / 2 ^ f.guardBits := by
        rw [Nat.le_div_iff_mul_le (Nat.two_pow_pos _), ← Nat.pow_add]
        exact hbig
      have hpos := Nat.two_pow_pos f.fractionBits
      rw [hr] at hrounded
      unfold roundShift at hrounded
      have hr0 : (0 : UInt64).toNat = 0 := rfl
      omega
  constructor
  · rw [hexp, toNat_pack hf (by omega), hrounded]
  · by_cases h : zSig.toNat % 2 ^ f.guardBits = 0
    · rw [if_neg (not_not.2 h), if_neg (mt hbits.1 (not_not.2 h))]
    · rw [if_pos h, if_pos (hbits.2 h)]

/-- Infinity is two exponents above the last one that is compared. -/
theorem infinity_eq :
    f.infinity = f.lastExponent.toNat * 2 ^ f.fractionBits + 2 ^ (f.fractionBits + 1) := by
  have hinf := hf.infinity
  have hlast := hf.last
  have hpow : 2 ^ f.exponentBits - 1 = f.lastExponent.toNat + 2 := by
    have hcast : ((2 ^ f.exponentBits : Nat) : Int) = 2 ^ f.exponentBits := Nat.cast_pow ..
    omega
  rw [BinaryFormat.infinity, hpow, Nat.add_mul, ← Nat.pow_succ']

/-- The pattern of a number that is too large. -/
theorem toNat_overflowed (mode : RoundingMode) (zSign : Bool) {n : Nat} (hn : f.infinity ≤ n) :
    (f.pack zSign (f.lastExponent + 2).toNat 0
        - (if f.roundIncrement mode zSign = 0 then 1 else 0)).toNat
      = zSign.toNat * 2 ^ (f.exponentBits + f.fractionBits)
        + saturated (mode.direction zSign) f.infinity n := by
  have hlast := hf.last
  have hinf := infinity_eq hf
  have hexp : (f.lastExponent + 2).toNat = f.lastExponent.toNat + 2 := by omega
  have hfields : (f.lastExponent + 2).toNat * 2 ^ f.fractionBits + (0 : UInt64).toNat = f.infinity := by
    rw [hexp, hinf, Nat.add_mul, Nat.pow_succ']
    rfl
  have hpack : (f.pack zSign (f.lastExponent + 2).toNat 0).toNat = _ := toNat_pack hf hfields.le
  have hpos := Nat.two_pow_pos (f.fractionBits + 1)
  rw [hfields] at hpack
  rw [saturated, if_pos hn]
  by_cases hinc : f.roundIncrement mode zSign = 0
  · have hle : (1 : UInt64) ≤ f.pack zSign (f.lastExponent + 2).toNat 0 := by
      rw [UInt64.le_iff_toNat_le, hpack]
      show 1 ≤ _
      omega
    rw [if_pos hinc, if_pos ((roundIncrement_eq_zero hf mode zSign).1 hinc),
      UInt64.toNat_sub_of_le _ _ hle, hpack]
    show _ - 1 = _
    omega
  · rw [if_neg hinc, if_neg (mt (roundIncrement_eq_zero hf mode zSign).2 hinc), UInt64.sub_zero, hpack]

omit hf in
/-- The exceptions that are raised for a number that was rounded to the pattern `n`. -/
structure Raises (infinity n : Nat) (exact : Prop) (flags : UInt8) : Prop where
  overflow : flags &&& floatFlagOverflow ≠ 0 ↔ infinity ≤ n
  inexact : flags &&& floatFlagInexact ≠ 0 ↔ infinity ≤ n ∨ ¬exact
  quiet : flags &&& floatFlagInexact = 0 → flags = 0

omit hf in
theorem Raises.overflowed {infinity n : Nat} {exact : Prop} (h : infinity ≤ n) :
    Raises infinity n exact (floatFlagOverflow ||| floatFlagInexact) := by
  have hraised : (floatFlagOverflow ||| floatFlagInexact) &&& floatFlagOverflow ≠ 0 ∧
      (floatFlagOverflow ||| floatFlagInexact) &&& floatFlagInexact ≠ 0 := by
    decide
  exact ⟨iff_of_true hraised.1 h, iff_of_true hraised.2 (.inl h), fun h => absurd h hraised.2⟩

omit hf in
/-- Underflow comes with a loss only. -/
theorem Raises.inRange {infinity n : Nat} {exact : Prop} [Decidable exact] {u : UInt8}
    (h : n < infinity) (hu : u = 0 ∨ u = floatFlagUnderflow ∧ ¬exact) :
    Raises infinity n exact (if exact then u else u ||| floatFlagInexact) := by
  have hle := Nat.not_le.2 h
  by_cases hexact : exact
  · rw [if_pos hexact, hu.resolve_right fun h => h.2 hexact]
    exact ⟨iff_of_false (not_not.2 rfl) hle,
      iff_of_false (not_not.2 rfl) fun h => h.elim hle fun h => h hexact, fun _ => rfl⟩
  · rw [if_neg hexact]
    rcases hu with rfl | ⟨rfl, -⟩
    · exact ⟨iff_of_false (by decide) hle, iff_of_true (by decide) (.inr hexact), by decide⟩
    · exact ⟨iff_of_false (by decide) hle, iff_of_true (by decide) (.inr hexact), by decide⟩

omit hf in
/-- A packed result: the pattern `n`, up to infinity or the largest number, and the exceptions. -/
structure Packs (f : BinaryFormat) (d : Direction) (zSign : Bool) (n : Nat) (exact : Prop)
    (z : UInt64 × UInt8) : Prop where
  pattern : z.1.toNat
    = zSign.toNat * 2 ^ (f.exponentBits + f.fractionBits) + saturated d f.infinity n
  raises : Raises f.infinity n exact z.2

/-- The significand is normalized, or the number is so small that it need not be. -/
theorem roundAndPack_spec {zExp : Int} (hs : zSig.toNat < 2 ^ f.topBit)
    (hzero : zExp ≤ 0 ∨ 2 ^ (f.fractionBits + f.guardBits) ≤ zSig.toNat) {n : Nat}
    (hn : n = zExp.toNat * 2 ^ f.fractionBits
      + roundShift (mode.direction zSign) f.guardBits (jam (-zExp).toNat zSig.toNat)) :
    Packs f (mode.direction zSign) zSign n (jam (-zExp).toNat zSig.toNat % 2 ^ f.guardBits = 0)
      (roundAndPack f mode zSign zExp zSig) := by
  have hlast := hf.last
  have hinf := infinity_eq hf
  have hpow : 2 ^ (f.fractionBits + 1) = 2 * 2 ^ f.fractionBits := Nat.pow_succ'
  have hpos := Nat.two_pow_pos f.fractionBits
  -- what the end of both paths gives for a number that is small enough
  have hpacked : ∀ {E : Nat} {sig : UInt64} {u : UInt8},
      (u = 0 ∨ u = floatFlagUnderflow ∧ sig.toNat % 2 ^ f.guardBits ≠ 0) →
      sig.toNat = jam (-zExp).toNat zSig.toNat → n = E * 2 ^ f.fractionBits
        + roundShift (mode.direction zSign) f.guardBits sig.toNat → n < f.infinity →
      (E = 0 ∨ 2 ^ (f.fractionBits + f.guardBits) ≤ sig.toNat) →
      Packs f (mode.direction zSign) zSign n (jam (-zExp).toNat zSig.toNat % 2 ^ f.guardBits = 0)
        (packRounded f mode zSign E sig u) := by
    intro E sig u hu hsig hE hlt hnorm
    have hsmall : sig.toNat < 2 ^ f.topBit := by
      rw [hsig]
      exact lt_of_le_of_lt (jam_le _ _) hs
    obtain ⟨hpattern, hflags⟩ : (packRounded f mode zSign E sig u).1.toNat = _ ∧
        (packRounded f mode zSign E sig u).2 = _ := packRounded_spec hf hsmall (hE ▸ hlt) hnorm
    rw [← hsig]
    refine ⟨?_, ?_⟩
    · rw [hpattern, saturated, if_neg (Nat.not_le.2 hlt), ← hE]
    · rw [hflags, ite_not]
      exact Raises.inRange hlt hu
  unfold roundAndPack
  dsimp only
  by_cases hover : f.lastExponent < zExp ∨ zExp = f.lastExponent ∧ f.top ≤ zSig + f.roundIncrement mode zSign
  · have hge : f.infinity ≤ n := by
      have hnorm := hzero.resolve_left (by omega)
      have hjam : jam (-zExp).toNat zSig.toNat = zSig.toNat := by
        rw [show (-zExp).toNat = 0 by omega, jam_zero]
      rw [hjam] at hn
      rcases hover with hexp | ⟨hexp, htop⟩
      · have hq : 2 ^ f.fractionBits ≤ zSig.toNat / 2 ^ f.guardBits := by
          rw [Nat.le_div_iff_mul_le (Nat.two_pow_pos _), ← Nat.pow_add]
          exact hnorm
        have hmul : (f.lastExponent.toNat + 1) * 2 ^ f.fractionBits ≤ zExp.toNat * 2 ^ f.fractionBits :=
          Nat.mul_le_mul_right _ (by omega)
        rw [Nat.succ_mul] at hmul
        unfold roundShift at hn
        omega
      · have hcarry := (top_le_iff hf hs mode zSign).1 htop
        rw [hexp] at hn
        omega
    rw [if_pos hover]
    exact ⟨toNat_overflowed hf mode zSign hge, Raises.overflowed hge⟩
  · rw [if_neg hover]
    push Not at hover
    have hround := roundShift_le (d := mode.direction zSign) (lt_of_le_of_lt (jam_le (-zExp).toNat _) hs)
    by_cases hneg : zExp < 0
    · rw [if_pos hneg]
      have hmul : f.lastExponent.toNat * 2 ^ f.fractionBits ≥ 1 * 2 ^ f.fractionBits :=
        Nat.mul_le_mul_right _ (by omega)
      have hexp : zExp.toNat = 0 := by omega
      rw [hexp, Nat.zero_mul] at hn
      have hsig := toNat_shift64RightJamming zSig (-zExp).toNat
      refine hpacked ?_ hsig ?_ (by omega) (.inl rfl)
      · split_ifs with htiny
        · refine .inr ⟨rfl, fun h => htiny.2 ?_⟩
          rw [← UInt64.toNat_inj, toNat_roundBits hf, h]
          rfl
        · exact .inl rfl
      · rw [hn, hsig, Nat.zero_mul]
    · rw [if_neg hneg]
      have hjam : jam (-zExp).toNat zSig.toNat = zSig.toNat := by
        rw [show (-zExp).toNat = 0 by omega, jam_zero]
      refine hpacked (.inl rfl) hjam.symm (hjam ▸ hn) ?_ ?_
      · rcases eq_or_lt_of_le hover.1 with hexp | hexp
        · have hcarry := mt (top_le_iff hf hs mode zSign).2 (hover.2 hexp)
          rw [hjam, hexp] at hn
          omega
        · have hmul : (zExp.toNat + 1) * 2 ^ f.fractionBits ≤ f.lastExponent.toNat * 2 ^ f.fractionBits :=
            Nat.mul_le_mul_right _ (by omega)
          rw [Nat.succ_mul] at hmul
          omega
      · rcases hzero with h | h
        · exact .inl (by omega)
        · exact .inr h

end

end CuteMac.Fpu
