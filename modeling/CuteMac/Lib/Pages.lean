/-
  Pages of a power of two behind 32-bit addresses.

  * `lowMask n`: the bits of an address within its page of `2 ^ n` bytes;
  * `SamePage`: two addresses in one page, and what the masks say about them;
  * `field_congr`, `frame_add`: the bits of a page number, and a frame with an offset.
-/
import Mathlib.Data.Nat.Bitwise
import Mathlib.Tactic.Ring

namespace Pages

def lowMask (n : UInt32) : UInt32 := 0xffffffff >>> (32 - n)

def SamePage (n : UInt32) (a b : UInt32) : Prop := a.toNat / 2 ^ n.toNat = b.toNat / 2 ^ n.toNat

section
variable {n a b c : UInt32}

theorem SamePage.refl (n a : UInt32) : SamePage n a a := rfl

theorem SamePage.symm (h : SamePage n a b) : SamePage n b a := Eq.symm h

theorem SamePage.trans (h : SamePage n a b) (h' : SamePage n b c) : SamePage n a c := Eq.trans h h'

theorem toNat_lowMask (h0 : 0 < n.toNat) (h : n.toNat < 32) :
    (lowMask n).toNat = 2 ^ n.toNat - 1 := by
  have hle : n ≤ 32 := UInt32.le_iff_toNat_le.2 (by simp; omega)
  have hsub : (32 - n : UInt32).toNat = 32 - n.toNat := UInt32.toNat_sub_of_le _ _ hle
  rw [lowMask, UInt32.toNat_shiftRight, hsub, Nat.mod_eq_of_lt (by omega), Nat.shiftRight_eq_div_pow]
  have hpow : 2 ^ 32 = 2 ^ n.toNat * 2 ^ (32 - n.toNat) := by rw [← Nat.pow_add]; congr 1; omega
  have hpos : 0 < 2 ^ (32 - n.toNat) := Nat.two_pow_pos _
  show (2 ^ 32 - 1) / 2 ^ (32 - n.toNat) = _
  refine Nat.div_eq_of_lt_le ?_ ?_
  · rw [Nat.sub_one_mul, hpow]
    omega
  · rw [Nat.sub_add_cancel Nat.one_le_two_pow, ← hpow]
    omega

theorem toNat_and_lowMask (h0 : 0 < n.toNat) (h : n.toNat < 32) (a : UInt32) :
    (a &&& lowMask n).toNat = a.toNat % 2 ^ n.toNat := by
  rw [UInt32.toNat_and, toNat_lowMask h0 h, Nat.and_two_pow_sub_one_eq_mod]

theorem and_lowMask_inj (h0 : 0 < n.toNat) (h : n.toNat < 32) :
    a &&& lowMask n = b &&& lowMask n ↔ a.toNat % 2 ^ n.toNat = b.toNat % 2 ^ n.toNat := by
  rw [← UInt32.toNat_inj, toNat_and_lowMask h0 h, toNat_and_lowMask h0 h]

theorem testBit_not (a : UInt32) {i : Nat} (hi : i < 32) :
    (~~~a).toNat.testBit i = !a.toNat.testBit i := by
  have h := BitVec.getLsbD_not (x := a.toBitVec) (i := i)
  rwa [decide_eq_true hi, Bool.true_and] at h

/-- Two words agree under a mask. -/
theorem and_inj_iff {m : UInt32} :
    a &&& m = b &&& m ↔
      ∀ i, m.toNat.testBit i = true → a.toNat.testBit i = b.toNat.testBit i := by
  constructor
  · intro h i hi
    have hbit := congrArg (fun x => x.toNat.testBit i) h
    simpa only [UInt32.toNat_and, Nat.testBit_and, hi, Bool.and_true] using hbit
  · intro h
    rw [← UInt32.toNat_inj]
    refine Nat.eq_of_testBit_eq fun i => ?_
    rw [UInt32.toNat_and, UInt32.toNat_and, Nat.testBit_and, Nat.testBit_and]
    cases hm : m.toNat.testBit i with
    | false => rw [Bool.and_false, Bool.and_false]
    | true => rw [h i hm]

theorem testBit_of_le (a : UInt32) {i : Nat} (hi : 32 ≤ i) : a.toNat.testBit i = false :=
  Nat.testBit_lt_two_pow (lt_of_lt_of_le a.toNat_lt (Nat.pow_le_pow_right (by omega) hi))

theorem samePage_iff : SamePage n a b ↔ ∀ i, n.toNat ≤ i → a.toNat.testBit i = b.toNat.testBit i := by
  constructor
  · intro h i hi
    have hi' := congrArg (fun x => x.testBit (i - n.toNat)) h
    simp only [Nat.testBit_div_two_pow] at hi'
    rwa [Nat.sub_add_cancel hi] at hi'
  · intro h
    refine Nat.eq_of_testBit_eq fun i => ?_
    rw [Nat.testBit_div_two_pow, Nat.testBit_div_two_pow]
    exact h _ (Nat.le_add_left _ _)

theorem testBit_frame (h0 : 0 < n.toNat) (h : n.toNat < 32) (a : UInt32) (i : Nat) :
    (a &&& ~~~lowMask n).toNat.testBit i = (decide (n.toNat ≤ i) && a.toNat.testBit i) := by
  rw [UInt32.toNat_and, Nat.testBit_and]
  by_cases hi : i < 32
  · rw [testBit_not _ hi, toNat_lowMask h0 h, Nat.testBit_two_pow_sub_one]
    by_cases hn : i < n.toNat
    · simp [hn, Nat.not_le.2 hn]
    · simp [hn, Nat.not_lt.1 hn]
  · rw [testBit_of_le a (Nat.not_lt.1 hi), Bool.false_and, Bool.and_false]

/-- The frames of two addresses are one where they are in one page. -/
theorem frame_inj (h0 : 0 < n.toNat) (h : n.toNat < 32) :
    a &&& ~~~lowMask n = b &&& ~~~lowMask n ↔ SamePage n a b := by
  rw [samePage_iff]
  constructor
  · intro he i hi
    have hbit := congrArg (fun x => x.toNat.testBit i) he
    simpa only [testBit_frame h0 h, decide_eq_true hi, Bool.true_and] using hbit
  · intro he
    rw [← UInt32.toNat_inj]
    refine Nat.eq_of_testBit_eq fun i => ?_
    rw [testBit_frame h0 h, testBit_frame h0 h]
    by_cases hi : n.toNat ≤ i
    · rw [he i hi]
    · rw [decide_eq_false hi, Bool.false_and, Bool.false_and]

theorem frame_and_mask (a m : UInt32) : (a &&& ~~~m) &&& m = 0 := by
  rw [UInt32.and_assoc, UInt32.not_and_self, UInt32.and_zero]

/-- An address is its frame with its offset. -/
theorem frame_or_offset (a m : UInt32) : (a &&& ~~~m) ||| (a &&& m) = a := by
  rw [← UInt32.toBitVec_inj]
  ext i hi
  simp only [UInt32.toBitVec_or, UInt32.toBitVec_and, UInt32.toBitVec_not, BitVec.getElem_or,
    BitVec.getElem_and, BitVec.getElem_not]
  cases a.toBitVec[i] <;> cases m.toBitVec[i] <;> rfl

theorem testBit_shiftLeft {shift : UInt32} (h : shift.toNat < 32) (a : UInt32) (i : Nat) :
    (a <<< shift).toNat.testBit i =
      (decide (i < 32) && (decide (shift.toNat ≤ i) && a.toNat.testBit (i - shift.toNat))) := by
  rw [UInt32.toNat_shiftLeft, Nat.mod_eq_of_lt h, Nat.testBit_mod_two_pow, Nat.testBit_shiftLeft]

theorem testBit_shiftRight {shift : UInt32} (h : shift.toNat < 32) (a : UInt32) (i : Nat) :
    (a >>> shift).toNat.testBit i = a.toNat.testBit (shift.toNat + i) := by
  rw [UInt32.toNat_shiftRight, Nat.mod_eq_of_lt h, Nat.testBit_shiftRight]

theorem toNat_sub_bits {bits : UInt32} (h : bits.toNat ≤ 32) :
    (32 - bits : UInt32).toNat = 32 - bits.toNat :=
  UInt32.toNat_sub_of_le _ _ (UInt32.le_iff_toNat_le.2 h)

/-- Bits outside of a mask do not show through it. -/
theorem or_and_of_disjoint {m : UInt32} (h : b &&& m = 0) : (a ||| b) &&& m = a &&& m := by
  rw [← UInt32.toBitVec_inj]
  ext i hi
  have hi' := congrArg (fun x => x.toBitVec[i]) h
  simp only [UInt32.toBitVec_and, BitVec.getElem_and, UInt32.toBitVec_zero, BitVec.getElem_zero] at hi'
  simp only [UInt32.toBitVec_or, UInt32.toBitVec_and, BitVec.getElem_or, BitVec.getElem_and]
  rw [Bool.and_or_distrib_right, hi', Bool.or_false]

/-- The next bits of a page number are those of the page. -/
theorem field_congr {shift bits : UInt32} (hab : SamePage n a b) (hbits : 0 < bits.toNat)
    (hsum : shift.toNat + bits.toNat + n.toNat ≤ 32) :
    (a <<< shift) >>> (32 - bits) = (b <<< shift) >>> (32 - bits) := by
  have hsub : (32 - bits : UInt32).toNat = 32 - bits.toNat := toNat_sub_bits (by omega)
  rw [← UInt32.toNat_inj]
  refine Nat.eq_of_testBit_eq fun i => ?_
  rw [testBit_shiftRight (by omega), testBit_shiftRight (by omega), testBit_shiftLeft (by omega),
    testBit_shiftLeft (by omega), hsub]
  rw [samePage_iff.1 hab (32 - bits.toNat + i - shift.toNat) (by omega)]

/-- What is left of an address after the shifts is its low bits. -/
theorem toNat_unshift {shift : UInt32} (h : shift.toNat < 32) (a : UInt32) :
    ((a <<< shift) >>> shift).toNat = a.toNat % 2 ^ (32 - shift.toNat) := by
  refine Nat.eq_of_testBit_eq fun i => ?_
  rw [testBit_shiftRight h, testBit_shiftLeft h, Nat.testBit_mod_two_pow, Nat.add_sub_cancel_left]
  by_cases hi : i < 32 - shift.toNat
  · rw [decide_eq_true hi, decide_eq_true (by omega), decide_eq_true (by omega), Bool.true_and]
  · rw [decide_eq_false hi, decide_eq_false (by omega), Bool.false_and, Bool.false_and]

theorem toNat_add_frame (h : n.toNat ≤ 32) {frame : UInt32} (hframe : frame.toNat % 2 ^ n.toNat = 0)
    (c : UInt32) :
    (frame + c).toNat / 2 ^ n.toNat =
        (frame.toNat / 2 ^ n.toNat + c.toNat / 2 ^ n.toNat) % 2 ^ (32 - n.toNat) ∧
      (frame + c).toNat % 2 ^ n.toNat = c.toNat % 2 ^ n.toNat := by
  have hpos : 0 < 2 ^ n.toNat := Nat.two_pow_pos _
  have hpow : 2 ^ 32 = 2 ^ n.toNat * 2 ^ (32 - n.toNat) := by rw [← Nat.pow_add]; congr 1; omega
  have hdiv : frame.toNat = 2 ^ n.toNat * (frame.toNat / 2 ^ n.toNat) :=
    (Nat.mul_div_cancel' (Nat.dvd_of_mod_eq_zero hframe)).symm
  rw [UInt32.toNat_add, hpow]
  constructor
  · rw [Nat.mod_mul_right_div_self, hdiv, Nat.mul_add_div hpos, Nat.mul_div_cancel_left _ hpos]
  · rw [Nat.mod_mul_right_mod, hdiv, Nat.mul_add_mod]

/-- A frame and what is left of an address as far as its page number was not used: the offset is
    kept, and the page of the sum is that of the page. -/
theorem frame_add (shift : UInt32) (hn : 0 < n.toNat) (hsum : shift.toNat + n.toNat ≤ 32)
    {frame : UInt32} (hframe : frame.toNat % 2 ^ n.toNat = 0) (hab : SamePage n a b) :
    SamePage n (frame + (a <<< shift) >>> shift) (frame + (b <<< shift) >>> shift) ∧
      (frame + (a <<< shift) >>> shift).toNat % 2 ^ n.toNat = a.toNat % 2 ^ n.toNat := by
  have hrest : 2 ^ (32 - shift.toNat) = 2 ^ n.toNat * 2 ^ (32 - shift.toNat - n.toNat) := by
    rw [← Nat.pow_add]; congr 1; omega
  have hpage : ∀ c : UInt32, ((c <<< shift) >>> shift).toNat / 2 ^ n.toNat =
      c.toNat / 2 ^ n.toNat % 2 ^ (32 - shift.toNat - n.toNat) := by
    intro c
    rw [toNat_unshift (by omega), hrest, Nat.mod_mul_right_div_self]
  constructor
  · unfold SamePage at hab ⊢
    rw [(toNat_add_frame (by omega) hframe _).1, (toNat_add_frame (by omega) hframe _).1, hpage,
      hpage, hab]
  · rw [(toNat_add_frame (by omega) hframe _).2, toNat_unshift (by omega), hrest,
      Nat.mod_mul_right_mod]

/-- Adding to an address within its page. -/
theorem toNat_add_offset (hn : n.toNat ≤ 32) {i : Nat} (hi : a.toNat % 2 ^ n.toNat + i < 2 ^ n.toNat) :
    (a + UInt32.ofNat i).toNat = a.toNat + i := by
  have hpow : 2 ^ 32 = 2 ^ n.toNat * 2 ^ (32 - n.toNat) := by rw [← Nat.pow_add]; congr 1; omega
  have hq : a.toNat / 2 ^ n.toNat < 2 ^ (32 - n.toNat) :=
    Nat.div_lt_of_lt_mul (hpow ▸ a.toNat_lt)
  have hsplit := Nat.div_add_mod a.toNat (2 ^ n.toNat)
  have hlt : a.toNat + i < 2 ^ 32 := by
    calc a.toNat + i < 2 ^ n.toNat * (a.toNat / 2 ^ n.toNat) + 2 ^ n.toNat := by omega
      _ = 2 ^ n.toNat * (a.toNat / 2 ^ n.toNat + 1) := by ring
      _ ≤ 2 ^ n.toNat * 2 ^ (32 - n.toNat) := Nat.mul_le_mul_left _ hq
      _ = 2 ^ 32 := hpow.symm
  rw [UInt32.toNat_add, UInt32.toNat_ofNat', Nat.mod_eq_of_lt (show i < 2 ^ 32 by omega)]
  exact Nat.mod_eq_of_lt hlt

theorem samePage_add (hn : n.toNat ≤ 32) {i : Nat} (hi : a.toNat % 2 ^ n.toNat + i < 2 ^ n.toNat) :
    SamePage n a (a + UInt32.ofNat i) ∧
      (a + UInt32.ofNat i).toNat % 2 ^ n.toNat = a.toNat % 2 ^ n.toNat + i := by
  have hsplit : a.toNat + i =
      2 ^ n.toNat * (a.toNat / 2 ^ n.toNat) + (a.toNat % 2 ^ n.toNat + i) := by
    have := Nat.div_add_mod a.toNat (2 ^ n.toNat)
    omega
  unfold SamePage
  rw [toNat_add_offset hn hi, hsplit]
  constructor
  · rw [Nat.mul_add_div (Nat.two_pow_pos _), Nat.div_eq_of_lt hi, Nat.add_zero]
  · rw [Nat.mul_add_mod, Nat.mod_eq_of_lt hi]

theorem shiftRight_congr (hab : SamePage n a b) {shift : UInt32} (hn : n.toNat ≤ shift.toNat)
    (h : shift.toNat < 32) : a >>> shift = b >>> shift := by
  rw [← UInt32.toNat_inj]
  refine Nat.eq_of_testBit_eq fun i => ?_
  rw [testBit_shiftRight h, testBit_shiftRight h]
  exact samePage_iff.1 hab _ (by omega)

/-- A mask that leaves the offset out. -/
theorem and_congr_of_disjoint (h0 : 0 < n.toNat) (h : n.toNat < 32) (hab : SamePage n a b)
    {m : UInt32} (hm : ~~~lowMask n &&& m = m) : a &&& m = b &&& m := by
  rw [← hm, ← UInt32.and_assoc, ← UInt32.and_assoc, (frame_inj h0 h).2 hab]

end

end Pages
