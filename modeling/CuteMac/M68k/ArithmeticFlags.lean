/-
  The flags of sums and differences, for operands of each size.

  * `half`, `Size.top`: the sign of a number;
  * `Size.nflag_bit`, `Size.vflagAdd_bit`, `Size.carry_bit`: the macros for the flags;
  * `sum_unit`, `difference_unit`: the low part of the result is the sum or the difference, the
    bits of `C` and `V` are its carry and its overflow.
-/
import CuteMac.M68k.Arithmetic
import CuteMac.Lib.WideArithmetic
import CuteMac.Lib.WordBits

namespace CuteMac.M68k

open WideArithmetic WordBits

/-- The least number of so many bytes that is negative. -/
def half (bytes : Nat) : Nat := 256 ^ bytes / 2

namespace Size

def half (z : Size) : Nat := M68k.half z.bytes

theorem toNat_maskOutAbove (z : Size) (a : UInt32) :
    (z.maskOutAbove a).toNat = a.toNat % (2 * z.half) := by
  cases z with
  | byte => exact (UInt32.toNat_and a 0xff).trans (Nat.and_two_pow_sub_one_eq_mod a.toNat 8)
  | word => exact (UInt32.toNat_and a 0xffff).trans (Nat.and_two_pow_sub_one_eq_mod a.toNat 16)
  | long => exact (UInt32.toNat_and a 0xffffffff).trans (Nat.and_two_pow_sub_one_eq_mod a.toNat 32)

theorem maskOutAbove_lt (z : Size) (a : UInt32) : (z.maskOutAbove a).toNat < 2 * z.half := by
  rw [toNat_maskOutAbove]
  exact Nat.mod_lt _ (by cases z <;> decide)

/-- The sign of the low part. -/
def top (z : Size) (a : UInt32) : Bool := a.toNat.testBit (z.bits - 1)

theorem top_eq (z : Size) (a : UInt32) : z.top a = decide (z.half ≤ (z.maskOutAbove a).toNat) := by
  rw [toNat_maskOutAbove, top, Nat.testBit_eq_decide_div_mod_eq]
  have ha := a.toNat_lt
  congr 1
  rw [eq_iff_iff]
  cases z with
  | byte =>
    show a.toNat / 2 ^ 7 % 2 = 1 ↔ 128 ≤ a.toNat % 256
    omega
  | word =>
    show a.toNat / 2 ^ 15 % 2 = 1 ↔ 32768 ≤ a.toNat % 65536
    omega
  | long =>
    show a.toNat / 2 ^ 31 % 2 = 1 ↔ 2147483648 ≤ a.toNat % 4294967296
    omega

/-- What is shifted into the place of the flags `N` and `V`. -/
theorem testBit_shift (z : Size) (a : UInt32) : (a >>> z.shift).toNat.testBit 7 = z.top a := by
  rw [UInt32.toNat_shiftRight, Nat.testBit_shiftRight]
  cases z <;> rfl

theorem top_not (z : Size) (a : UInt32) : z.top (~~~a) = !z.top a := by
  have h : ∀ i < 32, (~~~a).toNat.testBit i = !a.toNat.testBit i := fun i hi => by
    show (~~~a).toBitVec.getLsbD i = !a.toBitVec.getLsbD i
    rw [UInt32.toBitVec_not, BitVec.getLsbD_not, decide_eq_true hi, Bool.true_and]
  exact h _ (by cases z <;> decide)

theorem top_and (z : Size) (a b : UInt32) : z.top (a &&& b) = (z.top a && z.top b) := by
  rw [top, UInt32.toNat_and, Nat.testBit_and]
  rfl

theorem top_or (z : Size) (a b : UInt32) : z.top (a ||| b) = (z.top a || z.top b) := by
  rw [top, UInt32.toNat_or, Nat.testBit_or]
  rfl

theorem top_xor (z : Size) (a b : UInt32) : z.top (a ^^^ b) = (z.top a ^^ z.top b) := by
  rw [top, UInt32.toNat_xor, Nat.testBit_xor]
  rfl

theorem nflag_bit (z : Size) (a : UInt32) : (z.nflag a).toNat.testBit 7 = z.top a := testBit_shift z a

theorem vflagAdd_bit (z : Size) (src dst res : UInt32) :
    (z.vflagAdd src dst res).toNat.testBit 7
      = ((z.top src ^^ z.top res) && (z.top dst ^^ z.top res)) := by
  rw [vflagAdd, testBit_shift, top_and, top_xor, top_xor]

theorem vflagSub_bit (z : Size) (src dst res : UInt32) :
    (z.vflagSub src dst res).toNat.testBit 7
      = ((z.top src ^^ z.top dst) && (z.top res ^^ z.top dst)) := by
  rw [vflagSub, testBit_shift, top_and, top_xor, top_xor]

theorem shiftRight_23 (a : UInt32) : (a >>> 23).toNat.testBit 8 = long.top a := by
  rw [UInt32.toNat_shiftRight, Nat.testBit_shiftRight]
  rfl

/-- The bit above the operands, where there is one. -/
theorem carry_bit (z : Size) (hz : z ≠ long) (src dst res : UInt32) :
    (z.cflagAdd src dst res).toNat.testBit 8 = decide (res.toNat / (2 * z.half) % 2 = 1) ∧
      (z.cflagSub src dst res).toNat.testBit 8 = decide (res.toNat / (2 * z.half) % 2 = 1) := by
  cases z with
  | byte => exact ⟨Nat.testBit_eq_decide_div_mod_eq, Nat.testBit_eq_decide_div_mod_eq⟩
  | word =>
    have h : (res >>> 8).toNat.testBit 8 = decide (res.toNat / 65536 % 2 = 1) := by
      rw [UInt32.toNat_shiftRight, Nat.testBit_shiftRight]
      exact Nat.testBit_eq_decide_div_mod_eq
    exact ⟨h, h⟩
  | long => exact absurd rfl hz

end Size

section
variable (z : Size) {src dst b : UInt32}

theorem maskOutAbove_of_lt (hs : src.toNat < 2 * z.half) : z.maskOutAbove src = src := by
  rw [← UInt32.toNat_inj, Size.toNat_maskOutAbove, Nat.mod_eq_of_lt hs]

theorem top_of_lt (hs : src.toNat < 2 * z.half) : z.top src = decide (z.half ≤ src.toNat) := by
  rw [Size.top_eq, maskOutAbove_of_lt z hs]

theorem half_le (hz : z ≠ .long) : 4 * z.half ≤ 2 ^ 31 := by
  cases z with
  | byte => decide
  | word => decide
  | long => exact absurd rfl hz

/-- The low part of a sum, and the bits of `C` and `V`. -/
theorem sum_unit (hs : src.toNat < 2 * z.half) (hd : dst.toNat < 2 * z.half) (hb : b.toNat ≤ 1) :
    ∃ c, Result .sum (2 * z.half) dst.toNat src.toNat b.toNat (z.maskOutAbove (src + dst + b)).toNat c ∧
      (z.cflagAdd src dst (src + dst + b)).toNat.testBit 8 = decide (c = 1) ∧
      (z.vflagAdd src dst (src + dst + b)).toNat.testBit 7
        = decide (signed z.half (z.maskOutAbove (src + dst + b)).toNat
            ≠ Operation.sum.exact (signed z.half dst.toNat) (signed z.half src.toNat) b.toNat) := by
  generalize hres : src + dst + b = res
  have hmask := z.toNat_maskOutAbove res
  have hval : res.toNat = (src.toNat + dst.toNat + b.toNat) % 2 ^ 32 := by
    rw [← hres, UInt32.toNat_add, UInt32.toNat_add, Nat.mod_add_mod]
  have hdvd : 2 * z.half ∣ 2 ^ 32 := by cases z <;> decide
  have hpos : 0 < 2 * z.half := by cases z <;> decide
  obtain ⟨c, hc⟩ : ∃ c, c = (src.toNat + dst.toNat + b.toNat) / (2 * z.half) := ⟨_, rfl⟩
  have hsum : Result .sum (2 * z.half) dst.toNat src.toNat b.toNat (z.maskOutAbove res).toNat c := by
    refine ⟨?_, z.maskOutAbove_lt res, ?_⟩
    · show (z.maskOutAbove res).toNat + 2 * z.half * c = dst.toNat + src.toNat + b.toNat
      rw [hmask, hval, hc, Nat.mod_mod_of_dvd _ hdvd, Nat.mod_add_div]
      omega
    · rw [hc]
      exact Nat.lt_succ_iff.1 ((Nat.div_lt_iff_lt_mul hpos).2 (by omega))
  refine ⟨c, hsum, ?_, ?_⟩
  · by_cases hz : z = .long
    · subst hz
      rw [Size.cflagAdd, Size.shiftRight_23, Size.top_or, Size.top_and, Size.top_and, Size.top_or,
        Size.top_not, top_of_lt _ hs, top_of_lt _ hd, Size.top_eq, Bool.eq_iff_iff, decide_eq_true_iff,
        hsum.carry_iff hd hs hb, Operation.Carries]
      simp
    · have hlt := half_le z hz
      have hone := hsum.carry
      have hexact : (src.toNat + dst.toNat + b.toNat) % 2 ^ 32 = src.toNat + dst.toNat + b.toNat :=
        Nat.mod_eq_of_lt (by omega)
      rw [(z.carry_bit hz src dst res).1, hval, hexact, ← hc]
      congr 1
      rw [eq_iff_iff]
      omega
  · rw [Size.vflagAdd_bit, top_of_lt z hs, top_of_lt z hd, Size.top_eq, Bool.eq_iff_iff,
      decide_eq_true_iff, hsum.overflow_iff hd hs hb, Operation.Overflows]
    simp only [Bool.and_eq_true, bne_iff_ne, ne_eq, decide_eq_decide]
    omega

theorem difference_unit (hs : src.toNat < 2 * z.half) (hd : dst.toNat < 2 * z.half) (hb : b.toNat ≤ 1) :
    ∃ c, Result .difference (2 * z.half) dst.toNat src.toNat b.toNat
        (z.maskOutAbove (dst - src - b)).toNat c ∧
      (z.cflagSub src dst (dst - src - b)).toNat.testBit 8 = decide (c = 1) ∧
      (z.vflagSub src dst (dst - src - b)).toNat.testBit 7
        = decide (signed z.half (z.maskOutAbove (dst - src - b)).toNat
            ≠ Operation.difference.exact (signed z.half dst.toNat) (signed z.half src.toNat) b.toNat) := by
  generalize hres : dst - src - b = res
  have hmask := z.toNat_maskOutAbove res
  obtain ⟨c, hc⟩ : ∃ c, c = if dst.toNat < src.toNat + b.toNat then 1 else 0 := ⟨_, rfl⟩
  have hval : res.toNat + src.toNat + b.toNat = dst.toNat + 2 ^ 32 * c := by
    have h0 := src.toNat_lt
    have h1 := dst.toNat_lt
    rw [← hres, UInt32.toNat_sub, UInt32.toNat_sub, hc]
    split_ifs <;> omega
  have hone : c ≤ 1 := by
    rw [hc]
    split_ifs <;> omega
  have hlt := res.toNat_lt
  have hdiff : Result .difference (2 * z.half) dst.toNat src.toNat b.toNat (z.maskOutAbove res).toNat c := by
    refine ⟨?_, z.maskOutAbove_lt res, hone⟩
    show (z.maskOutAbove res).toNat + src.toNat + b.toNat = dst.toNat + 2 * z.half * c
    rw [hmask]
    cases z with
    | byte =>
      change src.toNat < 256 at hs
      change dst.toNat < 256 at hd
      change res.toNat % 256 + src.toNat + b.toNat = dst.toNat + 256 * c
      omega
    | word =>
      change src.toNat < 65536 at hs
      change dst.toNat < 65536 at hd
      change res.toNat % 65536 + src.toNat + b.toNat = dst.toNat + 65536 * c
      omega
    | long =>
      change res.toNat % 4294967296 + src.toNat + b.toNat = dst.toNat + 4294967296 * c
      omega
  refine ⟨c, hdiff, ?_, ?_⟩
  · by_cases hz : z = .long
    · subst hz
      rw [Size.cflagSub, Size.shiftRight_23, Size.top_or, Size.top_and, Size.top_and, Size.top_or,
        Size.top_not, top_of_lt _ hs, top_of_lt _ hd, Size.top_eq, Bool.eq_iff_iff, decide_eq_true_iff,
        hdiff.carry_iff hd hs hb, Operation.Carries]
      simp
    · rw [(z.carry_bit hz src dst res).2]
      congr 1
      rw [eq_iff_iff]
      -- the bit above the operands is the sign of the 32-bit difference
      cases z with
      | byte =>
        change src.toNat < 256 at hs
        change dst.toNat < 256 at hd
        change res.toNat / 256 % 2 = 1 ↔ c = 1
        omega
      | word =>
        change src.toNat < 65536 at hs
        change dst.toNat < 65536 at hd
        change res.toNat / 65536 % 2 = 1 ↔ c = 1
        omega
      | long => exact absurd rfl hz
  · rw [Size.vflagSub_bit, top_of_lt z hs, top_of_lt z hd, Size.top_eq, Bool.eq_iff_iff,
      decide_eq_true_iff, hdiff.overflow_iff hd hs hb, Operation.Overflows]
    simp only [Bool.and_eq_true, bne_iff_ne, ne_eq, decide_eq_decide]
    omega

end

end CuteMac.M68k
