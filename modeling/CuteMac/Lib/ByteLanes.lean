/-
  The bytes of a 32-bit word.

  * `lane`: the byte above a bit;
  * `put`: a byte is put there;
  * `lane_put`, `lane_join`: which byte is read back.
-/
import CuteMac.Lib.Pages

namespace ByteLanes

/-- The eight bits from bit `shift` on. -/
def lane (shift x : UInt32) : UInt8 := (x >>> shift).toUInt8

/-- The byte replaces the eight bits from bit `shift` on. -/
def put (shift x : UInt32) (byte : UInt8) : UInt32 :=
  (x &&& ~~~((0xff : UInt32) <<< shift)) ||| (byte.toUInt32 <<< shift)

/-- Three bytes, the high one first. -/
def join (high middle low : UInt8) : UInt32 :=
  (high.toUInt32 <<< 16) ||| (middle.toUInt32 <<< 8) ||| low.toUInt32

variable {shift s : UInt32}

theorem testBit_lane (h : shift.toNat < 32) (x : UInt32) (i : Nat) :
    (lane shift x).toNat.testBit i = (decide (i < 8) && x.toNat.testBit (shift.toNat + i)) := by
  unfold lane
  rw [UInt32.toNat_toUInt8, Nat.testBit_mod_two_pow, Pages.testBit_shiftRight h]

theorem testBit_byte (byte : UInt8) {i : Nat} (h : 8 ≤ i) : byte.toNat.testBit i = false := by
  apply Nat.testBit_eq_false_of_lt
  have hlt := byte.toNat_lt
  have hpow : 2 ^ 8 ≤ 2 ^ i := Nat.pow_le_pow_right (by decide) h
  omega

theorem testBit_byte_shiftLeft (hshift : shift.toNat ≤ 24) (byte : UInt8) (i : Nat) :
    (byte.toUInt32 <<< shift).toNat.testBit i
      = (decide (shift.toNat ≤ i) && byte.toNat.testBit (i - shift.toNat)) := by
  rw [Pages.testBit_shiftLeft (by omega), UInt8.toNat_toUInt32]
  by_cases h : i < 32
  · rw [decide_eq_true h, Bool.true_and]
  · rw [testBit_byte byte (i := i - shift.toNat) (by omega), Bool.and_false, Bool.and_false]

/-- Bytes at places that are multiples of eight are the same or apart. -/
theorem lane_put (hs : s.toNat ≤ 24) (hshift : shift.toNat ≤ 24) (hs8 : s.toNat % 8 = 0)
    (hshift8 : shift.toNat % 8 = 0) (x : UInt32) (byte : UInt8) :
    lane s (put shift x byte) = if s = shift then byte else lane s x := by
  rw [← UInt8.toNat_inj]
  refine Nat.eq_of_testBit_eq fun i => ?_
  rw [testBit_lane (by omega)]
  rcases Nat.lt_or_ge i 8 with hi | hi
  · have hmask : ((0xff : UInt32) <<< shift).toNat.testBit (s.toNat + i)
        = (decide (shift.toNat ≤ s.toNat + i) && (0xff : UInt8).toNat.testBit (s.toNat + i - shift.toNat)) :=
      testBit_byte_shiftLeft hshift 0xff _
    unfold put
    rw [decide_eq_true hi, Bool.true_and, UInt32.toNat_or, UInt32.toNat_and, Nat.testBit_or,
      Nat.testBit_and, Pages.testBit_not _ (by omega), hmask, testBit_byte_shiftLeft hshift]
    by_cases heq : s = shift
    · subst heq
      have hone : (0xff : UInt8).toNat.testBit i = true := by
        rw [show (0xff : UInt8).toNat = 2 ^ 8 - 1 from rfl, Nat.testBit_two_pow_sub_one]
        exact decide_eq_true hi
      rw [if_pos rfl, Nat.add_sub_cancel_left, hone, decide_eq_true (Nat.le_add_right _ _)]
      simp
    · have hne : s.toNat ≠ shift.toNat := fun h => heq (UInt32.toNat_inj.1 h)
      rw [if_neg heq, testBit_lane (by omega), decide_eq_true hi, Bool.true_and]
      rcases Nat.lt_or_ge (s.toNat + i) shift.toNat with hlt | hge
      · rw [decide_eq_false (Nat.not_le.2 hlt)]
        simp
      · have h8 : 8 ≤ s.toNat + i - shift.toNat := by omega
        rw [testBit_byte _ h8, testBit_byte _ h8]
        simp
  · rw [decide_eq_false (Nat.not_lt.2 hi), Bool.false_and, testBit_byte _ hi]

/-- The bytes of a join. -/
theorem lane_join (high middle low : UInt8) :
    lane 16 (join high middle low) = high ∧ lane 8 (join high middle low) = middle ∧
      lane 0 (join high middle low) = low := by
  have hjoin : ∀ i, (join high middle low).toNat.testBit i
      = (decide (16 ≤ i) && high.toNat.testBit (i - 16) || decide (8 ≤ i) && middle.toNat.testBit (i - 8)
        || low.toNat.testBit i) := by
    intro i
    unfold join
    have h16 := @testBit_byte_shiftLeft 16 (by decide) high i
    have h8 := @testBit_byte_shiftLeft 8 (by decide) middle i
    rw [UInt32.toNat_or, UInt32.toNat_or, Nat.testBit_or, Nat.testBit_or, h16, h8, UInt8.toNat_toUInt32]
    rfl
  refine ⟨?_, ?_, ?_⟩
  · rw [← UInt8.toNat_inj]
    refine Nat.eq_of_testBit_eq fun i => ?_
    rw [testBit_lane (by decide), hjoin, show (16 : UInt32).toNat = 16 from rfl]
    by_cases hi : i < 8
    · rw [testBit_byte middle (by omega), testBit_byte low (by omega), Nat.add_sub_cancel_left]
      simp [hi]
    · rw [testBit_byte high (Nat.not_lt.1 hi)]
      simp [hi]
  · rw [← UInt8.toNat_inj]
    refine Nat.eq_of_testBit_eq fun i => ?_
    rw [testBit_lane (by decide), hjoin, show (8 : UInt32).toNat = 8 from rfl]
    by_cases hi : i < 8
    · rw [testBit_byte low (by omega), Nat.add_sub_cancel_left,
        decide_eq_false (show ¬ 16 ≤ 8 + i by omega)]
      simp [hi]
    · rw [testBit_byte middle (Nat.not_lt.1 hi)]
      simp [hi]
  · rw [← UInt8.toNat_inj]
    refine Nat.eq_of_testBit_eq fun i => ?_
    rw [testBit_lane (by decide), hjoin, show (0 : UInt32).toNat = 0 from rfl, Nat.zero_add]
    by_cases hi : i < 8
    · simp [hi]
      omega
    · rw [testBit_byte low (Nat.not_lt.1 hi)]
      simp [hi]

end ByteLanes
