/-
  Cyclic redundancy checks by shifting, lowest bit first.

  The register has `w` bits; a byte is added to its low end and then shifted
  out.

  * `shifts_xor`: shifting is linear;
  * `foldl_feed`: bytes fed one by one are a number added at once and shifted
    out;
  * `foldl_feed_complement`: a register fed its own complement ends in a value
    that does not depend on what it held.
-/
import Mathlib.Data.List.Basic

namespace Crc

variable {w : Nat} (poly : BitVec w)

/-- The lowest bit leaves the register; if it is set the polynomial is added. -/
def shift (x : BitVec w) : BitVec w := if x.getLsbD 0 then x >>> 1 ^^^ poly else x >>> 1

def shifts : Nat → BitVec w → BitVec w
  | 0, x => x
  | n + 1, x => shifts n (shift poly x)

def feed (x : BitVec w) (b : BitVec 8) : BitVec w := shifts poly 8 (x ^^^ b.setWidth w)

/-- The number that bytes stand for, the lowest byte first. -/
def value : List (BitVec 8) → BitVec w
  | [] => 0
  | b :: bs => b.setWidth w ^^^ value bs <<< 8

variable {poly}

theorem shift_xor (x y : BitVec w) : shift poly (x ^^^ y) = shift poly x ^^^ shift poly y := by
  unfold shift
  rw [BitVec.getLsbD_xor, BitVec.ushiftRight_xor_distrib]
  cases x.getLsbD 0 <;> cases y.getLsbD 0
  · rfl
  · exact BitVec.xor_assoc _ _ _
  · exact (BitVec.xor_assoc _ _ _).trans ((congrArg _ (BitVec.xor_comm _ _)).trans
      (BitVec.xor_assoc _ _ _).symm)
  · ext i hi
    simp only [bne_self_eq_false, Bool.false_eq_true, if_false, if_true, BitVec.getElem_xor]
    cases (x >>> 1)[i] <;> cases (y >>> 1)[i] <;> cases poly[i] <;> rfl

theorem shifts_xor (n : Nat) (x y : BitVec w) :
    shifts poly n (x ^^^ y) = shifts poly n x ^^^ shifts poly n y := by
  induction n generalizing x y with
  | zero => rfl
  | succ n ih => rw [shifts, shift_xor, ih, shifts, shifts]

theorem shifts_add (m n : Nat) (x : BitVec w) :
    shifts poly (m + n) x = shifts poly n (shifts poly m x) := by
  induction m generalizing x with
  | zero => rw [Nat.zero_add]; rfl
  | succ m ih => rw [Nat.succ_add, shifts, ih, shifts]

/-- Nothing is added while zeros leave the register. -/
theorem shifts_shiftLeft (n : Nat) {x : BitVec w} (h : ∀ i, w ≤ i + n → x.getLsbD i = false) :
    shifts poly n (x <<< n) = x := by
  induction n with
  | zero => exact BitVec.shiftLeft_zero x
  | succ n ih =>
    have hlow : (x <<< (n + 1)).getLsbD 0 = false := by simp
    have hshift : x <<< (n + 1) >>> 1 = x <<< n := by
      apply BitVec.eq_of_getLsbD_eq
      intro i hi
      simp only [BitVec.getLsbD_ushiftRight, BitVec.getLsbD_shiftLeft]
      rcases Nat.lt_or_ge (1 + i) w with hw | hw
      · simp only [hw, hi, show 1 + i - (n + 1) = i - n by omega,
          show (1 + i < n + 1) ↔ i < n by omega]
      · have hx : i < n ∨ x.getLsbD (i - n) = false := by
          rcases Nat.lt_or_ge i n with hn | hn
          · exact Or.inl hn
          · exact Or.inr (h _ (by omega))
        rcases hx with hx | hx
        · simp [Nat.not_lt.mpr hw, hx]
        · simp [Nat.not_lt.mpr hw, hx]
    rw [shifts, shift, hlow, if_neg (by simp), hshift]
    exact ih fun i hi => h i (by omega)

theorem getLsbD_value (bs : List (BitVec 8)) {i : Nat} (hi : 8 * bs.length ≤ i) :
    (value bs : BitVec w).getLsbD i = false := by
  induction bs generalizing i with
  | nil => exact BitVec.getLsbD_zero
  | cons b bs ih =>
    rw [List.length_cons] at hi
    rw [value, BitVec.getLsbD_xor, BitVec.getLsbD_setWidth, BitVec.getLsbD_shiftLeft,
      BitVec.getLsbD_of_ge b i (by omega), ih (i := i - 8) (by omega)]
    simp

/-- Bytes fed one by one are added at once and shifted out. -/
theorem foldl_feed (bs : List (BitVec 8)) (x : BitVec w) (h : 8 * bs.length ≤ w) :
    bs.foldl (feed poly) x = shifts poly (8 * bs.length) (x ^^^ value bs) := by
  induction bs generalizing x with
  | nil => simp [value, shifts]
  | cons b bs ih =>
    rw [List.length_cons] at h
    have hout : shifts poly 8 (value bs <<< 8) = (value bs : BitVec w) :=
      shifts_shiftLeft 8 fun i hi => getLsbD_value bs (by omega)
    calc (b :: bs).foldl (feed poly) x
        = shifts poly (8 * bs.length) (feed poly x b ^^^ value bs) := ih _ (by omega)
      _ = shifts poly (8 * bs.length) (shifts poly 8 (x ^^^ value (b :: bs))) := by
          rw [value, ← BitVec.xor_assoc, shifts_xor 8, hout, feed]
      _ = shifts poly (8 * (b :: bs).length) (x ^^^ value (b :: bs)) := by
          rw [← shifts_add, List.length_cons, Nat.mul_succ, Nat.add_comm]

/-- **A register that is fed its complement ends in the same value whatever it held.** -/
theorem foldl_feed_complement {bs : List (BitVec 8)} {x : BitVec w} (h : 8 * bs.length = w)
    (hbs : value bs = ~~~x) : bs.foldl (feed poly) x = shifts poly w (BitVec.allOnes w) := by
  have hones : x ^^^ ~~~x = BitVec.allOnes w := by
    ext i hi
    simp
  rw [foldl_feed bs x (Nat.le_of_eq h), hbs, h, hones]

end Crc
