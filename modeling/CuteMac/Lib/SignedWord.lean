/-
  Products in 32-bit signed arithmetic.

  * `wrap_of_lt`: what is not too large is itself;
  * `forall_wrap_nonneg`: the multiples of a step up to some one stay positive exactly
    where the last one is not too large.
-/
import Mathlib.Data.Nat.Find
import Mathlib.Tactic.Ring
import Mathlib.Tactic.Linarith

namespace SignedWord

/-- The value of a number in 32 bits. -/
def wrap (z : Int) : Int := z.bmod (2 ^ 32)

theorem wrap_of_lt {z : Int} (h0 : 0 ≤ z) (h : z < 2 ^ 31) : wrap z = z :=
  Int.bmod_eq_of_le (by omega) (by omega)

theorem wrap_neg {z : Int} (h0 : 2 ^ 31 ≤ z) (h : z < 2 ^ 32) : wrap z < 0 := by
  unfold wrap
  rw [Int.bmod_def]
  split_ifs <;> omega

/-- Multiples come by every sign: a step is smaller than half of the range. -/
theorem forall_wrap_nonneg {s : Int} (h0 : 0 < s) (h : s < 2 ^ 31) (n : Nat) :
    (∀ y : Nat, y ≤ n → 0 ≤ wrap (y * s)) ↔ n * s < 2 ^ 31 := by
  constructor
  · intro hall
    by_contra hlarge
    rw [Int.not_lt] at hlarge
    have hex : ∃ y : Nat, 2 ^ 31 ≤ y * s := ⟨n, hlarge⟩
    classical
    obtain ⟨y, hy, hmin⟩ : ∃ y : Nat, 2 ^ 31 ≤ y * s ∧ ∀ z < y, ¬ 2 ^ 31 ≤ (z : Int) * s :=
      ⟨Nat.find hex, Nat.find_spec hex, fun z hz => Nat.find_min hex hz⟩
    have hle : y ≤ n := by
      by_contra hgt
      exact hmin n (Nat.not_le.1 hgt) hlarge
    obtain ⟨z, rfl⟩ : ∃ z, y = z + 1 := by
      cases y with
      | zero => norm_num at hy
      | succ z => exact ⟨z, rfl⟩
    have hz := hmin z (Nat.lt_succ_self z)
    have hsucc : ((z + 1 : Nat) : Int) * s = z * s + s := by
      push_cast
      ring
    rw [hsucc] at hy
    have hneg : wrap (((z + 1 : Nat) : Int) * s) < 0 := by
      rw [hsucc]
      exact wrap_neg hy (by omega)
    exact absurd (hall (z + 1) hle) (by omega)
  · intro hlt y hy
    have hmul : (y : Int) * s ≤ n * s := Int.mul_le_mul_of_nonneg_right (by omega) (by omega)
    have hnonneg : 0 ≤ (y : Int) * s := Int.mul_nonneg (by omega) (by omega)
    rw [wrap_of_lt hnonneg (by omega)]
    exact hnonneg

end SignedWord
