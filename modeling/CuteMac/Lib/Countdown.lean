/-
  Down-counters that reload.

  * `rearm`: the reload value is added until the counter is positive again;
  * `rearm_slice`: letting the counter fall in two slices is letting it fall in
    one;
  * `fall`, `fall_fall`: the same for a counter that is reloaded at once, as often as it
    ran out.
-/
import Mathlib.Data.Int.Init

namespace Countdown

/-- Adds `reload` to the counter while it is not positive; the second component counts
    how often. -/
def rearm (reload : { n : Nat // 0 < n }) (counter : Int) : Int × Nat :=
  if counter ≤ 0 then
    let rest := rearm reload (counter + reload.val)
    (rest.1, rest.2 + 1)
  else (counter, 0)
termination_by (1 - counter).toNat
decreasing_by
  have := reload.property
  omega

variable {reload : { n : Nat // 0 < n }} {counter : Int}

theorem rearm_pos (h : 0 < counter) : rearm reload counter = (counter, 0) := by
  rw [rearm, if_neg (by omega)]

theorem rearm_nonpos (h : counter ≤ 0) :
    rearm reload counter =
      ((rearm reload (counter + reload.val)).1, (rearm reload (counter + reload.val)).2 + 1) := by
  rw [rearm, if_pos h]

theorem rearm_fst_pos (reload : { n : Nat // 0 < n }) (counter : Int) :
    0 < (rearm reload counter).1 := by
  induction counter using rearm.induct reload with
  | case1 counter h ih => rw [rearm_nonpos h]; exact ih
  | case2 counter h => rw [rearm_pos (by omega)]; show 0 < counter; omega

theorem rearm_snd_pos_iff : 0 < (rearm reload counter).2 ↔ counter ≤ 0 := by
  by_cases h : counter ≤ 0
  · rw [rearm_nonpos h]; simp [h]
  · rw [rearm_pos (by omega)]; simp [h]

/-- **Slices.**  A counter that was rearmed after one slice, and then falls by `b`, ends
    where it ends when it falls by both at once, after as many reloads. -/
theorem rearm_slice (reload : { n : Nat // 0 < n }) (counter : Int) {b : Int} (hb : 0 ≤ b) :
    rearm reload (counter - b) =
      ((rearm reload ((rearm reload counter).1 - b)).1,
        (rearm reload counter).2 + (rearm reload ((rearm reload counter).1 - b)).2) := by
  induction counter using rearm.induct reload with
  | case1 counter h ih =>
    have hs : counter - b + reload.val = counter + reload.val - b := by omega
    rw [rearm_nonpos (show counter - b ≤ 0 by omega), rearm_nonpos h, hs, ih]
    exact Prod.ext rfl (Nat.add_right_comm _ _ _)
  | case2 counter h =>
    rw [rearm_pos (show 0 < counter by omega)]
    simp

/-! ## Counters that are reloaded at once -/

/-- A counter after some cycles; it is reloaded with `period` every time it runs out. -/
def fall (period counter cycles : Nat) : Nat :=
  if counter ≤ cycles then period - (cycles - counter) % period else counter - cycles

variable {period a b n : Nat}

theorem fall_of_le (h : n ≤ a) : fall period n a = period - (a - n) % period := if_pos h

theorem fall_of_lt (h : a < n) : fall period n a = n - a := if_neg (Nat.not_le.2 h)

theorem fall_fall (hperiod : 0 < period) (n a b : Nat) :
    fall period (fall period n a) b = fall period n (a + b) := by
  rcases Nat.lt_or_ge a n with ha | ha
  · rw [fall_of_lt ha]
    rcases Nat.lt_or_ge (a + b) n with hab | hab
    · rw [fall_of_lt hab, fall_of_lt (by omega), Nat.sub_sub]
    · rw [fall_of_le hab, fall_of_le (by omega), show b - (n - a) = a + b - n by omega]
  · have hr : (a - n) % period < period := Nat.mod_lt _ hperiod
    have hmod : (a + b - n) % period = ((a - n) % period + b) % period := by
      rw [show a + b - n = a - n + b by omega, Nat.mod_add_mod]
    rw [fall_of_le ha, fall_of_le (by omega : n ≤ a + b), hmod]
    generalize (a - n) % period = r at hr
    rcases Nat.lt_or_ge b (period - r) with hb | hb
    · rw [fall_of_lt hb, Nat.mod_eq_of_lt (by omega : r + b < period), Nat.sub_sub]
    · rw [fall_of_le hb, show r + b = b - (period - r) + period by omega, Nat.add_mod_right]

/-- The counter runs out in one of two slices. -/
theorem fall_le_iff (n a b : Nat) (h : a < n) : fall period n a ≤ b ↔ n ≤ a + b := by
  rw [fall_of_lt h]
  omega

end Countdown
