/-
  Rounding to the nearest number, towards zero and away from it.

  * `Rounds`: a rounding among the values of an increasing sequence;
  * `Rounds.eq_of_value`: a value is its own rounding;
  * `Rounds.le_of_value_le`: a rounding keeps above the values below the number;
  * `roundShift`, `Counted.rounds`: a whole number without its low bits;
  * `SameSide`, `jam`, `roundShift_jam`: the bits below are kept as one;
  * `magnitude`, `magnitude_segment`, `strictMono_magnitude`: the numbers of a binary format.
-/
import CuteMac.Lib.Scaled

namespace Rounding

open Scaled

inductive Direction where
  | nearest
  | towardZero
  | away
  deriving DecidableEq, Repr

/-- `v n` is the rounding of `x` among the values of `v`; of two nearest ones it is that with the
    even index. -/
def Rounds (d : Direction) (v : ℕ → ℚ) (x : ℚ) (n : ℕ) : Prop :=
  match d with
  | .nearest => (∀ m, |x - v n| ≤ |x - v m|) ∧ ∀ m, m ≠ n → |x - v m| = |x - v n| → Even n
  | .towardZero => v n ≤ x ∧ ∀ m, v m ≤ x → v m ≤ v n
  | .away => x ≤ v n ∧ ∀ m, x ≤ v m → v n ≤ v m

section
variable {d : Direction} {v : ℕ → ℚ} {x : ℚ} {n : ℕ}

/-- A number in the lower half of a gap. -/
theorem rounds_nearest_lower (hv : StrictMono v) (hle : v n ≤ x) (hhalf : 2 * x ≤ v n + v (n + 1))
    (htie : 2 * x = v n + v (n + 1) → Even n) : Rounds .nearest v x n := by
  have habove : ∀ m, n < m → v (n + 1) ≤ v m := fun m hm => hv.monotone hm
  have hgap : v n < v (n + 1) := hv (Nat.lt_succ_self n)
  refine ⟨fun m => ?_, fun m hne heq => ?_⟩
  · rw [abs_of_nonneg (sub_nonneg.2 hle)]
    rcases Nat.lt_or_ge n m with hm | hm
    · have := habove m hm
      rw [abs_of_nonpos (by linarith)]
      linarith
    · have := hv.monotone hm
      rw [abs_of_nonneg (by linarith)]
      linarith
  · rw [abs_of_nonneg (sub_nonneg.2 hle)] at heq
    rcases Nat.lt_or_ge n m with hm | hm
    · have := habove m hm
      rw [abs_of_nonpos (by linarith)] at heq
      exact htie (by linarith)
    · have hlt : v m < v n := hv (by omega)
      rw [abs_of_nonneg (by linarith)] at heq
      linarith

/-- A number in the upper half of a gap. -/
theorem rounds_nearest_upper (hv : StrictMono v) (hle : x ≤ v (n + 1)) (hhalf : v n + v (n + 1) ≤ 2 * x)
    (htie : 2 * x = v n + v (n + 1) → Even (n + 1)) : Rounds .nearest v x (n + 1) := by
  have hbelow : ∀ m, m ≤ n → v m ≤ v n := fun m hm => hv.monotone hm
  have hgap : v n < v (n + 1) := hv (Nat.lt_succ_self n)
  refine ⟨fun m => ?_, fun m hne heq => ?_⟩
  · rw [abs_of_nonpos (sub_nonpos.2 hle)]
    rcases Nat.lt_or_ge n m with hm | hm
    · have hmono : v (n + 1) ≤ v m := hv.monotone hm
      rw [abs_of_nonpos (by linarith)]
      linarith
    · have := hbelow m hm
      rw [abs_of_nonneg (by linarith)]
      linarith
  · rw [abs_of_nonpos (sub_nonpos.2 hle)] at heq
    rcases Nat.lt_or_ge n m with hm | hm
    · have hlt : v (n + 1) < v m := hv (by omega)
      rw [abs_of_nonpos (by linarith)] at heq
      linarith
    · have := hbelow m hm
      rw [abs_of_nonneg (by linarith)] at heq
      exact htie (by linarith)

/-- A rounding is not below a value that the number is not below. -/
theorem Rounds.le_of_value_le (hv : StrictMono v) {m : ℕ} (h : Rounds d v x n) (hm : v m ≤ x) :
    m ≤ n := by
  cases d with
  | towardZero => exact hv.le_iff_le.1 (h.2 m hm)
  | away => exact hv.le_iff_le.1 (hm.trans h.1)
  | nearest =>
    by_contra hlt
    have hgt : v n < v m := hv (Nat.lt_of_not_le hlt)
    have hle := h.1 m
    rw [abs_of_nonneg (by linarith), abs_of_nonneg (by linarith)] at hle
    linarith

/-- A value is its own rounding. -/
theorem Rounds.eq_of_value (hv : StrictMono v) {m : ℕ} (h : Rounds d v (v m) n) : n = m := by
  cases d with
  | towardZero => exact hv.injective (le_antisymm h.1 (h.2 m le_rfl))
  | away => exact hv.injective (le_antisymm (h.2 m le_rfl) h.1)
  | nearest =>
    have hle := h.1 m
    rw [sub_self, abs_zero] at hle
    exact hv.injective (sub_eq_zero.1 (abs_eq_zero.1 (le_antisymm hle (abs_nonneg _)))).symm

end

/-! ## Whole numbers without their low bits -/

/-- Whether the number without its low `k` bits is the one above. -/
def roundsUp (d : Direction) (k m : ℕ) : Bool :=
  match d with
  | .nearest => 2 ^ k < 2 * (m % 2 ^ k) || (2 * (m % 2 ^ k) == 2 ^ k && m / 2 ^ k % 2 == 1)
  | .towardZero => false
  | .away => m % 2 ^ k != 0

/-- The number without its low `k` bits, rounded. -/
def roundShift (d : Direction) (k m : ℕ) : ℕ := m / 2 ^ k + (roundsUp d k m).toNat

/-- The number `x` lies among values that count units of `u` from the value `b` on: it is `m` parts
    of which `2 ^ k` make a unit. -/
structure Counted (v : ℕ → ℚ) (x u : ℚ) (b k m : ℕ) : Prop where
  mono : StrictMono v
  even : Even b
  pos : 0 < u
  lower : v (b + m / 2 ^ k) = (m / 2 ^ k : ℕ) * u
  upper : v (b + m / 2 ^ k + 1) = ((m / 2 ^ k : ℕ) + 1) * u
  parts : x * (2 ^ k : ℕ) = m * u

section
variable {d : Direction} {v : ℕ → ℚ} {x u : ℚ} {k m b : ℕ}

/-- The part of the gap below the number. -/
theorem Counted.part (h : Counted v x u b k m) :
    x = ((m / 2 ^ k : ℕ) + ((m % 2 ^ k : ℕ) : ℚ) / (2 ^ k : ℕ)) * u := by
  have hp : (0 : ℚ) < (2 ^ k : ℕ) := by exact_mod_cast Nat.two_pow_pos k
  have hm : (m : ℚ) = (2 ^ k : ℕ) * (m / 2 ^ k : ℕ) + (m % 2 ^ k : ℕ) := by
    exact_mod_cast (Nat.div_add_mod m (2 ^ k)).symm
  refine mul_right_cancel₀ hp.ne' ?_
  rw [h.parts, hm]
  field_simp

/-- What the low bits say of the number. -/
theorem Counted.rounds (h : Counted v x u b k m) (d : Direction) :
    Rounds d v x (b + roundShift d k m) := by
  have hpart := h.part
  obtain ⟨hv, hb, hu, hlow, hhigh, -⟩ := h
  have hp : (0 : ℚ) < (2 ^ k : ℕ) := by exact_mod_cast Nat.two_pow_pos k
  obtain ⟨f, hf⟩ : ∃ f : ℚ, f = (m % 2 ^ k : ℕ) / (2 ^ k : ℕ) := ⟨_, rfl⟩
  have hxf : x = ((m / 2 ^ k : ℕ) + f) * u := hf ▸ hpart
  have hf0 : 0 ≤ f := hf ▸ div_nonneg (Nat.cast_nonneg _) hp.le
  have hf1 : f < 1 := by
    rw [hf, div_lt_one hp]
    exact_mod_cast Nat.mod_lt m (Nat.two_pow_pos k)
  have hzero : f = 0 ↔ m % 2 ^ k = 0 := by
    rw [hf, div_eq_zero_iff, or_iff_left hp.ne', Nat.cast_eq_zero]
  have hhalf : 1 < 2 * f ↔ 2 ^ k < 2 * (m % 2 ^ k) := by
    rw [hf, ← mul_div_assoc, one_lt_div hp]
    exact_mod_cast Iff.rfl
  have htie : 2 * f = 1 ↔ 2 * (m % 2 ^ k) = 2 ^ k := by
    rw [hf, ← mul_div_assoc, div_eq_one_iff_eq hp.ne']
    exact_mod_cast Iff.rfl
  have hpar : Even (b + m / 2 ^ k) ↔ m / 2 ^ k % 2 = 0 := by
    rw [Nat.even_add, iff_true_left hb, Nat.even_iff]
  unfold roundShift roundsUp
  generalize m / 2 ^ k = q at *
  have hge : v (b + q) ≤ x := by
    rw [hlow, hxf]
    nlinarith
  have hlt : x < v (b + q + 1) := by
    rw [hhigh, hxf]
    nlinarith
  have hsum : v (b + q) + v (b + q + 1) = (2 * q + 1) * u := by
    rw [hlow, hhigh]
    ring
  have htwice : 2 * x = (2 * q + 2 * f) * u := by
    rw [hxf]
    ring
  cases d with
  | towardZero =>
    refine ⟨hge, fun i hi => hv.monotone ?_⟩
    exact Nat.lt_succ_iff.1 (hv.lt_iff_lt.1 (lt_of_le_of_lt hi hlt))
  | away =>
    by_cases hexact : m % 2 ^ k = 0
    · have hx0 : x = v (b + q) := by rw [hlow, hxf, hzero.2 hexact, add_zero]
      simp only [hexact, bne_self_eq_false, Bool.toNat_false, Nat.add_zero]
      exact ⟨hx0.le, fun i hi => hx0 ▸ hi⟩
    · have hpos : 0 < f := lt_of_le_of_ne hf0 (Ne.symm (mt hzero.1 hexact))
      have hgt : v (b + q) < x := by
        rw [hlow, hxf]
        nlinarith
      have hne : (m % 2 ^ k != 0) = true := bne_iff_ne.2 hexact
      simp only [hne, Bool.toNat_true]
      exact ⟨hlt.le, fun i hi => hv.monotone (hv.lt_iff_lt.1 (lt_of_lt_of_le hgt hi))⟩
  | nearest =>
    have hmid : 2 * x = v (b + q) + v (b + q + 1) ↔ 2 * f = 1 := by
      rw [htwice, hsum, mul_left_inj' hu.ne']
      constructor <;> intro h <;> linarith
    by_cases hup : 2 ^ k < 2 * (m % 2 ^ k) ∨ 2 * (m % 2 ^ k) = 2 ^ k ∧ q % 2 = 1
    · have htrue : (decide (2 ^ k < 2 * (m % 2 ^ k)) ||
          (2 * (m % 2 ^ k) == 2 ^ k && q % 2 == 1)) = true := by
        simpa using hup
      simp only [htrue, Bool.toNat_true]
      have hf2 : 1 ≤ 2 * f := by
        rcases hup with h | h
        · exact (hhalf.2 h).le
        · exact (htie.2 h.1).ge
      refine rounds_nearest_upper (n := b + q) hv hlt.le ?_ fun h => ?_
      · rw [hsum, htwice]
        nlinarith
      rcases hup with hgt | ⟨-, hodd⟩
      · have := htie.1 (hmid.1 h)
        omega
      · rw [Nat.even_add_one, hpar]
        omega
    · have hfalse : (decide (2 ^ k < 2 * (m % 2 ^ k)) ||
          (2 * (m % 2 ^ k) == 2 ^ k && q % 2 == 1)) = false := by
        rw [← Bool.not_eq_true]
        simpa using hup
      simp only [hfalse, Bool.toNat_false, Nat.add_zero]
      push Not at hup
      have hf2 : 2 * f ≤ 1 := by
        by_contra h
        exact absurd (hhalf.1 (lt_of_not_ge h)) (not_lt.2 hup.1)
      refine rounds_nearest_lower hv hge ?_ fun h => ?_
      · rw [hsum, htwice]
        nlinarith
      have := hup.2 (htie.1 (hmid.1 h))
      rw [hpar]
      omega

/-- A number without low bits is its own rounding, and no other is. -/
theorem Counted.exact_iff (h : Counted v x u b k m) (d : Direction) :
    v (b + roundShift d k m) = x ↔ m % 2 ^ k = 0 := by
  have hp : (0 : ℚ) < (2 ^ k : ℕ) := by exact_mod_cast Nat.two_pow_pos k
  have hpart := h.part
  constructor
  · intro heq
    by_contra hne
    have hpos : (0 : ℚ) < (m % 2 ^ k : ℕ) / (2 ^ k : ℕ) :=
      div_pos (Nat.cast_pos.2 (Nat.pos_of_ne_zero hne)) hp
    have hone : ((m % 2 ^ k : ℕ) : ℚ) / (2 ^ k : ℕ) < 1 := by
      rw [div_lt_one hp]
      exact_mod_cast Nat.mod_lt m (Nat.two_pow_pos k)
    -- the number is strictly inside a gap
    have hgt : v (b + m / 2 ^ k) < v (b + roundShift d k m) := by
      rw [heq, h.lower, hpart]
      exact mul_lt_mul_of_pos_right (lt_add_of_pos_right _ hpos) h.pos
    have hlt : v (b + roundShift d k m) < v (b + m / 2 ^ k + 1) := by
      rw [heq, h.upper, hpart]
      exact mul_lt_mul_of_pos_right (add_lt_add_right hone _) h.pos
    have hgt' := h.mono.lt_iff_lt.1 hgt
    have hlt' := h.mono.lt_iff_lt.1 hlt
    omega
  · intro hzero
    have hup : roundsUp d k m = false := by
      cases d with
      | nearest =>
        have hpow := Nat.two_pow_pos k
        simp only [roundsUp, hzero, Nat.mul_zero, Bool.or_eq_false_iff, Bool.and_eq_false_iff,
          decide_eq_false_iff_not, beq_eq_false_iff_ne]
        exact ⟨by omega, .inl hpow.ne⟩
      | towardZero => rfl
      | away => rw [roundsUp, hzero, bne_self_eq_false]
    rw [roundShift, hup, Bool.toNat_false, Nat.add_zero, h.lower, hpart, hzero, Nat.cast_zero, zero_div,
      add_zero]

/-- Of a number far below the middle only whether it is zero matters. -/
theorem roundShift_small {j : ℕ} (hj : 2 * m < 2 ^ j) (hk : 2 * m < 2 ^ k) :
    roundShift d k m = roundShift d j m := by
  have hdiv : ∀ {i : ℕ}, 2 * m < 2 ^ i → m / 2 ^ i = 0 ∧ m % 2 ^ i = m := fun hi =>
    ⟨Nat.div_eq_of_lt (by omega), Nat.mod_eq_of_lt (by omega)⟩
  have hup : roundsUp d k m = roundsUp d j m := by
    cases d with
    | nearest => simp [roundsUp, hdiv hj, hdiv hk, hj.not_gt, hk.not_gt]
    | towardZero => rfl
    | away => rw [roundsUp, roundsUp, (hdiv hj).2, (hdiv hk).2]
  rw [roundShift, roundShift, hup, (hdiv hj).1, (hdiv hk).1]

/-- The bits that go are kept as one at the bottom. -/
def jam (j m : ℕ) : ℕ := m / 2 ^ j + if m % 2 ^ j = 0 then 0 else 1 - m / 2 ^ j % 2

/-- The low bits of a jammed number are on the same side of the middle. -/
theorem jam_side {j H : ℕ} (hH : 0 < H) (m : ℕ) :
    jam j m / (4 * H) = m / (2 ^ j * (4 * H)) ∧
      (4 * H < 2 * (jam j m % (4 * H)) ↔ 2 ^ j * (4 * H) < 2 * (m % (2 ^ j * (4 * H)))) ∧
      (2 * (jam j m % (4 * H)) = 4 * H ↔ 2 * (m % (2 ^ j * (4 * H))) = 2 ^ j * (4 * H)) ∧
      (jam j m % (4 * H) = 0 ↔ m % (2 ^ j * (4 * H)) = 0) := by
  have hmod : m % (2 ^ j * (4 * H)) = m % 2 ^ j + 2 ^ j * (m / 2 ^ j % (4 * H)) := Nat.mod_mul
  have hdiv : m / (2 ^ j * (4 * H)) = m / 2 ^ j / (4 * H) := (Nat.div_div_eq_div_mul ..).symm
  unfold jam
  rw [hmod, hdiv]
  have hD := Nat.two_pow_pos j
  have hr := Nat.mod_lt m hD
  generalize m % 2 ^ j = r at *
  generalize m / 2 ^ j = q at *
  generalize 2 ^ j = D at *
  have hsplit := Nat.div_add_mod q (4 * H)
  have hs := Nat.mod_lt q (show 0 < 4 * H by omega)
  have hpar : q % 2 = q % (4 * H) % 2 := (Nat.mod_mod_of_dvd q ⟨2 * H, by ring⟩).symm
  rw [hpar]
  -- the quotient of `4 * H` stays, and `b` is added to what is below it
  obtain ⟨b, hb⟩ : ∃ b, b = if r = 0 then 0 else 1 - q % (4 * H) % 2 := ⟨_, rfl⟩
  rw [← hb]
  have hlt : q % (4 * H) + b < 4 * H := by
    rw [hb]
    split_ifs <;> omega
  have hjam : q + b = 4 * H * (q / (4 * H)) + (q % (4 * H) + b) := by omega
  have hquot : (q + b) / (4 * H) = q / (4 * H) := by
    rw [hjam, Nat.mul_add_div (by omega), Nat.div_eq_of_lt hlt, Nat.add_zero]
  have hrem : (q + b) % (4 * H) = q % (4 * H) + b := by
    rw [hjam, Nat.mul_add_mod, Nat.mod_eq_of_lt hlt]
  rw [hquot, hrem]
  generalize q % (4 * H) = s at *
  have hfour : D * (4 * H) = 2 * (D * (2 * H)) := by ring
  rw [hfour]
  rcases Nat.eq_zero_or_pos r with hr0 | hrpos
  · rw [if_pos hr0] at hb
    rw [hb, hr0, Nat.zero_add, Nat.add_zero]
    refine ⟨rfl, ?_, ?_, ?_⟩
    · rw [Nat.mul_lt_mul_left Nat.two_pos, Nat.mul_lt_mul_left hD]
      omega
    · rw [Nat.mul_left_cancel_iff Nat.two_pos, Nat.mul_left_cancel_iff hD]
      omega
    · rw [Nat.mul_eq_zero, or_iff_right hD.ne']
  · rw [if_neg hrpos.ne'] at hb
    have hup : 2 * H ≤ s → D * (2 * H) ≤ D * s := fun h => Nat.mul_le_mul_left D h
    have hdown : s + 1 ≤ 2 * H → D * (s + 1) ≤ D * (2 * H) := fun h => Nat.mul_le_mul_left D h
    rw [Nat.mul_succ] at hdown
    refine ⟨rfl, ?_, ?_, ?_⟩ <;> omega

/-- Two numbers that are the same above their low bits, which lie alike to the middle. -/
structure SameSide (k m j n : ℕ) : Prop where
  quotient : m / 2 ^ k = n / 2 ^ j
  above : 2 ^ k < 2 * (m % 2 ^ k) ↔ 2 ^ j < 2 * (n % 2 ^ j)
  middle : 2 * (m % 2 ^ k) = 2 ^ k ↔ 2 * (n % 2 ^ j) = 2 ^ j
  zero : m % 2 ^ k = 0 ↔ n % 2 ^ j = 0

theorem SameSide.roundShift_eq {j n : ℕ} (h : SameSide k m j n) (d : Direction) :
    roundShift d k m = roundShift d j n := by
  have hup : roundsUp d k m = roundsUp d j n := by
    rw [Bool.eq_iff_iff]
    cases d with
    | nearest => simp only [roundsUp, Bool.or_eq_true, Bool.and_eq_true, decide_eq_true_iff, beq_iff_eq,
        h.quotient, h.above, h.middle]
    | towardZero => rfl
    | away => simp only [roundsUp, bne_iff_ne, ne_eq, h.zero]
  rw [roundShift, roundShift, hup, h.quotient]

theorem SameSide.refl (k m : ℕ) : SameSide k m k m := ⟨rfl, Iff.rfl, Iff.rfl, Iff.rfl⟩

theorem SameSide.trans {j n i l : ℕ} (h : SameSide k m j n) (h' : SameSide j n i l) :
    SameSide k m i l :=
  ⟨h.quotient.trans h'.quotient, h.above.trans h'.above, h.middle.trans h'.middle,
    h.zero.trans h'.zero⟩

/-- More low bits: those above decide, and then whether there is anything below. -/
theorem SameSide.widen {j n : ℕ} (h : SameSide k m j n) (i : ℕ) :
    SameSide (k + i) m (j + i) n := by
  rcases i with - | i
  · exact h
  have hhalf : ∀ a b : ℕ, (2 ^ (b + (i + 1)) < 2 * (a % 2 ^ (b + (i + 1))) ↔
        2 ^ i < a / 2 ^ b % 2 ^ (i + 1) ∨ a / 2 ^ b % 2 ^ (i + 1) = 2 ^ i ∧ a % 2 ^ b ≠ 0) ∧
      (2 * (a % 2 ^ (b + (i + 1))) = 2 ^ (b + (i + 1)) ↔
        a / 2 ^ b % 2 ^ (i + 1) = 2 ^ i ∧ a % 2 ^ b = 0) ∧
      (a % 2 ^ (b + (i + 1)) = 0 ↔ a / 2 ^ b % 2 ^ (i + 1) = 0 ∧ a % 2 ^ b = 0) := by
    intro a b
    have hr := Nat.mod_lt a (Nat.two_pow_pos b)
    have hpow : 2 ^ (b + (i + 1)) = 2 * (2 ^ b * 2 ^ i) := by ring
    have hmod : a % 2 ^ (b + (i + 1)) = a % 2 ^ b + 2 ^ b * (a / 2 ^ b % 2 ^ (i + 1)) := by
      rw [Nat.pow_add, Nat.mod_mul]
    rw [hmod, hpow]
    have hb := Nat.two_pow_pos b
    generalize a / 2 ^ b % 2 ^ (i + 1) = t
    generalize a % 2 ^ b = r at *
    generalize 2 ^ b = B at *
    have hzero : B * t = 0 ↔ t = 0 := by rw [Nat.mul_eq_zero, or_iff_right hb.ne']
    rcases lt_trichotomy t (2 ^ i) with hlt | heq | hgt
    · have hmul : B * (t + 1) ≤ B * 2 ^ i := Nat.mul_le_mul_left B hlt
      rw [Nat.mul_succ] at hmul
      refine ⟨?_, ?_, ?_⟩ <;> omega
    · have hmul : B * t = B * 2 ^ i := congrArg (B * ·) heq
      refine ⟨?_, ?_, ?_⟩ <;> omega
    · have hmul : B * (2 ^ i + 1) ≤ B * t := Nat.mul_le_mul_left B hgt
      rw [Nat.mul_succ] at hmul
      refine ⟨?_, ?_, ?_⟩ <;> omega
  refine ⟨?_, ?_, ?_, ?_⟩
  · rw [Nat.pow_add 2 k, Nat.pow_add 2 j, ← Nat.div_div_eq_div_mul, ← Nat.div_div_eq_div_mul, h.quotient]
  · rw [(hhalf m k).1, (hhalf n j).1, h.quotient, ne_eq, h.zero]
  · rw [(hhalf m k).2.1, (hhalf n j).2.1, h.quotient, h.zero]
  · rw [(hhalf m k).2.2, (hhalf n j).2.2, h.quotient, h.zero]

/-- Nothing is changed below. -/
theorem SameSide.add {j n : ℕ} (h : SameSide k m j n) (c : ℕ) :
    SameSide k (m + c * 2 ^ k) j (n + c * 2 ^ j) := by
  obtain ⟨hq, hgt, heq, hzero⟩ := h
  refine ⟨?_, ?_, ?_, ?_⟩
  · rw [Nat.add_mul_div_right _ _ (Nat.two_pow_pos k), Nat.add_mul_div_right _ _ (Nat.two_pow_pos j), hq]
  all_goals rwa [Nat.add_mul_mod_self_right, Nat.add_mul_mod_self_right]

/-- Zeros are put below. -/
theorem SameSide.shift (k m t : ℕ) : SameSide k m (k + t) (m * 2 ^ t) := by
  have hpos := Nat.two_pow_pos t
  have hcomm : ∀ a : ℕ, 2 * (a * 2 ^ t) = 2 * a * 2 ^ t := fun a => (Nat.mul_assoc ..).symm
  refine ⟨?_, ?_, ?_, ?_⟩
  · rw [Nat.pow_add, Nat.mul_div_mul_right _ _ hpos]
  · rw [Nat.pow_add, Nat.mul_mod_mul_right, hcomm, Nat.mul_lt_mul_right hpos]
  · rw [Nat.pow_add, Nat.mul_mod_mul_right, hcomm, Nat.mul_left_inj hpos.ne']
  · rw [Nat.pow_add, Nat.mul_mod_mul_right, Nat.mul_eq_zero, or_iff_left hpos.ne']

theorem SameSide.symm {j n : ℕ} (h : SameSide k m j n) : SameSide j n k m :=
  ⟨h.quotient.symm, h.above.symm, h.middle.symm, h.zero.symm⟩

theorem jam_sameSide (hk : 2 ≤ k) (j m : ℕ) : SameSide k (jam j m) (k + j) m := by
  obtain ⟨i, rfl⟩ : ∃ i, k = i + 2 := ⟨k - 2, by omega⟩
  have hfour : 2 ^ (i + 2) = 4 * 2 ^ i := by rw [Nat.pow_add, Nat.mul_comm]
  have hpow : 2 ^ (i + 2 + j) = 2 ^ j * (4 * 2 ^ i) := by rw [Nat.pow_add, Nat.mul_comm, hfour]
  obtain ⟨hq, hgt, heq, hzero⟩ := jam_side (j := j) (Nat.two_pow_pos i) m
  refine ⟨?_, ?_, ?_, ?_⟩ <;> rw [hpow, hfour]
  · exact hq
  · exact hgt
  · exact heq
  · exact hzero

/-- Jammed bits round like the bits themselves. -/
theorem roundShift_jam (d : Direction) (hk : 2 ≤ k) (j m : ℕ) :
    roundShift d k (jam j m) = roundShift d (k + j) m := (jam_sameSide hk j m).roundShift_eq d

theorem jam_mod (hk : 2 ≤ k) (j m : ℕ) : jam j m % 2 ^ k = 0 ↔ m % 2 ^ (k + j) = 0 :=
  (jam_sameSide hk j m).zero

theorem jam_lt {j t : ℕ} (ht : 0 < t) (h : m < 2 ^ (j + t)) : jam j m < 2 ^ t := by
  have heven : 2 ^ t = 2 * 2 ^ (t - 1) := by rw [← Nat.pow_succ', Nat.succ_eq_add_one, Nat.sub_add_cancel ht]
  have hq : m / 2 ^ j < 2 ^ t := by
    rw [Nat.div_lt_iff_lt_mul (Nat.two_pow_pos j), ← Nat.pow_add, Nat.add_comm t j]
    exact h
  unfold jam
  split_ifs <;> omega

theorem jam_zero (m : ℕ) : jam 0 m = m := by
  rw [jam, Nat.pow_zero, Nat.div_one, Nat.mod_one, if_pos rfl, Nat.add_zero]

theorem jam_le (j m : ℕ) : jam j m ≤ m := by
  have hsplit := Nat.div_add_mod m (2 ^ j)
  have hle : m / 2 ^ j ≤ 2 ^ j * (m / 2 ^ j) := Nat.le_mul_of_pos_left _ (Nat.two_pow_pos j)
  unfold jam
  split_ifs <;> omega

/-- A jammed number that is subtracted is the jammed difference. -/
theorem jam_sub {A j : ℕ} (hA : A % 2 = 0) (h : m ≤ A * 2 ^ j) :
    jam j (A * 2 ^ j - m) = A - jam j m := by
  have hp := Nat.two_pow_pos j
  have hsplit := Nat.div_add_mod' m (2 ^ j)
  have hr := Nat.mod_lt m hp
  have hq : m / 2 ^ j ≤ A := by
    rw [← Nat.mul_div_cancel A hp]
    exact Nat.div_le_div_right h
  obtain ⟨d, hd⟩ : ∃ d, A = m / 2 ^ j + d := ⟨A - m / 2 ^ j, by omega⟩
  have hmul : A * 2 ^ j = m / 2 ^ j * 2 ^ j + d * 2 ^ j := by rw [hd, Nat.add_mul]
  unfold jam
  by_cases hexact : m % 2 ^ j = 0
  · have hdiff : A * 2 ^ j - m = d * 2 ^ j := by omega
    rw [hdiff, Nat.mul_div_cancel _ hp, Nat.mul_mod_left, if_pos rfl, if_pos hexact]
    omega
  · obtain ⟨e, he⟩ : ∃ e, d = e + 1 := by
      refine ⟨d - 1, ?_⟩
      have hne : d ≠ 0 := by
        rintro rfl
        omega
      omega
    have hdiff : A * 2 ^ j - m = 2 ^ j - m % 2 ^ j + e * 2 ^ j := by
      rw [he, Nat.succ_mul] at hmul
      omega
    have hmod : (2 ^ j - m % 2 ^ j) % 2 ^ j = 2 ^ j - m % 2 ^ j := Nat.mod_eq_of_lt (by omega)
    rw [hdiff, Nat.add_mul_div_right _ _ hp, Nat.add_mul_mod_self_right, hmod,
      Nat.div_eq_of_lt (by omega), Nat.zero_add, if_neg (by omega), if_neg hexact]
    omega

/-- Zeros at the bottom can go first. -/
theorem jam_add_mul (j t : ℕ) : jam (j + t) (m * 2 ^ t) = jam j m := by
  have hp := Nat.two_pow_pos t
  unfold jam
  rw [Nat.pow_add, Nat.mul_div_mul_right _ _ hp, Nat.mul_mod_mul_right]
  exact congrArg _ (if_congr (by rw [Nat.mul_eq_zero, or_iff_left hp.ne']) rfl rfl)

theorem jam_mul_two_pow (j : ℕ) : jam j (m * 2 ^ j) = m := by
  rw [jam, Nat.mul_div_cancel _ (Nat.two_pow_pos j), Nat.mul_mod_left, if_pos rfl, Nat.add_zero]

theorem jam_eq_zero (j : ℕ) : jam j m = 0 ↔ m = 0 := by
  unfold jam
  have hsplit := Nat.div_add_mod m (2 ^ j)
  constructor
  · intro h
    obtain ⟨hq, hlow⟩ := Nat.add_eq_zero_iff.1 h
    rw [hq] at hsplit hlow
    split_ifs at hlow with hr
    rw [← hsplit, hr, Nat.mul_zero]
  · rintro rfl
    rw [Nat.zero_div, Nat.zero_mod, if_pos rfl]

theorem toNat_roundsUp_nearest (k m : ℕ) :
    (roundsUp .nearest k m).toNat
      = if 2 ^ k < 2 * (m % 2 ^ k) ∨ 2 * (m % 2 ^ k) = 2 ^ k ∧ m / 2 ^ k % 2 = 1 then 1 else 0 := by
  rw [roundsUp]
  by_cases hlt : 2 ^ k < 2 * (m % 2 ^ k) <;> by_cases heq : 2 * (m % 2 ^ k) = 2 ^ k <;>
    by_cases hodd : m / 2 ^ k % 2 = 1 <;> simp [hlt, heq, hodd]

/-- An increment of half the gap, and the clearing of the low bit in the middle. -/
theorem roundShift_nearest (hk : 0 < k) (m : ℕ) :
    roundShift .nearest k m = (m + 2 ^ (k - 1)) / 2 ^ k
      - if m % 2 ^ k = 2 ^ (k - 1) then (m + 2 ^ (k - 1)) / 2 ^ k % 2 else 0 := by
  obtain ⟨i, rfl⟩ : ∃ i, k = i + 1 := ⟨k - 1, by omega⟩
  have hpow : 2 ^ (i + 1) = 2 * 2 ^ i := Nat.pow_succ'
  have hp := Nat.two_pow_pos i
  have hr := Nat.mod_lt m (Nat.two_pow_pos (i + 1))
  have hsplit := Nat.div_add_mod m (2 ^ (i + 1))
  have hquot : (m + 2 ^ i) / 2 ^ (i + 1) = m / 2 ^ (i + 1) + if 2 ^ i ≤ m % 2 ^ (i + 1) then 1 else 0 := by
    conv_lhs => rw [← hsplit]
    rw [Nat.add_assoc, Nat.mul_add_div (Nat.two_pow_pos (i + 1))]
    congr 1
    split_ifs with h
    · exact Nat.div_eq_of_lt_le (by omega) (by omega)
    · exact Nat.div_eq_of_lt (by omega)
  rw [Nat.add_sub_cancel, hquot, roundShift, toNat_roundsUp_nearest]
  clear hquot hsplit
  generalize m / 2 ^ (i + 1) = q
  generalize m % 2 ^ (i + 1) = r at hr ⊢
  rw [hpow] at hr ⊢
  generalize 2 ^ i = H at *
  split_ifs <;> omega

theorem roundShift_away (k m : ℕ) : roundShift .away k m = (m + (2 ^ k - 1)) / 2 ^ k := by
  have hp := Nat.two_pow_pos k
  have hr := Nat.mod_lt m hp
  have hsplit := Nat.div_add_mod m (2 ^ k)
  rw [roundShift, roundsUp]
  conv_rhs => rw [← hsplit]
  rw [Nat.add_assoc, Nat.mul_add_div hp]
  congr 1
  by_cases h : m % 2 ^ k = 0
  · rw [h, Nat.div_eq_of_lt (by omega)]
    rfl
  · rw [show (m % 2 ^ k != 0) = true from bne_iff_ne.2 h, Bool.toNat_true]
    exact (Nat.div_eq_of_lt_le (by omega) (by omega)).symm

theorem roundShift_towardZero (k m : ℕ) : roundShift .towardZero k m = m / 2 ^ k := rfl

end

/-! ## Binary formats -/

/-- The value of the pattern of a positive number with `p` bits of fraction: the upper bits are
    the exponent, and the smallest numbers are multiples of `2 ^ e`. -/
def magnitude (p : ℕ) (e : ℤ) (n : ℕ) : ℚ :=
  scaled (if n / 2 ^ p = 0 then n else 2 ^ p + n % 2 ^ p) (e + ((n / 2 ^ p - 1 : ℕ) : ℤ))

section
variable {p : ℕ} {e : ℤ}

/-- The numbers of one exponent, with those at both ends. -/
theorem magnitude_segment {E q : ℕ} (hq : q ≤ 2 ^ (p + 1)) (h : E = 0 ∨ 2 ^ p ≤ q) :
    magnitude p e (E * 2 ^ p + q) = scaled q (e + E) := by
  have hp := Nat.two_pow_pos p
  have hpow : 2 ^ (p + 1) = 2 * 2 ^ p := Nat.pow_succ'
  unfold magnitude
  rcases Nat.lt_or_ge q (2 ^ p) with hlow | hge
  · have hE : E = 0 := h.resolve_right (Nat.not_le.2 hlow)
    rw [hE, Nat.zero_mul, Nat.zero_add, Nat.div_eq_of_lt hlow, if_pos rfl]
  rcases Nat.lt_or_ge q (2 ^ (p + 1)) with hmid | htop
  · obtain ⟨r, rfl⟩ : ∃ r, q = 2 ^ p + r := ⟨q - 2 ^ p, by omega⟩
    have hsum : E * 2 ^ p + (2 ^ p + r) = r + (E + 1) * 2 ^ p := by ring
    have hr : r < 2 ^ p := by omega
    rw [hsum, Nat.add_mul_div_right _ _ hp, Nat.div_eq_of_lt hr, Nat.zero_add,
      if_neg (Nat.succ_ne_zero E), Nat.add_mul_mod_self_right, Nat.mod_eq_of_lt hr, Nat.add_sub_cancel]
  · have hq2 : q = 2 ^ (p + 1) := Nat.le_antisymm hq htop
    have hsum : E * 2 ^ p + 2 ^ (p + 1) = 0 + (E + 2) * 2 ^ p := by ring
    rw [hq2, hsum, Nat.add_mul_div_right _ _ hp, Nat.zero_div, Nat.zero_add,
      if_neg (Nat.succ_ne_zero _), Nat.add_mul_mod_self_right, Nat.zero_mod, Nat.add_zero]
    unfold scaled
    rw [natCast_two_pow, natCast_two_pow]
    congr 1
    omega

/-- Every pattern is one of an exponent. -/
theorem pattern_split (p n : ℕ) :
    ∃ E q, n = E * 2 ^ p + q ∧ q < 2 ^ (p + 1) ∧ (E = 0 ∨ 2 ^ p ≤ q) := by
  have hp := Nat.two_pow_pos p
  have hpow : 2 ^ (p + 1) = 2 * 2 ^ p := Nat.pow_succ'
  have hr := Nat.mod_lt n hp
  have hsplit := Nat.div_add_mod' n (2 ^ p)
  rcases Nat.eq_zero_or_pos (n / 2 ^ p) with h | h
  · rw [h] at hsplit
    exact ⟨0, n, by omega, by omega, .inl rfl⟩
  · obtain ⟨E, hE⟩ : ∃ E, n / 2 ^ p = E + 1 := ⟨n / 2 ^ p - 1, by omega⟩
    rw [hE, Nat.succ_mul] at hsplit
    exact ⟨E, 2 ^ p + n % 2 ^ p, by omega, by omega, .inr (by omega)⟩

theorem strictMono_magnitude (p : ℕ) (e : ℤ) : StrictMono (magnitude p e) := by
  refine strictMono_nat_of_lt_succ fun n => ?_
  obtain ⟨E, q, rfl, hq, h⟩ := pattern_split p n
  rw [magnitude_segment hq.le h, Nat.add_assoc,
    magnitude_segment hq (h.imp_right fun hle => Nat.le_succ_of_le hle)]
  exact mul_lt_mul_of_pos_right (Nat.cast_lt.2 (Nat.lt_succ_self q)) (two_zpow_pos _)

end

end Rounding
