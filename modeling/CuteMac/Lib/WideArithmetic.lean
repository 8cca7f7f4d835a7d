/-
  Sums and differences of numbers that are made of units, with the flags of the last unit.

  Where a number has `2 * h` values, its upper half is negative (`signed`).

  * `Operation`, `Result`: a result with the carry or borrow that comes in and the one that goes out;
  * `Result.append`: the results of the lower units and of the upper one;
  * `Result.carry_iff`, `Result.overflow_iff`: what goes out and overflow, by the upper halves;
  * `Result.overflow_append`: the overflow of the whole is that of its upper unit;
  * `Result.lt_iff`, `Result.signed_lt_iff`: comparisons.
-/
import Mathlib.Tactic.Ring
import Mathlib.Tactic.Linarith
import Mathlib.Tactic.SplitIfs

namespace WideArithmetic

/-- The value in two's complement. -/
def signed (h x : Nat) : Int := if x < h then x else x - 2 * h

inductive Operation where
  | sum
  | difference
  deriving DecidableEq, Repr

namespace Operation

/-- The value itself, where `b` comes in. -/
def exact (k : Operation) (dst src : Int) (b : Nat) : Int :=
  match k with
  | sum => dst + src + b
  | difference => dst - src - b

/-- `r` is the value up to the `c` times `p` that goes out. -/
def Equation (k : Operation) (p dst src b r c : Nat) : Prop :=
  match k with
  | sum => r + p * c = dst + src + b
  | difference => r + src + b = dst + p * c

/-- What goes out, by the upper halves. -/
def Carries (k : Operation) (h dst src r : Nat) : Prop :=
  match k with
  | sum => (h ≤ src ∧ h ≤ dst) ∨ (¬ h ≤ r ∧ (h ≤ src ∨ h ≤ dst))
  | difference => (h ≤ src ∧ h ≤ r) ∨ (¬ h ≤ dst ∧ (h ≤ src ∨ h ≤ r))

/-- A sum overflows when both operands are of one half and the result is of the other one; a
    difference, when the operands are of different halves and the result is not of the half of
    the number from which the other one is taken. -/
def Overflows (k : Operation) (h dst src r : Nat) : Prop :=
  match k with
  | sum => (h ≤ src ↔ ¬ h ≤ r) ∧ (h ≤ dst ↔ ¬ h ≤ r)
  | difference => (h ≤ src ↔ ¬ h ≤ dst) ∧ (h ≤ r ↔ ¬ h ≤ dst)

end Operation

/-- A result for numbers below `p`. -/
structure Result (k : Operation) (p dst src b r c : Nat) : Prop where
  value : k.Equation p dst src b r c
  lt : r < p
  carry : c ≤ 1

section
variable {k : Operation} {h p dst src b r c : Nat}

theorem Result.cases (hs : Result k p dst src b r c) : c = 0 ∨ c = 1 := by
  have hc := hs.carry
  omega

/-- The result of no unit at all. -/
theorem Result.empty (hb : b ≤ 1) : Result k 1 0 0 b 0 b := by
  refine ⟨?_, Nat.one_pos, hb⟩
  cases k with
  | sum =>
    show 0 + 1 * b = 0 + 0 + b
    omega
  | difference =>
    show 0 + 0 + b = 0 + 1 * b
    omega

theorem Result.carry_iff (hs : Result k (2 * h) dst src b r c) (hd : dst < 2 * h) (hsrc : src < 2 * h)
    (hb : b ≤ 1) : c = 1 ↔ k.Carries h dst src r := by
  have hcases := hs.cases
  obtain ⟨hv, hr, -⟩ := hs
  cases k with
  | sum =>
    unfold Operation.Equation at hv
    unfold Operation.Carries
    rcases hcases with rfl | rfl <;> omega
  | difference =>
    unfold Operation.Equation at hv
    unfold Operation.Carries
    rcases hcases with rfl | rfl <;> omega

theorem Result.overflow_iff (hs : Result k (2 * h) dst src b r c) (hd : dst < 2 * h)
    (hsrc : src < 2 * h) (hb : b ≤ 1) :
    signed h r ≠ k.exact (signed h dst) (signed h src) b ↔ k.Overflows h dst src r := by
  have hcases := hs.cases
  obtain ⟨hv, hr, -⟩ := hs
  unfold signed Operation.exact Operation.Overflows
  cases k with
  | sum =>
    unfold Operation.Equation at hv
    simp only
    rcases hcases with rfl | rfl <;> split_ifs <;> omega
  | difference =>
    unfold Operation.Equation at hv
    simp only
    rcases hcases with rfl | rfl <;> split_ifs <;> omega

/-! ## Comparisons -/

theorem Result.lt_iff (hs : Result .difference p dst src 0 r c) : c = 1 ↔ dst < src := by
  have hcases := hs.cases
  obtain ⟨hv, hr, -⟩ := hs
  unfold Operation.Equation at hv
  simp only at hv
  rcases hcases with rfl | rfl <;> omega

theorem Result.eq_iff (hs : Result .difference p dst src 0 r c) (hsrc : src < p) :
    r = 0 ↔ dst = src := by
  have hcases := hs.cases
  obtain ⟨hv, hr, -⟩ := hs
  unfold Operation.Equation at hv
  simp only at hv
  rcases hcases with rfl | rfl <;> omega

/-- Negative without overflow, or the other way around. -/
theorem Result.signed_lt_iff (hs : Result .difference (2 * h) dst src 0 r c) (hd : dst < 2 * h)
    (hsrc : src < 2 * h) :
    (h ≤ r ↔ ¬ signed h r ≠ Operation.difference.exact (signed h dst) (signed h src) 0) ↔
      signed h dst < signed h src := by
  rw [hs.overflow_iff hd hsrc (Nat.zero_le 1)]
  have hcases := hs.cases
  obtain ⟨hv, hr, -⟩ := hs
  unfold Operation.Equation at hv
  unfold signed Operation.Overflows
  simp only at hv ⊢
  rcases hcases with rfl | rfl <;> split_ifs <;> omega

end

/-! ## Units -/

section
variable {k : Operation} {h p q dst src b r c dst' src' r' c' : Nat}

/-- The half of a number is that of its upper unit. -/
theorem half_append {x low : Nat} (hl : low < p) : h * p ≤ x * p + low ↔ h ≤ x := by
  constructor
  · intro hle
    by_contra hlt
    have hsucc : (x + 1) * p ≤ h * p := Nat.mul_le_mul_right p (by omega)
    rw [Nat.succ_mul] at hsucc
    omega
  · intro hle
    have hmul := Nat.mul_le_mul_right p hle
    omega

theorem lt_append {x low : Nat} (hx : x < q) (hl : low < p) : x * p + low < q * p := by
  have hsucc : (x + 1) * p ≤ q * p := Nat.mul_le_mul_right p (by omega)
  rw [Nat.succ_mul] at hsucc
  omega

/-- What goes out of the lower units comes into the upper one. -/
theorem Result.append (hlow : Result k p dst' src' b r' c) (hs : Result k q dst src c r c') :
    Result k (q * p) (dst * p + dst') (src * p + src') b (r * p + r') c' := by
  refine ⟨?_, lt_append hs.lt hlow.lt, hs.carry⟩
  have hv := hs.value
  have hl := hlow.value
  cases k with
  | sum =>
    unfold Operation.Equation at hv hl ⊢
    simp only at hv hl ⊢
    have hmul := congrArg (· * p) hv
    simp only [Nat.add_mul] at hmul
    nlinarith
  | difference =>
    unfold Operation.Equation at hv hl ⊢
    simp only at hv hl ⊢
    have hmul := congrArg (· * p) hv
    simp only [Nat.add_mul] at hmul
    nlinarith

/-- The whole overflows where its upper unit does. -/
theorem Result.overflow_append (hlow : Result k p dst' src' b r' c)
    (hs : Result k (2 * h) dst src c r c') (hb : b ≤ 1) (hd : dst < 2 * h) (hsrc : src < 2 * h)
    (hdl : dst' < p) (hsl : src' < p) :
    signed (h * p) (r * p + r')
        ≠ k.exact (signed (h * p) (dst * p + dst')) (signed (h * p) (src * p + src')) b ↔
      signed h r ≠ k.exact (signed h dst) (signed h src) c := by
  have hwide := hlow.append hs
  have hdw := lt_append hd hdl
  have hsw := lt_append hsrc hsl
  rw [Nat.mul_assoc] at hwide hdw hsw
  rw [hwide.overflow_iff hdw hsw hb, hs.overflow_iff hd hsrc hlow.carry]
  unfold Operation.Overflows
  rw [half_append hlow.lt, half_append hdl, half_append hsl]

theorem append_eq_zero {x low : Nat} (hp : 0 < p) : x * p + low = 0 ↔ x = 0 ∧ low = 0 := by
  rw [Nat.add_eq_zero_iff, Nat.mul_eq_zero]
  constructor
  · rintro ⟨hx | hp', hl⟩
    · exact ⟨hx, hl⟩
    · omega
  · rintro ⟨hx, hl⟩
    exact ⟨.inl hx, hl⟩

end

end WideArithmetic
