/-
  FGETEXP, FGETMAN and FSCALE, which edit the exponent field (`m68kfpu.c`).

  * `Exact`: what the conversions and the library do for these operations;
  * `Executes`: an instruction with extended rounding precision, its operands and its result;
  * `Splits`: a mantissa and an exponent that make up a number;
  * `exponent_operations_iff`: for which operands the operations are exact.

  A denormal number has its exponent field edited like any other, without a mantissa that
  has its leading bit; so has an infinity that is scaled down.
-/
import CuteMac.Fpu.ExceptionStatus
import CuteMac.Fpu.ExtendedNumber

namespace CuteMac.Fpu

open ByteMemory M68kiCpu Outcome Scaled

/-! ## The operands and the result -/

/-- A double that has been widened. -/
def IsDouble (x : Floatx80) : Prop :=
  x.exponent = 0 ∧ x.low = 0 ∨
    (0x3bcd ≤ x.exponent.toNat ∧ x.exponent.toNat ≤ 0x43fe) ∧ 2 ^ 63 ≤ x.low.toNat ∨
    x.exponent = 0x7fff

/-- The conversions are exact, and the library computes with doubles and keeps what is not a
    number. -/
structure Exact (arith : SoftFloat) : Prop where
  toInt32 : arith.floatx80ToInt32RoundToZero = floatx80ToInt32RoundToZero
  ofInt16 : ∀ n, (arith.int16ToFloatx80 n).Finite ∧
    (arith.int16ToFloatx80 n).value = (n.toInt16.toInt : ℚ)
  ldexp_double : ∀ mode x n, IsDouble (arith.ldexp mode x n).1
  ldexp_special : ∀ mode x n, x.exponent = 0x7fff → (arith.ldexp mode x n).1.exponent = 0x7fff

/-- The next instruction is this operation on a register `x` and a source, with extended
    rounding precision, and leaves `result` in the register. -/
structure Executes (arith : SoftFloat) (s : M68kiCpu) (opmode : Nat) (x source result : Floatx80) :
    Prop where
  operation : ∃ i, s.operation arith = some i ∧ i.opmode = opmode ∧ i.source = source ∧
    s.fp i.dst = x ∧ (s.execute arith).fp i.dst = result
  precision : s.rounding (s.readImm16.1 &&& 0x7f) = 0

section
variable {arith : SoftFloat} {s : M68kiCpu} {x y source m e r d : Floatx80}

/-- Without a shorter precision the register has what the operation gives. -/
theorem Executes.result_eq {opmode : Nat} {f : UInt32 → Floatx80 × UInt8}
    (h : Executes arith s opmode x source r)
    (hf : ∀ mode dst (o : Outcome), o.fp dst = x →
      operate arith mode opmode dst source o = some (o.plain dst (f mode))) :
    r = (f s.floatRoundingMode).1 := by
  obtain ⟨i, hi, rfl, rfl, hx, rfl⟩ := h.operation
  obtain ⟨u, hfpcr, hexec⟩ := execute_operation hi (hf s.floatRoundingMode i.dst _ hx)
  have hround : u.rounding (s.readImm16.1 &&& 0x7f) = 0 := by
    rw [← h.precision]
    unfold rounding
    rw [hfpcr]
  rw [hexec, hround]
  exact Function.update_self i.dst _ s.fp

theorem Executes.getman (h : Executes arith s 0x1f d x m) :
    m = if x.exponent ≠ 0 ∨ x.low ≠ 0 then ⟨(x.high &&& 0x8000) ||| 0x3fff, x.low⟩ else x :=
  h.result_eq (f := fun _ =>
    (if x.exponent ≠ 0 ∨ x.low ≠ 0 then ⟨(x.high &&& 0x8000) ||| 0x3fff, x.low⟩ else x, 0))
    fun _ _ _ _ => rfl

theorem Executes.getexp (h : Executes arith s 0x1e d x e) :
    e = arith.int16ToFloatx80 (x.exponent - 0x3fff) :=
  h.result_eq (f := fun _ => (arith.int16ToFloatx80 (x.exponent - 0x3fff), 0)) fun _ _ _ _ => rfl

theorem Executes.scale (h : Executes arith s 0x26 y source r) :
    r = (scale arith s.floatRoundingMode y source).1 :=
  h.result_eq (f := fun mode => Fpu.scale arith mode y source) fun mode dst o hy => by
    rw [← hy]
    rfl

/-! ## Mantissa and exponent -/

/-- A mantissa from 1 to 2 with the sign of a number, and the integer that makes it the number. -/
structure Splits (x m e : Floatx80) : Prop where
  sign : m.negative = x.negative
  finite : m.Finite ∧ e.Finite
  mantissa : 1 ≤ |m.value| ∧ |m.value| < 2
  exponent : ∃ k : ℤ, e.value = k ∧ x.value = m.value * 2 ^ k

theorem value_mul_of_sign (hsign : m.negative = x.negative) (k : ℤ) :
    x.value = m.value * 2 ^ k ↔ |x.value| = |m.value| * 2 ^ k := by
  have hpow := two_zpow_pos k
  cases hx : x.negative with
  | true =>
    rw [abs_value, abs_value, value_of_negative hx, value_of_negative (hsign.trans hx), neg_mul,
      neg_inj]
  | false =>
    rw [abs_value, abs_value, value_of_positive hx, value_of_positive (hsign.trans hx)]

theorem toInt_exponent (x : Floatx80) :
    (x.exponent - 0x3fff).toInt16.toInt = (x.exponent.toNat : ℤ) - 16383 := by
  have hlt := exponent_lt x
  have hcond : (x.exponent - 0x3fff).toInt16.toInt = (x.exponent - 0x3fff).toBitVec.toInt := rfl
  have hsub : (x.exponent - 0x3fff).toBitVec.toNat = (2 ^ 16 - 0x3fff + x.exponent.toNat) % 2 ^ 16 :=
    UInt16.toNat_sub ..
  rw [hcond, BitVec.toInt_eq_toNat_cond, hsub]
  split_ifs <;> omega

theorem splits_iff (harith : Exact arith) {s₁ s₂ : M68kiCpu} {d₁ d₂ : Floatx80}
    (hm : Executes arith s₁ 0x1f d₁ x m) (he : Executes arith s₂ 0x1e d₂ x e) (hfin : x.Finite)
    (hlow : x.low ≠ 0) : Splits x m e ↔ x.Normal := by
  have hm := hm.getman
  rw [if_pos (Or.inr hlow)] at hm
  have hexp : m.exponent = 0x3fff := by
    rw [hm]
    exact exponent_signed _ _ _ (by decide)
  have hsign : m.negative = x.negative := by
    rw [hm]
    exact negative_signed _ _ _ (by decide)
  have hmlow : m.low = x.low := by rw [hm]
  have hmscale : m.scale = -63 := by
    unfold Floatx80.scale
    rw [hexp]
    rfl
  have habs : |m.value| = scaled x.low.toNat (-63) := by rw [abs_value, hmscale, hmlow]
  have hefin : e.Finite ∧ e.value = ((x.exponent.toNat : ℤ) - 16383 : ℤ) := by
    rw [he.getexp]
    refine ⟨(harith.ofInt16 _).1, ?_⟩
    rw [(harith.ofInt16 _).2]
    exact congrArg Int.cast (toInt_exponent x)
  have hnat : x.low.toNat ≠ 0 := fun h0 => hlow (UInt64.toNat_inj.1 h0)
  constructor
  · intro h
    have hint : 2 ^ 63 ≤ x.low.toNat := by
      by_contra hshort
      have hlt := scaled_lt (e := -63) (not_le.1 hshort)
      rw [← habs] at hlt
      exact absurd h.mantissa.1 (not_le.2 hlt)
    obtain ⟨k, hk, hvalue⟩ := h.exponent
    have hk' : k = (x.exponent.toNat : ℤ) - 16383 := Int.cast_injective (hk.symm.trans hefin.2)
    rw [value_mul_of_sign hsign, habs, abs_value, scaled_mul, scaled_inj hnat, hk'] at hvalue
    refine ⟨hfin, fun h0 => ?_, hint⟩
    have hzero := exponent_eq_zero.1 h0
    unfold Floatx80.scale at hvalue
    omega
  · intro h
    refine ⟨hsign, ⟨?_, hefin.1⟩, ⟨?_, ?_⟩, _, hefin.2, ?_⟩
    · rw [finite_iff, hexp]
      decide
    · rw [habs]
      exact le_scaled (e := -63) h.integer
    · rw [habs]
      exact scaled_lt (e := -63) (low_lt x)
    · rw [value_mul_of_sign hsign, habs, abs_value, scaled_mul, scaled_inj hnat]
      have hzero := mt exponent_eq_zero.2 h.exponent
      unfold Floatx80.scale
      omega

/-! ## Scaling -/

/-- The exponent field of a scaled register, as FSCALE adds it up. -/
def scaledExponent (y source : Floatx80) : ℤ := y.exponent.toNat + factor source

theorem scale_eq (harith : Exact arith) (mode : UInt32) (hy : y.exponent ≠ 0 ∨ y.low ≠ 0) :
    (scale arith mode y source).1
      = if 0 < scaledExponent y source ∧ scaledExponent y source < 0x7fff then
          ⟨(y.high &&& 0x8000) ||| UInt16.ofNat (scaledExponent y source).toNat, y.low⟩
        else (arith.ldexp mode y (arith.floatx80ToInt32RoundToZero source).1).1 := by
  have hfactor : (arith.floatx80ToInt32RoundToZero source).1.toInt32.toInt = factor source := by
    rw [harith.toInt32]
    rfl
  unfold scale scaledExponent
  dsimp only
  rw [if_pos hy, hfactor]
  split_ifs <;> rfl

/-- The field that is written into the register. -/
theorem exponent_scaled {k : ℤ} (h : 0 < k ∧ k < 0x7fff) :
    (⟨(y.high &&& 0x8000) ||| UInt16.ofNat k.toNat, y.low⟩ : Floatx80).exponent.toNat = k.toNat := by
  have hnat : (UInt16.ofNat k.toNat).toNat = k.toNat := by
    rw [UInt16.toNat_ofNat']
    omega
  rw [exponent_signed _ _ _ (by omega), hnat]

theorem negative_scaled {k : ℤ} (h : 0 < k ∧ k < 0x7fff) :
    (⟨(y.high &&& 0x8000) ||| UInt16.ofNat k.toNat, y.low⟩ : Floatx80).negative = y.negative := by
  have hnat : (UInt16.ofNat k.toNat).toNat = k.toNat := by
    rw [UInt16.toNat_ofNat']
    omega
  exact negative_signed _ _ _ (by omega)

/-- The numbers that a double can be. -/
theorem double_range (h : IsDouble x) (hfin : x.Finite) :
    |x.value| = 0 ∨ 2 ^ (-1074 : ℤ) ≤ |x.value| ∧ |x.value| < 2 ^ (1024 : ℤ) := by
  rw [abs_value]
  rcases h with ⟨-, hlow⟩ | ⟨hexp, hint⟩ | hspecial
  · left
    rw [hlow]
    unfold scaled
    rw [UInt64.toNat_zero, Nat.cast_zero, zero_mul]
  · right
    have hscale : x.scale = (x.exponent.toNat : ℤ) - 16446 := by
      unfold Floatx80.scale
      omega
    constructor
    · refine le_trans ?_ (le_scaled hint)
      exact zpow_le_zpow_right₀ (by norm_num) (by omega)
    · refine lt_of_lt_of_le (scaled_lt (low_lt x)) ?_
      exact zpow_le_zpow_right₀ (by norm_num) (by omega)
  · exact absurd hspecial hfin

/-- A normal number that is a register times a power of two, and how the exponents then lie. -/
theorem scaled_normal {z : Floatx80} {n : ℤ} (hz : z.Normal) (hlow : y.low ≠ 0)
    (hvalue : z.value = y.value * 2 ^ n) :
    1 ≤ ((max y.exponent.toNat 1 : ℕ) : ℤ) + n ∧
      ((max y.exponent.toNat 1 : ℕ) : ℤ) + n < 64 + 0x7fff := by
  have habs : |z.value| = |y.value| * 2 ^ n := by
    rw [hvalue, abs_mul, abs_of_pos (two_zpow_pos n)]
  rw [abs_value, abs_value, scaled_mul] at habs
  have hpos : 2 ^ 0 ≤ y.low.toNat := Nat.pos_of_ne_zero fun h0 => hlow (UInt64.toNat_inj.1 h0)
  have hbelow := exponents_lt habs hz.integer (low_lt y)
  have habove := exponents_lt habs.symm hpos (low_lt z)
  have hfin := finite_iff.1 hz.finite
  have hexp := mt exponent_eq_zero.2 hz.exponent
  unfold Floatx80.scale at hbelow habove
  omega

/-- FSCALE by an integer gives the number exactly if the register is not denormal, and the field
    does not have to go beyond the normal numbers. -/
theorem scale_integer_iff (harith : Exact arith) (hr : Executes arith s 0x26 y source r)
    (hfin : y.Finite) (hlow : y.low ≠ 0) (hsfin : source.Finite) (hcan : source.Canonical) {n : ℤ}
    (hn : source.value = n) {z : Floatx80} (hz : z.Normal) (hvalue : z.value = y.value * 2 ^ n) :
    (r.Finite ∧ r.value = y.value * 2 ^ n)
      ↔ y.exponent ≠ 0 ∧ (y.exponent.toNat : ℤ) + n < 0x7fff := by
  obtain ⟨hone, htop⟩ := scaled_normal hz hlow hvalue
  have hyfin := finite_iff.1 hfin
  have hfactor : factor source = n := by
    refine factor_of_integer hsfin hcan hn ?_
    rw [abs_lt]
    omega
  have hnat : y.low.toNat ≠ 0 := fun h0 => hlow (UInt64.toNat_inj.1 h0)
  have hpos : 2 ^ 0 ≤ y.low.toNat := Nat.pos_of_ne_zero hnat
  have htarget : |y.value * 2 ^ n| = scaled y.low.toNat (y.scale + n) := by
    rw [abs_mul, abs_of_pos (two_zpow_pos n), abs_value, scaled_mul]
  have hsum : scaledExponent y source = y.exponent.toNat + n := by
    unfold scaledExponent
    rw [hfactor]
  rw [hr.scale, scale_eq harith _ (Or.inr hlow), hsum]
  by_cases hdirect : 0 < (y.exponent.toNat : ℤ) + n ∧ (y.exponent.toNat : ℤ) + n < 0x7fff
  · rw [if_pos hdirect]
    generalize hrdef : (⟨(y.high &&& 0x8000) ||| UInt16.ofNat ((y.exponent.toNat : ℤ) + n).toNat, y.low⟩ : Floatx80) = q
    have hqexp : q.exponent.toNat = ((y.exponent.toNat : ℤ) + n).toNat := by
      rw [← hrdef]
      exact exponent_scaled hdirect
    have hqsign : q.negative = y.negative := by
      rw [← hrdef]
      exact negative_scaled hdirect
    have hqlow : q.low = y.low := by rw [← hrdef]
    have hqabs : |q.value| = scaled y.low.toNat ((y.exponent.toNat : ℤ) + n - 16446) := by
      rw [abs_value, hqlow]
      congr 1
      unfold Floatx80.scale
      omega
    have hqfin : q.Finite := finite_iff.2 (by omega)
    rw [value_mul_of_sign hqsign.symm, hqabs, abs_value, scaled_mul, scaled_inj hnat]
    unfold Floatx80.scale
    rw [ne_eq, exponent_eq_zero]
    constructor
    · rintro ⟨-, hequal⟩
      omega
    · rintro ⟨hexp, -⟩
      exact ⟨hqfin, by omega⟩
  · -- what comes out of the library is a double, and the number is none
    rw [if_neg hdirect]
    rw [ne_eq, exponent_eq_zero]
    refine iff_of_false ?_ fun hcond => by omega
    rintro ⟨hqfin, hqvalue⟩
    have hqabs := congrArg abs hqvalue
    rw [htarget] at hqabs
    rcases double_range (harith.ldexp_double _ _ _) hqfin with hzero | ⟨hsmall, hlarge⟩
    · rw [hqabs] at hzero
      exact absurd hzero (ne_of_gt (scaled_pos hnat))
    · rw [hqabs] at hsmall hlarge
      by_cases hden : (y.exponent.toNat : ℤ) + n ≤ 0
      · have hlt := lt_of_le_of_lt hsmall (scaled_lt (low_lt y))
        have hexp := two_zpow_lt_iff.1 hlt
        unfold Floatx80.scale at hexp
        omega
      · have hlt := lt_of_le_of_lt (le_scaled hpos) hlarge
        have hexp := two_zpow_lt_iff.1 hlt
        unfold Floatx80.scale at hexp
        omega

/-- An infinity or a NaN stays one if it is not scaled down a little. -/
theorem scale_special_iff (harith : Exact arith) (hr : Executes arith s 0x26 y source r)
    (hy : y.exponent = 0x7fff) :
    r.exponent = 0x7fff ↔ 0 ≤ factor source ∨ factor source ≤ -0x7fff := by
  have hexp : y.exponent.toNat = 0x7fff := by rw [hy]; rfl
  have hsum : scaledExponent y source = 0x7fff + factor source := by
    unfold scaledExponent
    rw [hexp]
    rfl
  rw [hr.scale, scale_eq harith _ (Or.inl (by rw [hy]; decide)), hsum]
  by_cases hdirect : 0 < 0x7fff + factor source ∧ 0x7fff + factor source < 0x7fff
  · rw [if_pos hdirect]
    refine iff_of_false (fun hspecial => ?_) (by omega)
    have hnat := exponent_scaled (y := y) hdirect
    rw [hspecial] at hnat
    have hlast : (0x7fff : UInt16).toNat = 0x7fff := rfl
    omega
  · rw [if_neg hdirect]
    exact iff_of_true (harith.ldexp_special _ _ _ hy) (by omega)

theorem factor_bounds (x : Floatx80) : -2 ^ 31 ≤ factor x ∧ factor x < 2 ^ 31 := by
  have hlt := (floatx80ToInt32RoundToZero x).1.toNat_lt
  unfold factor
  rw [toInt_toInt32]
  split_ifs <;> omega

/-- The sum of the exponents, where FSCALE forms it, is a number of 32 bits. -/
def SumFits (y source : Floatx80) : Prop :=
  y.exponent ≠ 0 ∨ y.low ≠ 0 → -2 ^ 31 ≤ scaledExponent y source ∧ scaledExponent y source < 2 ^ 31

theorem sumFits_iff (y source : Floatx80) :
    SumFits y source ↔ y.exponent = 0 ∨ factor source < 2 ^ 31 - y.exponent.toNat := by
  have hbounds := factor_bounds source
  unfold SumFits scaledExponent
  rw [exponent_eq_zero]
  constructor
  · intro h
    by_cases hexp : y.exponent.toNat = 0
    · exact Or.inl hexp
    · have hsum := h (Or.inl (mt exponent_eq_zero.1 hexp))
      exact Or.inr (by omega)
  · rintro (hexp | hlt) -
    · omega
    · omega

/-- FGETMAN and FGETEXP take a number apart if it is normal; FSCALE by an integer is exact if the
    register is not denormal; an infinity or a NaN stays one if the whole part of the source is
    not between -32767 and 0; and the sum fits 32 bits if the whole part is below `2 ^ 31` by the
    exponent at least. -/
theorem exponent_operations_iff (arith : SoftFloat) (harith : Exact arith) (s₁ s₂ s₃ : M68kiCpu)
    (x y source m e r d₁ d₂ : Floatx80) (hm : Executes arith s₁ 0x1f d₁ x m)
    (he : Executes arith s₂ 0x1e d₂ x e) (hr : Executes arith s₃ 0x26 y source r) :
    (x.Finite → x.low ≠ 0 → (Splits x m e ↔ x.Normal)) ∧
      (∀ (n : ℤ) (z : Floatx80), y.Finite → y.low ≠ 0 → source.Finite → source.Canonical →
        source.value = n → z.Normal → z.value = y.value * 2 ^ n →
        ((r.Finite ∧ r.value = y.value * 2 ^ n)
          ↔ y.exponent ≠ 0 ∧ (y.exponent.toNat : ℤ) + n < 0x7fff)) ∧
      (y.exponent = 0x7fff →
        (r.exponent = 0x7fff ↔ 0 ≤ factor source ∨ factor source ≤ -0x7fff)) ∧
      (SumFits y source ↔ y.exponent = 0 ∨ factor source < 2 ^ 31 - y.exponent.toNat) :=
  ⟨fun hfin hlow => splits_iff harith hm he hfin hlow,
    fun _ _ hfin hlow hsfin hcan hn hz hvalue =>
      scale_integer_iff harith hr hfin hlow hsfin hcan hn hz hvalue,
    fun hy => scale_special_iff harith hr hy, sumFits_iff y source⟩

end

/-! ## Operands in registers -/

/-- A small integer as an extended number. -/
def widened (n : UInt16) : Floatx80 :=
  let size := n.toInt16.toInt.natAbs
  if size = 0 then ⟨0, 0⟩
  else
    ⟨((if n.toInt16.toInt < 0 then 0x8000 else 0) &&& 0x8000) ||| UInt16.ofNat (0x3fff + Nat.log2 size),
      UInt64.ofNat (size * 2 ^ (63 - Nat.log2 size))⟩

theorem widened_exact (n : UInt16) :
    (widened n).Finite ∧ (widened n).value = (n.toInt16.toInt : ℚ) := by
  have hrange : n.toInt16.toInt.natAbs ≤ 2 ^ 15 := by
    have hcond : n.toInt16.toInt = n.toBitVec.toInt := rfl
    have hlt := n.toBitVec.isLt
    rw [hcond, BitVec.toInt_eq_toNat_cond]
    split_ifs <;> omega
  unfold widened
  dsimp only
  generalize n.toInt16.toInt = v at hrange ⊢
  by_cases hzero : v.natAbs = 0
  · rw [if_pos hzero, Int.natAbs_eq_zero.1 hzero]
    exact ⟨by decide, by simp [Floatx80.value, scaled]⟩
  rw [if_neg hzero]
  have hlog := Nat.log2_self_le hzero
  have hlog' := Nat.lt_log2_self (n := v.natAbs)
  have hbits : Nat.log2 v.natAbs ≤ 15 := by
    by_contra hmore
    have hpow : 2 ^ 16 ≤ 2 ^ Nat.log2 v.natAbs := Nat.pow_le_pow_right (by decide) (by omega)
    omega
  generalize hk : Nat.log2 v.natAbs = k at hlog hlog' hbits ⊢
  have hexp : (UInt16.ofNat (0x3fff + k)).toNat = 0x3fff + k := by
    rw [UInt16.toNat_ofNat']
    omega
  have hlow : (UInt64.ofNat (v.natAbs * 2 ^ (63 - k))).toNat = v.natAbs * 2 ^ (63 - k) := by
    rw [UInt64.toNat_ofNat', Nat.mod_eq_of_lt]
    calc v.natAbs * 2 ^ (63 - k) < 2 ^ (k + 1) * 2 ^ (63 - k) :=
          Nat.mul_lt_mul_of_pos_right hlog' (by positivity)
      _ = 2 ^ 64 := by rw [← Nat.pow_add]; congr 1; omega
  generalize hx : (⟨((if v < 0 then 0x8000 else 0) &&& 0x8000) ||| UInt16.ofNat (0x3fff + k),
    UInt64.ofNat (v.natAbs * 2 ^ (63 - k))⟩ : Floatx80) = x
  have hxexp : x.exponent.toNat = 0x3fff + k := by
    rw [← hx, exponent_signed _ _ _ (by omega), hexp]
  have hxneg : x.negative = decide (v < 0) := by
    rw [← hx, negative_signed _ _ _ (by omega)]
    by_cases hneg : v < 0
    · rw [if_pos hneg, decide_eq_true hneg]
      rfl
    · rw [if_neg hneg, decide_eq_false hneg]
      rfl
  have hsize : scaled x.low.toNat x.scale = v.natAbs := by
    have hscale : x.scale = -((63 - k : ℕ) : ℤ) := by
      unfold Floatx80.scale
      omega
    rw [hscale, ← hx]
    dsimp only
    rw [hlow]
    unfold scaled
    rw [Nat.cast_mul, Nat.cast_pow, Nat.cast_ofNat, mul_assoc, zpow_neg, zpow_natCast,
      mul_inv_cancel₀ (by positivity), mul_one]
  refine ⟨finite_iff.2 (by omega), ?_⟩
  by_cases hneg : v < 0
  · rw [value_of_negative (hxneg.trans (decide_eq_true hneg)), hsize, ← Int.cast_natCast,
      Int.ofNat_natAbs_of_nonpos hneg.le, Int.cast_neg, neg_neg]
  · rw [value_of_positive (hxneg.trans (decide_eq_false hneg)), hsize, ← Int.cast_natCast,
      Int.natAbs_of_nonneg (not_lt.1 hneg)]

/-- The arithmetic of these operations, without a result of the library for a number. -/
def exactArith : SoftFloat :=
  { (default : SoftFloat) with
    floatx80ToInt32RoundToZero := floatx80ToInt32RoundToZero
    int16ToFloatx80 := widened
    ldexp := fun _ x _ => (if x.exponent = 0x7fff then x else ⟨0, 0⟩, 0) }

theorem exact_exactArith : Exact exactArith where
  toInt32 := rfl
  ofInt16 := widened_exact
  ldexp_double _ x _ := by
    show IsDouble (if x.exponent = 0x7fff then x else ⟨0, 0⟩)
    split_ifs with h
    · exact Or.inr (Or.inr h)
    · exact Or.inl ⟨rfl, rfl⟩
  ldexp_special _ x _ h := by
    show (if x.exponent = 0x7fff then x else ⟨0, 0⟩).exponent = 0x7fff
    rw [if_pos h, h]

/-- A register-to-register instruction with 1.5 in FP0 and `x` in the other registers. -/
def registers15 (extension : UInt16) (x : Floatx80) : M68kiCpu where
  d := fun _ => 0
  a := fun _ => 0x8000
  fp := fun i => if i = 0 then ⟨0x3fff, 0xc000000000000000⟩ else x
  fpuModel := .m68882
  pc := 0x1002
  ir := 0xf200
  memory := put (fun _ => 0) 0x1002 (Core.bytesOf extension.toNat 2)

/-- 12 is 1.5 times the third power of two. -/
theorem splits_twelve : Splits ⟨0x4002, 0xc000000000000000⟩ ⟨0x3fff, 0xc000000000000000⟩
    ⟨0x4000, 0xc000000000000000⟩ := by
  have h := exponent_operations_iff exactArith exact_exactArith
    (registers15 0x041f ⟨0x4002, 0xc000000000000000⟩) (registers15 0x041e ⟨0x4002, 0xc000000000000000⟩)
    (registers15 0x0426 ⟨0x4002, 0xc000000000000000⟩)
    ⟨0x4002, 0xc000000000000000⟩ ⟨0x3fff, 0xc000000000000000⟩ ⟨0x4002, 0xc000000000000000⟩
    ⟨0x3fff, 0xc000000000000000⟩ ⟨0x4000, 0xc000000000000000⟩ ⟨0x400b, 0xc000000000000000⟩
    ⟨0x3fff, 0xc000000000000000⟩ ⟨0x3fff, 0xc000000000000000⟩
    ⟨⟨⟨0x1f, 0, ⟨0x4002, 0xc000000000000000⟩, 0⟩, by decide +kernel, rfl, rfl, rfl,
      by decide +kernel⟩, by decide +kernel⟩
    ⟨⟨⟨0x1e, 0, ⟨0x4002, 0xc000000000000000⟩, 0⟩, by decide +kernel, rfl, rfl, rfl,
      by decide +kernel⟩, by decide +kernel⟩
    ⟨⟨⟨0x26, 0, ⟨0x4002, 0xc000000000000000⟩, 0⟩, by decide +kernel, rfl, rfl, rfl,
      by decide +kernel⟩, by decide +kernel⟩
  exact (h.1 (by decide) (by decide)).2 ⟨by decide, by decide, by decide⟩

/-- FGETMAN of a denormal number is below 1. -/
theorem denormal_not_split : ¬ ∀ (arith : SoftFloat), Exact arith → ∀ (s₁ s₂ : M68kiCpu)
    (x m e d₁ d₂ : Floatx80), Executes arith s₁ 0x1f d₁ x m → Executes arith s₂ 0x1e d₂ x e →
    x.Finite → x.low ≠ 0 → Splits x m e := by
  intro h
  have hm : Executes exactArith (registers15 0x041f ⟨0, 0x4000000000000000⟩) 0x1f
      ⟨0x3fff, 0xc000000000000000⟩ ⟨0, 0x4000000000000000⟩ ⟨0x3fff, 0x4000000000000000⟩ :=
    ⟨⟨⟨0x1f, 0, ⟨0, 0x4000000000000000⟩, 0⟩, by decide +kernel, rfl, rfl, rfl, by decide +kernel⟩,
      by decide +kernel⟩
  have he : Executes exactArith (registers15 0x041e ⟨0, 0x4000000000000000⟩) 0x1e
      ⟨0x3fff, 0xc000000000000000⟩ ⟨0, 0x4000000000000000⟩ ⟨0xc00c, 0xfffc000000000000⟩ :=
    ⟨⟨⟨0x1e, 0, ⟨0, 0x4000000000000000⟩, 0⟩, by decide +kernel, rfl, rfl, rfl, by decide +kernel⟩,
      by decide +kernel⟩
  have hsplit := h exactArith exact_exactArith _ _ _ _ _ _ _ hm he (by decide) (by decide)
  have hnormal := (splits_iff exact_exactArith hm he (by decide) (by decide)).1 hsplit
  exact hnormal.exponent rfl

end CuteMac.Fpu
