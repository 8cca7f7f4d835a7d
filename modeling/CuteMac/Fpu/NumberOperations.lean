/-
  The operations on numbers, with their arithmetic (`m68kfpu.c`, `softfloat.c`).

  * `SoftFloat.withArithmetic`: the parameter with the arithmetic of the other modules in it;
  * `LeavesRounded`, `leavesRounded_execute`: FADD, FSUB and FMUL leave the rounding of the exact
    result;
  * `order`: how two numbers compare, and `none` where one of them is not a number;
  * `Tells`: the condition codes of such an outcome;
  * `sub_signs`: the difference has the sign of the comparison, and no numbers but equal ones give
    zero;
  * `Special`: what the arithmetic makes of infinities and of what is not a number;
  * `fcmp_conditions`: after FCMP a condition asks whether the outcome is one of its own.
-/
import CuteMac.Fpu.Addition
import CuteMac.Fpu.ExceptionStatus
import CuteMac.Fpu.IntegerRounding

namespace CuteMac.Fpu

open ByteMemory M68kiCpu Outcome Rounding Scaled

/-- `float_rounding_mode`, by its code. -/
def RoundingMode.ofCode (code : UInt32) : RoundingMode :=
  if code = 0 then .nearestEven else if code = 1 then .toZero else if code = 2 then .down else .up

/-- The parameter with the arithmetic that is modelled in it; the other functions stay open. -/
def SoftFloat.withArithmetic (rest : SoftFloat) : SoftFloat :=
  { rest with
    int32ToFloatx80 := Fpu.int32ToFloatx80
    float32ToFloatx80 := Fpu.float32ToFloatx80
    float64ToFloatx80 := Fpu.float64ToFloatx80
    floatx80ToInt32 := fun mode => Fpu.floatx80ToInt32 (.ofCode mode)
    floatx80ToInt32RoundToZero := Fpu.floatx80ToInt32RoundToZero
    floatx80ToFloat32 := fun mode x =>
      let z := Fpu.floatx80ToFloat32 (.ofCode mode) x
      (z.1.toUInt32, z.2)
    floatx80ToFloat64 := fun mode => Fpu.floatx80ToFloat64 (.ofCode mode)
    binary := fun f mode =>
      match f with
      | .add => floatx80Add (.ofCode mode)
      | .mul => floatx80Mul (.ofCode mode)
      | .sub => floatx80Sub (.ofCode mode)
      | f => rest.binary f mode }

/-! ## Sums, differences and products -/

/-- The result of an operation before it is rounded, and its sign. -/
def exactResult (mode : RoundingMode) (opmode : Nat) (x y : Floatx80) : Bool × ℚ :=
  match opmode with
  | 0x22 => (sumSign mode x.negative y.negative (x.value + y.value), x.value + y.value)
  | 0x23 => (x.negative != y.negative, x.value * y.value)
  | _ => (sumSign mode x.negative (!y.negative) (x.value - y.value), x.value - y.value)

theorem Floatx80.Proper.canonical {x : Floatx80} (h : x.Proper) : x.Canonical := by
  by_cases hexp : x.exponent.toNat = 0
  · exact .inl (exponent_eq_zero.2 hexp)
  · exact .inr (Nat.not_lt.1 (mt h.2 hexp))

theorem computed_rounds (rest : SoftFloat) (mode : UInt32) {opmode : Nat}
    (hop : opmode ∈ [0x22, 0x23, 0x28]) {x y : Floatx80} (hx : x.Finite) (hxp : x.Proper)
    (hy : y.Finite) (hyp : y.Proper) :
    RoundedTo (.ofCode mode) (exactResult (.ofCode mode) opmode x y).1
      |(exactResult (.ofCode mode) opmode x y).2| (computed rest.withArithmetic mode opmode x y) := by
  simp only [List.mem_cons, List.not_mem_nil, or_false] at hop
  rcases hop with rfl | rfl | rfl
  · exact floatx80Add_spec hx hxp hy hyp _
  · exact floatx80Mul_spec _ hx hxp.canonical hy hyp.canonical
  · exact floatx80Sub_spec hx hxp hy hyp _

theorem and_of_masked (f codes : UInt32) {m : UInt32} (hm : ~~~fpccMask &&& m = 0) :
    ((f &&& ~~~fpccMask) ||| codes) &&& m = codes &&& m := by
  rw [or_and_word, UInt32.and_assoc, hm, UInt32.and_zero, UInt32.zero_or]

theorem conditionCodes_masked (x : Floatx80) : conditionCodes x &&& fpccMask = conditionCodes x := by
  unfold conditionCodes
  generalize x.negative = n
  generalize x.isZero = z
  generalize x.isInf = i
  generalize x.isNan = nan
  revert n z i nan
  decide

/-- From `s` the operation `i` leaves the rounding of the exact result in its register, in FPSR the
    exceptions with those that waited and the condition codes, and the other registers as they
    were. -/
def LeavesRounded (s : M68kiCpu) (i : Operation) (t : M68kiCpu) : Prop :=
  ∃ flags,
    RoundedTo (.ofCode s.floatRoundingMode)
      (exactResult (.ofCode s.floatRoundingMode) i.opmode (s.fp i.dst) i.source).1
      |(exactResult (.ofCode s.floatRoundingMode) i.opmode (s.fp i.dst) i.source).2|
      (t.fp i.dst, flags) ∧
    statusByte t.fpsr = exceptionBits (s.floatExceptionFlags ||| i.converted ||| flags) ∧
    t.fpsr &&& fpccMask = conditionCodes (t.fp i.dst) ∧ ∀ r, r ≠ i.dst → t.fp r = s.fp r

section
variable {rest : SoftFloat} {s : M68kiCpu} {i : Operation}
  (hprecision : s.rounding (s.readImm16.1 &&& 0x7f) = 0)
include hprecision

theorem fp_execute {arith : SoftFloat} {o : Outcome} (h : s.operation arith = some i)
    (ho : operate arith s.floatRoundingMode i.opmode i.dst i.source
      ⟨s.fp, s.fpsr, s.floatExceptionFlags ||| i.converted⟩ = some o) :
    (s.execute arith).fp = o.fp := by
  obtain ⟨u, hfpcr, hexec⟩ := execute_operation h ho
  have hround : u.rounding (s.readImm16.1 &&& 0x7f) = 0 := by
    rw [← hprecision]
    unfold M68kiCpu.rounding
    rw [hfpcr]
  rw [hexec, hround]
  rfl

theorem leavesRounded_execute (hi : s.operation rest.withArithmetic = some i)
    (hop : i.opmode ∈ [0x22, 0x23, 0x28]) (hx : (s.fp i.dst).Finite) (hxp : (s.fp i.dst).Proper)
    (hy : i.source.Finite) (hyp : i.source.Proper) :
    LeavesRounded s i (s.execute rest.withArithmetic) := by
  have hr : reportOf i.opmode = some .collected := by
    simp only [List.mem_cons, List.not_mem_nil, or_false] at hop
    rcases hop with h | h | h <;> rw [h] <;> rfl
  have hrounds := computed_rounds rest s.floatRoundingMode hop hx hxp hy hyp
  obtain ⟨z, hz⟩ :
      ∃ z, z = computed rest.withArithmetic s.floatRoundingMode i.opmode (s.fp i.dst) i.source :=
    ⟨_, rfl⟩
  have hfp : (s.execute rest.withArithmetic).fp = Function.update s.fp i.dst z.1 := by
    rw [fp_execute hprecision hi (operate_collected hr), hz]
    rfl
  refine ⟨z.2, ?_, ?_, ?_, fun r hne => ?_⟩
  · rw [hfp, Function.update_self]
    rwa [← hz] at hrounds
  · rw [status_execute hi hr, hz]
    rfl
  · have hfpsr : ∃ f, (s.execute rest.withArithmetic).fpsr
        = (f &&& ~~~fpccMask) ||| conditionCodes z.1 :=
      ⟨_, (fpsr_execute hi (operate_collected hr)).trans (by rw [hz]; rfl)⟩
    obtain ⟨f, hf⟩ := hfpsr
    rw [hfp, Function.update_self, hf, and_of_masked f _ (by decide), conditionCodes_masked]
  · rw [hfp, Function.update_of_ne hne]

end

/-! ## The order of numbers -/

/-- The place of a number among the numbers and the two infinities. -/
def Floatx80.place (x : Floatx80) : WithBot (WithTop ℚ) :=
  if x.isInf then if x.negative then ⊥ else ((⊤ : WithTop ℚ) : WithBot (WithTop ℚ))
  else ((x.value : WithTop ℚ) : WithBot (WithTop ℚ))

/-- How two numbers compare; `none` where one of them is not a number. -/
def order (x y : Floatx80) : Option Ordering :=
  if x.isNan || y.isNan then none else some (cmp x.place y.place)

/-- The bit of a condition's code that is set where the condition holds for the outcome. -/
def conditionBit : Option Ordering → Nat
  | some .eq => 0
  | some .gt => 1
  | some .lt => 2
  | none => 3

/-- The condition codes are those of the outcome; N counts only for two numbers that differ. -/
def Tells (fpsr : UInt32) (r : Option Ordering) : Prop :=
  (fpsr &&& 0x04000000 != 0) = (r == some .eq) ∧ (fpsr &&& 0x01000000 != 0) = (r == none) ∧
    (r = some .lt → (fpsr &&& 0x08000000 != 0) = true) ∧
    (r = some .gt → (fpsr &&& 0x08000000 != 0) = false)

theorem testCondition_of_tells {s : M68kiCpu} {r : Option Ordering} (h : Tells s.fpsr r) {c : UInt16}
    (hc : c < 0x20) : (s.testCondition c).1 = c.toNat.testBit (conditionBit r) := by
  have hlow : c.toNat.testBit (conditionBit r) = (c &&& 0x0f).toNat.testBit (conditionBit r) := by
    have hfour : (15 : ℕ).testBit (conditionBit r) = true := by
      rcases r with - | ⟨⟨⟩⟩ <;> rfl
    have hand : (c &&& 0x0f).toNat = c.toNat &&& 15 := UInt16.toNat_and c 15
    rw [hand, Nat.testBit_and, hfour, Bool.and_true]
  have hsmall : (c &&& 0x0f).toNat < 16 := by
    have hand : (c &&& 0x0f).toNat = c.toNat &&& 15 := UInt16.toNat_and c 15
    rw [hand]
    exact Nat.and_lt_two_pow _ (n := 4) (by decide)
  obtain ⟨hz, hnan, hlt, hgt⟩ := h
  unfold testCondition
  rw [if_neg (UInt16.not_le.2 hc), hlow]
  dsimp only
  rw [hz, hnan]
  generalize (s.fpsr &&& 0x08000000 != 0) = n at hlt hgt ⊢
  generalize (c &&& 0x0f).toNat = k at hsmall ⊢
  rcases r with - | ⟨⟨⟩⟩
  · cases n <;> interval_cases k <;> rfl
  · rw [hlt rfl]
    interval_cases k <;> rfl
  · cases n <;> interval_cases k <;> rfl
  · rw [hgt rfl]
    interval_cases k <;> rfl

/-! ## The codes of a result -/

theorem conditionCodes_bits (f : UInt32) (x : Floatx80) :
    (((f &&& ~~~fpccMask) ||| conditionCodes x) &&& 0x08000000 != 0) = x.negative ∧
      (((f &&& ~~~fpccMask) ||| conditionCodes x) &&& 0x04000000 != 0) = x.isZero ∧
      (((f &&& ~~~fpccMask) ||| conditionCodes x) &&& 0x01000000 != 0) = x.isNan := by
  rw [and_of_masked f _ (by decide), and_of_masked f _ (by decide), and_of_masked f _ (by decide)]
  unfold conditionCodes
  generalize x.negative = n
  generalize x.isZero = z
  generalize x.isInf = i
  generalize x.isNan = nan
  revert n z i nan
  decide

section
variable {x : Floatx80}

theorem shiftLeft_one_eq_zero (a : UInt64) : a <<< 1 = 0 ↔ a.toNat % 2 ^ 63 = 0 := by
  have hshift : (a <<< 1).toNat = a.toNat * 2 ^ 1 % 2 ^ 64 := toNat_shiftLeft_ofNat (by decide) a
  rw [← UInt64.toNat_inj, hshift]
  show _ = 0 ↔ _
  omega

theorem isNan_iff : x.isNan = true ↔ x.exponent.toNat = 0x7fff ∧ x.low <<< 1 ≠ 0 := by
  unfold Floatx80.isNan
  rw [Bool.and_eq_true, beq_iff_eq, bne_iff_ne, ← UInt16.toNat_inj]
  rfl

theorem isZero_iff : x.isZero = true ↔ x.exponent.toNat = 0 ∧ x.low <<< 1 = 0 := by
  unfold Floatx80.isZero
  rw [Bool.and_eq_true, beq_iff_eq, beq_iff_eq, ← UInt16.toNat_inj]
  rfl

theorem isInf_iff : x.isInf = true ↔ x.exponent.toNat = 0x7fff ∧ x.low <<< 1 = 0 := by
  unfold Floatx80.isInf
  rw [Bool.and_eq_true, beq_iff_eq, beq_iff_eq, ← UInt16.toNat_inj]
  rfl

/-- What is neither an infinity nor not a number is finite. -/
theorem finite_of_codes (hnan : x.isNan = false) (hinf : x.isInf = false) : x.Finite := by
  have hlt := exponent_lt x
  rw [← Bool.not_eq_true, isNan_iff] at hnan
  rw [← Bool.not_eq_true, isInf_iff] at hinf
  rw [finite_iff]
  by_contra h
  have hexp : x.exponent.toNat = 0x7fff := by omega
  by_cases hlow : x.low <<< 1 = 0
  · exact hinf ⟨hexp, hlow⟩
  · exact hnan ⟨hexp, hlow⟩

end

/-- A pattern up to infinity is a number, and only the first one is zero. -/
theorem ofPattern_codes (zSign : Bool) {n : ℕ} (hn : n ≤ infinityExtended) :
    (ofPattern zSign n).isNan = false ∧ ((ofPattern zSign n).isZero = true ↔ n = 0) ∧
      (ofPattern zSign n).negative = zSign := by
  unfold infinityExtended at hn
  have hE : n / 2 ^ 63 < 2 ^ 15 := by omega
  obtain ⟨x, hx⟩ : ∃ x, x = ofPattern zSign n := ⟨_, rfl⟩
  have hexp : x.exponent.toNat = n / 2 ^ 63 := hx ▸ packed_exponent zSign hE _
  have hlow : x.low.toNat = if n / 2 ^ 63 = 0 then n else 2 ^ 63 + n % 2 ^ 63 := by
    rw [hx]
    show (UInt64.ofNat _).toNat = _
    rw [UInt64.toNat_ofNat', Nat.mod_eq_of_lt]
    split_ifs <;> omega
  rw [← hx]
  refine ⟨?_, ?_, hx ▸ packed_negative zSign hE _⟩
  · rw [← Bool.not_eq_true, isNan_iff, ne_eq, shiftLeft_one_eq_zero, hexp, hlow]
    rintro ⟨htop, hne⟩
    rw [if_neg (by omega)] at hne
    omega
  · rw [isZero_iff, shiftLeft_one_eq_zero, hexp, hlow]
    constructor
    · rintro ⟨h0, hmod⟩
      rw [if_pos h0] at hmod
      omega
    · rintro rfl
      exact ⟨rfl, rfl⟩

theorem saturated_infinity (d : Direction) (n : ℕ) :
    saturated d infinityExtended n ≤ infinityExtended ∧
      (saturated d infinityExtended n = 0 ↔ n = 0) := by
  have hpos : 2 ≤ infinityExtended := by decide
  unfold saturated
  split_ifs with hge
  · exact ⟨Nat.sub_le _ _, iff_of_false (by omega) (by omega)⟩
  · exact ⟨le_rfl, iff_of_false (by omega) (by omega)⟩
  · exact ⟨by omega, Iff.rfl⟩

/-! ## The difference of two numbers -/

/-- The numbers are multiples of the smallest one. -/
theorem value_multiple (x : Floatx80) : ∃ k : ℤ, x.value = k * 2 ^ (-16445 : ℤ) := by
  have hscale : x.scale = (x.scale + 16445).toNat + (-16445 : ℤ) := by
    unfold Floatx80.scale
    omega
  have hsize : scaled x.low.toNat x.scale
      = ((x.low.toNat * 2 ^ (x.scale + 16445).toNat : ℕ) : ℤ) * 2 ^ (-16445 : ℤ) := by
    unfold scaled
    conv_lhs => rw [hscale]
    rw [zpow_add₀ two_ne_zero, zpow_natCast, ← mul_assoc, Int.cast_natCast, Nat.cast_mul, Nat.cast_pow,
      Nat.cast_ofNat]
  cases h : x.negative with
  | true =>
    refine ⟨-((x.low.toNat * 2 ^ (x.scale + 16445).toNat : ℕ) : ℤ), ?_⟩
    rw [value_of_negative h, hsize, Int.cast_neg, neg_mul]
  | false => exact ⟨_, (value_of_positive h).trans hsize⟩

/-- Different numbers are apart by the smallest one. -/
theorem sizeExtended_one_le {x y : Floatx80} (hne : x.value ≠ y.value) :
    sizeExtended 1 ≤ |x.value - y.value| := by
  obtain ⟨j, hj⟩ := value_multiple x
  obtain ⟨k, hk⟩ := value_multiple y
  have hone : sizeExtended 1 = 2 ^ (-16445 : ℤ) := by
    simp [sizeExtended, magnitude, scaled]
  have hdiff : (1 : ℚ) ≤ |((j - k : ℤ) : ℚ)| := by
    have hint : j - k ≠ 0 := by
      intro h
      exact hne (by rw [hj, hk, sub_eq_zero.1 h])
    exact_mod_cast Int.one_le_abs hint
  have hpos : (0 : ℚ) < 2 ^ (-16445 : ℤ) := two_zpow_pos _
  rw [hone, hj, hk, ← sub_mul, abs_mul, abs_of_pos hpos, ← Int.cast_sub]
  exact le_mul_of_one_le_left hpos.le hdiff

theorem sizeExtended_zero : sizeExtended 0 = 0 := by
  simp [sizeExtended, magnitude, scaled]

section
variable {x y : Floatx80} (hx : x.Finite) (hxp : x.Proper) (hy : y.Finite) (hyp : y.Proper)
include hx hxp hy hyp

/-- The difference is never lost in the rounding. -/
theorem sub_signs (mode : RoundingMode) :
    (floatx80Sub mode x y).1.isNan = false ∧
      ((floatx80Sub mode x y).1.isZero = true ↔ x.value = y.value) ∧
      (x.value < y.value → (floatx80Sub mode x y).1.negative = true) ∧
      (y.value < x.value → (floatx80Sub mode x y).1.negative = false) := by
  obtain ⟨n, hround, hpacks⟩ := floatx80Sub_spec hx hxp hy hyp mode
  obtain ⟨s, hs⟩ : ∃ s, s = sumSign mode x.negative (!y.negative) (x.value - y.value) := ⟨_, rfl⟩
  rw [← hs] at hround hpacks
  obtain ⟨N, hN⟩ : ∃ N, N = saturated (mode.direction s) infinityExtended n := ⟨_, rfl⟩
  have hle : N ≤ infinityExtended ∧ (N = 0 ↔ n = 0) := hN ▸ saturated_infinity _ n
  have hzero : n = 0 ↔ x.value = y.value := by
    constructor
    · intro hn
      by_contra hne
      have hge := hround.le_of_value_le strictMono_sizeExtended (sizeExtended_one_le hne)
      omega
    · intro heq
      rw [heq, sub_self, abs_zero, ← sizeExtended_zero] at hround
      exact hround.eq_of_value strictMono_sizeExtended
  obtain ⟨hnan, hisZero, hneg⟩ := ofPattern_codes s hle.1
  rw [hpacks.pattern, ← hN]
  refine ⟨hnan, hisZero.trans (hle.2.trans hzero), fun hlt => ?_, fun hlt => ?_⟩
  · rw [hneg, hs, sumSign, if_pos (by linarith)]
  · rw [hneg, hs, sumSign, if_neg (by linarith), if_pos (by linarith)]

end

/-! ## What is not a number -/

theorem or_shifted {a b : UInt64} : (a ||| b) <<< 1 ≠ 0 ↔ a <<< 1 ≠ 0 ∨ b <<< 1 ≠ 0 := by
  rw [ne_eq, ne_eq, ne_eq, ← not_and_or, shiftLeft_one_eq_zero, shiftLeft_one_eq_zero,
    shiftLeft_one_eq_zero, UInt64.toNat_or, Nat.or_mod_two_pow, Nat.or_eq_zero_iff]

theorem isNan_propagate {a b : Floatx80} (h : a.isNan = true ∨ b.isNan = true) :
    (propagateFloatx80NaN a b).1.isNan = true := by
  have hquiet : ∀ {x : Floatx80}, x.isNan = true →
      ({ x with low := x.low ||| 0xc000000000000000 } : Floatx80).isNan = true := by
    intro x hx
    rw [isNan_iff] at hx ⊢
    exact ⟨hx.1, or_shifted.2 (.inl hx.2)⟩
  unfold propagateFloatx80NaN
  dsimp only
  split_ifs with ha hsignaling
  · exact hquiet (Bool.and_eq_true_iff.1 hsignaling).2
  · exact hquiet ha
  · exact hquiet (h.resolve_left ha)

/-- A result that is not finite, and not a number where an operand is none. -/
structure Special (x y z : Floatx80) : Prop where
  exponent : z.exponent.toNat = 0x7fff
  nan : x.isNan = true ∨ y.isNan = true → z.isNan = true

section
variable {x y : Floatx80}

theorem special_propagate (h : x.isNan = true ∨ y.isNan = true) :
    Special x y (propagateFloatx80NaN x y).1 :=
  ⟨(isNan_iff.1 (isNan_propagate h)).1, fun _ => isNan_propagate h⟩

theorem special_of_no_nan {z : Floatx80} (hz : z.exponent.toNat = 0x7fff)
    (hx : x.exponent.toNat = 0x7fff → x.low <<< 1 = 0)
    (hy : y.exponent.toNat = 0x7fff → y.low <<< 1 = 0) :
    Special x y z := by
  refine ⟨hz, fun h => absurd h (not_or.2 ⟨fun h => ?_, fun h => ?_⟩)⟩
  · exact (isNan_iff.1 h).2 (hx (isNan_iff.1 h).1)
  · exact (isNan_iff.1 h).2 (hy (isNan_iff.1 h).1)

/-- An infinity of either sign, and the NaN of an invalid operation. -/
theorem exponent_packed_infinity (zSign : Bool) :
    (packFloatx80 zSign 0x7fff 0x8000000000000000).exponent.toNat = 0x7fff :=
  packed_exponent zSign (by decide) _

section
variable (h : x.exponent.toNat = 0x7fff ∨ y.exponent.toNat = 0x7fff)
include h

/-- What sums and differences of magnitudes do: the larger exponent decides, and where the two are
    the same one, both operands are infinities or no numbers. -/
theorem special_of_exponents {r c u v w : Floatx80 × UInt8} (hr : r.1.exponent.toNat = 0x7fff)
    (hc : x.exponent.toNat = 0x7fff → c.1.exponent.toNat = 0x7fff) :
    Special x y
      (if y.exponent.toNat < x.exponent.toNat then
        if x.exponent.toNat = 0x7fff then
          if x.low <<< 1 ≠ 0 then propagateFloatx80NaN x y else (x, 0)
        else u
      else if x.exponent.toNat < y.exponent.toNat then
        if y.exponent.toNat = 0x7fff then
          if y.low <<< 1 ≠ 0 then propagateFloatx80NaN x y else r
        else v
      else if x.exponent.toNat = 0x7fff then
        if (x.low ||| y.low) <<< 1 ≠ 0 then propagateFloatx80NaN x y else c
      else w).1 := by
  have hx := exponent_lt x
  have hy := exponent_lt y
  by_cases hgt : y.exponent.toNat < x.exponent.toNat
  · have hexp : x.exponent.toNat = 0x7fff := by omega
    rw [if_pos hgt, if_pos hexp]
    split_ifs with hlow
    · exact special_propagate (.inl (isNan_iff.2 ⟨hexp, hlow⟩))
    · exact special_of_no_nan hexp (fun _ => not_not.1 hlow) fun hy => by omega
  rw [if_neg hgt]
  by_cases hlt : x.exponent.toNat < y.exponent.toNat
  · have hexp : y.exponent.toNat = 0x7fff := by omega
    rw [if_pos hlt, if_pos hexp]
    split_ifs with hlow
    · exact special_propagate (.inr (isNan_iff.2 ⟨hexp, hlow⟩))
    · exact special_of_no_nan hr (fun hx => by omega) fun _ => not_not.1 hlow
  have hxexp : x.exponent.toNat = 0x7fff := by omega
  have hyexp : y.exponent.toNat = 0x7fff := by omega
  rw [if_neg hlt, if_pos hxexp]
  split_ifs with hlow
  · refine special_propagate ((or_shifted.1 hlow).imp ?_ ?_)
    · exact fun hx => isNan_iff.2 ⟨hxexp, hx⟩
    · exact fun hy => isNan_iff.2 ⟨hyexp, hy⟩
  · rw [or_shifted, not_or, not_not, not_not] at hlow
    exact special_of_no_nan (hc hxexp) (fun _ => hlow.1) fun _ => hlow.2

theorem special_addFloatx80Sigs (mode : RoundingMode) (zSign : Bool) :
    Special x y (addFloatx80Sigs mode x y zSign).1 :=
  special_of_exponents h (exponent_packed_infinity zSign) id

theorem special_subFloatx80Sigs (mode : RoundingMode) (zSign : Bool) :
    Special x y (subFloatx80Sigs mode x y zSign).1 :=
  special_of_exponents h (exponent_packed_infinity !zSign) fun _ => rfl

theorem special_floatx80Add (mode : RoundingMode) : Special x y (floatx80Add mode x y).1 := by
  unfold floatx80Add
  split_ifs
  · exact special_addFloatx80Sigs h mode _
  · exact special_subFloatx80Sigs h mode _

theorem special_floatx80Sub (mode : RoundingMode) : Special x y (floatx80Sub mode x y).1 := by
  unfold floatx80Sub
  split_ifs
  · exact special_subFloatx80Sigs h mode _
  · exact special_addFloatx80Sigs h mode _

theorem special_floatx80Mul (mode : RoundingMode) : Special x y (floatx80Mul mode x y).1 := by
  unfold floatx80Mul
  dsimp only
  by_cases hx : x.exponent.toNat = 0x7fff
  · rw [if_pos hx]
    by_cases hnan : x.low <<< 1 ≠ 0 ∨ y.exponent.toNat = 0x7fff ∧ y.low <<< 1 ≠ 0
    · rw [if_pos hnan]
      exact special_propagate (hnan.imp (fun hlow => isNan_iff.2 ⟨hx, hlow⟩) isNan_iff.2)
    · rw [if_neg hnan]
      obtain ⟨hxlow, hylow⟩ := not_or.1 hnan
      have hyzero : y.exponent.toNat = 0x7fff → y.low <<< 1 = 0 := fun hy => by
        by_contra hne
        exact hylow ⟨hy, hne⟩
      split_ifs
      · exact special_of_no_nan rfl (fun _ => not_not.1 hxlow) hyzero
      · exact special_of_no_nan (exponent_packed_infinity _) (fun _ => not_not.1 hxlow) hyzero
  · have hy := h.resolve_left hx
    rw [if_neg hx, if_pos hy]
    split_ifs with hlow
    · exact special_propagate (.inr (isNan_iff.2 ⟨hy, hlow⟩))
    · exact special_of_no_nan rfl (fun hx' => absurd hx' hx) fun _ => not_not.1 hlow
    · exact special_of_no_nan (exponent_packed_infinity _) (fun hx' => absurd hx' hx)
        fun _ => not_not.1 hlow

end

end

theorem isZero_of_isNan {x : Floatx80} (h : x.isNan = true) : x.isZero = false := by
  rw [isNan_iff] at h
  rw [← Bool.not_eq_true, isZero_iff]
  omega

/-! ## FCMP -/

/-- A number is as the arithmetic gives it; infinities and NaNs may be anything. -/
def Floatx80.Regular (x : Floatx80) : Prop := x.Finite → x.Proper

instance (x : Floatx80) : Decidable x.Regular := by
  unfold Floatx80.Regular
  infer_instance

/-- The codes that FCMP sets. -/
def compared (arith : SoftFloat) (mode : UInt32) (x source : Floatx80) (o : Outcome) : Outcome :=
  if !x.isNan && !source.isNan && (x.isInf || source.isInf) then compareInfinities o x source
  else
    let difference := arith.binary .sub mode x source
    { o.setConditionCodes difference.1 with flags := o.flags ||| difference.2 }

theorem operate_fcmp (arith : SoftFloat) (mode : UInt32) (dst : Fin 8) (source : Floatx80)
    (o : Outcome) :
    operate arith mode 0x38 dst source o = some (compared arith mode (o.fp dst) source o) := by
  unfold compared
  show (if _ then _ else _) = _
  split_ifs <;> rfl

section
variable {x y : Floatx80}

/-- Infinities are above or below all other numbers. -/
theorem cmp_place_infinity (h : (x.isInf || y.isInf) = true) :
    cmp x.place y.place =
      if y.isInf && y.negative then if x.isInf && x.negative then .eq else .gt
      else if y.isInf then if x.isInf && !x.negative then .eq else .lt
      else if x.negative then .lt else .gt := by
  unfold Floatx80.place
  generalize x.isInf = i at h ⊢
  generalize y.isInf = j at h ⊢
  cases i <;> cases j <;> cases x.negative <;> cases y.negative <;>
    simp [cmp, cmpUsing, WithBot.bot_lt_coe] at h ⊢

/-- The codes of an infinity and another number. -/
theorem tells_compareInfinities (o : Outcome) (h : (x.isInf || y.isInf) = true) :
    Tells (compareInfinities o x y).fpsr (some (cmp x.place y.place)) := by
  rw [cmp_place_infinity h]
  unfold compareInfinities Tells
  dsimp only
  rw [and_of_masked o.fpsr _ (by decide), and_of_masked o.fpsr _ (by decide),
    and_of_masked o.fpsr _ (by decide)]
  generalize x.isInf = i at h ⊢
  generalize y.isInf = j at h ⊢
  generalize x.negative = a
  generalize y.negative = b
  revert i j a b
  decide

theorem cmp_place (hx : x.isInf = false) (hy : y.isInf = false) :
    cmp x.place y.place = cmp x.value y.value := by
  have hplace : ∀ {z : Floatx80}, z.isInf = false →
      z.place = ((z.value : WithTop ℚ) : WithBot (WithTop ℚ)) := fun h =>
    if_neg (by rw [h]; exact Bool.false_ne_true)
  rw [hplace hx, hplace hy]
  rcases lt_trichotomy x.value y.value with h | h | h
  · rw [(cmp_eq_lt_iff _ _).2 h, cmp_eq_lt_iff]
    exact WithBot.coe_lt_coe.2 (WithTop.coe_lt_coe.2 h)
  · rw [h, cmp_self_eq_eq, cmp_self_eq_eq]
  · rw [(cmp_eq_gt_iff _ _).2 h, cmp_eq_gt_iff]
    exact WithBot.coe_lt_coe.2 (WithTop.coe_lt_coe.2 h)

/-- The codes are those of the outcome, in every rounding mode. -/
theorem tells_compared (rest : SoftFloat) (mode : UInt32) (o : Outcome) (hx : x.Regular)
    (hy : y.Regular) : Tells (compared rest.withArithmetic mode x y o).fpsr (order x y) := by
  obtain ⟨z, hz⟩ : ∃ z, z = floatx80Sub (.ofCode mode) x y := ⟨_, rfl⟩
  have hcodes := conditionCodes_bits o.fpsr z.1
  unfold compared order
  cases hnan : x.isNan || y.isNan with
  | true =>
    have hor := Bool.or_eq_true_iff.1 hnan
    have hznan : z.1.isNan = true := by
      rw [hz]
      exact (special_floatx80Sub (hor.imp (isNan_iff.1 · |>.1) (isNan_iff.1 · |>.1)) _).nan hor
    rw [if_neg (by rcases hor with h | h <;> simp [h]), if_pos rfl]
    show Tells ((o.fpsr &&& ~~~fpccMask) ||| conditionCodes (floatx80Sub (.ofCode mode) x y).1) none
    rw [← hz]
    exact ⟨hcodes.2.1.trans (isZero_of_isNan hznan), hcodes.2.2.trans hznan, nofun, nofun⟩
  | false =>
    obtain ⟨hxn, hyn⟩ := Bool.or_eq_false_iff.1 hnan
    rw [if_neg Bool.false_ne_true, hxn, hyn]
    cases hinf : x.isInf || y.isInf with
    | true =>
      rw [if_pos (by rfl)]
      exact tells_compareInfinities o hinf
    | false =>
      rw [if_neg (by decide)]
      obtain ⟨hxi, hyi⟩ := Bool.or_eq_false_iff.1 hinf
      have hxf := finite_of_codes hxn hxi
      have hyf := finite_of_codes hyn hyi
      obtain ⟨hznan, hzzero, hlt, hgt⟩ := sub_signs hxf (hx hxf) hyf (hy hyf) (.ofCode mode)
      rw [cmp_place hxi hyi]
      show Tells ((o.fpsr &&& ~~~fpccMask) ||| conditionCodes (floatx80Sub (.ofCode mode) x y).1) _
      rw [← hz] at hznan hzzero hlt hgt ⊢
      refine ⟨hcodes.2.1.trans ?_, hcodes.2.2.trans hznan, fun h => ?_, fun h => ?_⟩
      · rw [Bool.eq_iff_iff, hzzero, beq_iff_eq, Option.some_inj, cmp_eq_eq_iff]
      · exact hcodes.1.trans (hlt ((cmp_eq_lt_iff _ _).1 (Option.some_inj.1 h)))
      · exact hcodes.1.trans (hgt ((cmp_eq_gt_iff _ _).1 (Option.some_inj.1 h)))

end

theorem tells_execute {rest : SoftFloat} {s : M68kiCpu} {i : Operation}
    (hi : s.operation rest.withArithmetic = some i) (hop : i.opmode = 0x38)
    (hx : (s.fp i.dst).Regular) (hy : i.source.Regular) :
    Tells (s.execute rest.withArithmetic).fpsr (order (s.fp i.dst) i.source) := by
  have ho := operate_fcmp rest.withArithmetic s.floatRoundingMode i.dst i.source
    ⟨s.fp, s.fpsr, s.floatExceptionFlags ||| i.converted⟩
  rw [← hop] at ho
  rw [fpsr_execute hi ho]
  exact tells_compared rest _ _ hx hy

/-- After FCMP a condition holds exactly for the outcomes whose bits its code has, as long as FPSR
    stays. -/
theorem fcmp_conditions (rest : SoftFloat) (s t : M68kiCpu) (i : Operation) (c : UInt16)
    (hi : s.operation rest.withArithmetic = some i) (hop : i.opmode = 0x38) (hx : (s.fp i.dst).Regular)
    (hy : i.source.Regular) (ht : t.fpsr = (s.execute rest.withArithmetic).fpsr) (hc : c < 0x20) :
    (t.testCondition c).1 = c.toNat.testBit (conditionBit (order (s.fp i.dst) i.source)) :=
  testCondition_of_tells (ht ▸ tells_execute hi hop hx hy) hc

/-- A processor with one in FP0 and minus two in the other registers, before an operation on FP0
    and FP1 and a comparison of the two. -/
def beforeOperation (opmode : UInt8) : M68kiCpu where
  d := fun _ => 0
  a := fun _ => 0x8000
  pc := 0x1002
  ir := 0xf200
  fp := fun i => if i = 0 then ⟨0x3fff, 0x8000000000000000⟩ else ⟨0xc000, 0x8000000000000000⟩
  fpuModel := .m68882
  memory := put (fun _ => 0) 0x1000 [0xf2, 0x00, 0x04, opmode, 0xf2, 0x00, 0x04, 0x38]

/-- One is greater than minus two, and so not less. -/
theorem fcmp_conditions_one :
    (((beforeOperation 0x38).execute (default : SoftFloat).withArithmetic).testCondition 0x14).1
      = (0x14 : UInt16).toNat.testBit
          (conditionBit (order ⟨0x3fff, 0x8000000000000000⟩ ⟨0xc000, 0x8000000000000000⟩)) :=
  fcmp_conditions default (beforeOperation 0x38) _
    ⟨0x38, 0, ⟨0xc000, 0x8000000000000000⟩, 0⟩ 0x14 (by decide +kernel) rfl (by decide) (by decide) rfl
    (by decide)

example : (((beforeOperation 0x38).execute (default : SoftFloat).withArithmetic).testCondition 0x14).1
    = false := by
  decide +kernel

end CuteMac.Fpu
