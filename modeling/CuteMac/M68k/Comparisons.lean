/-
  The conditions of a branch after a comparison or a subtraction.

  * `Condition.Compares`: what a condition says of two numbers;
  * `Flags.holds_iff`: the flags of a difference tell of the numbers;
  * `Comparison`: the instructions, for operands in registers, in memory, and of any length;
  * `holds_iff_compares`: after each of them a condition holds when it does of the operands.
-/
import CuteMac.M68k.WideNumbers

namespace CuteMac.M68k

open ByteMemory WideArithmetic Core M68kiCpu WordBits

/-- The condition of two numbers with `2 * h` values: `src` is taken from `dst`. -/
def Condition.Compares (c : Condition) (h dst src : Nat) : Prop :=
  match c with
  | .hi => src < dst
  | .ls => dst ≤ src
  | .cc => src ≤ dst
  | .cs => dst < src
  | .ne => dst ≠ src
  | .eq => dst = src
  | .vc => -h ≤ signed h dst - signed h src ∧ signed h dst - signed h src < h
  | .vs => ¬ (-h ≤ signed h dst - signed h src ∧ signed h dst - signed h src < h)
  | .pl => (dst + 2 * h - src) % (2 * h) < h
  | .mi => h ≤ (dst + 2 * h - src) % (2 * h)
  | .ge => signed h src ≤ signed h dst
  | .lt => signed h dst < signed h src
  | .gt => signed h src < signed h dst
  | .le => signed h dst ≤ signed h src

section
variable {h dst src r : Nat} {t : M68kiCpu}

theorem signed_inj {x y : Nat} (hx : x < 2 * h) (hy : y < 2 * h) : signed h x = signed h y ↔ x = y := by
  unfold signed
  split_ifs <;> omega

/-- The difference is what is left of the exact one. -/
theorem Result.eq_mod {c : Nat} (hs : Result .difference (2 * h) dst src 0 r c) (hsrc : src < 2 * h) :
    r = (dst + 2 * h - src) % (2 * h) := by
  have hcases := hs.cases
  obtain ⟨hv, hr, -⟩ := hs
  unfold Operation.Equation at hv
  simp only at hv
  rcases hcases with rfl | rfl
  · have hsum : dst + 2 * h - src = r + 2 * h := by omega
    rw [hsum, Nat.add_mod_right, Nat.mod_eq_of_lt hr]
  · have hsum : dst + 2 * h - src = r := by omega
    rw [hsum, Nat.mod_eq_of_lt hr]

/-- There is no overflow where the exact difference is a number. -/
theorem Result.exact_iff {c : Nat} (hs : Result .difference (2 * h) dst src 0 r c) (hd : dst < 2 * h)
    (hsrc : src < 2 * h) :
    signed h r = Operation.difference.exact (signed h dst) (signed h src) 0 ↔
      -h ≤ signed h dst - signed h src ∧ signed h dst - signed h src < h := by
  have hcases := hs.cases
  obtain ⟨hv, hr, -⟩ := hs
  unfold Operation.Equation at hv
  unfold signed Operation.exact
  simp only at hv ⊢
  rcases hcases with rfl | rfl <;> split_ifs <;> omega

/-- The conditions after a difference. -/
theorem Flags.holds_iff (hf : Flags .difference h dst src 0 r t) (hz : t.notZFlag = 0 ↔ r = 0)
    (hd : dst < 2 * h) (hsrc : src < 2 * h) (c : Condition) :
    t.holds c = true ↔ c.Compares h dst src := by
  have hcs : (t.condCs != 0) = true ↔ dst < src := by
    have hbit : (t.condCs != 0) = t.cFlag.toNat.testBit 8 := and_bit_ne_zero (i := 8) (by decide) _
    rw [hbit, ← hf.result.lt_iff, Bool.toNat_eq_one]
  have hvs : (t.condVs != 0) = true ↔
      ¬ (-h ≤ signed h dst - signed h src ∧ signed h dst - signed h src < h) := by
    have hbit : (t.condVs != 0) = t.vFlag.toNat.testBit 7 := and_bit_ne_zero (i := 7) (by decide) _
    rw [hbit, hf.overflow, ← Result.exact_iff hf.result hd hsrc]
  have hmi : (t.condMi != 0) = true ↔ h ≤ r := by
    have hbit : (t.condMi != 0) = t.nFlag.toNat.testBit 7 := and_bit_ne_zero (i := 7) (by decide) _
    rw [hbit, hf.negative]
  have hlt : ((t.nFlag ^^^ t.vFlag) &&& 0x80 != 0) = true ↔ signed h dst < signed h src := by
    have hbit : ((t.nFlag ^^^ t.vFlag) &&& 0x80 != 0)
        = (t.nFlag.toNat.testBit 7 ^^ t.vFlag.toNat.testBit 7) := by
      rw [← Nat.testBit_xor, ← UInt32.toNat_xor]
      exact and_bit_ne_zero (i := 7) (by decide) _
    rw [hbit, ← hf.result.signed_lt_iff hd hsrc, ← hf.negative, ← hf.overflow]
    cases t.nFlag.toNat.testBit 7 <;> cases t.vFlag.toNat.testBit 7 <;> decide
  have hne : (t.notZFlag != 0) = true ↔ dst ≠ src := by
    rw [bne_iff_ne, ne_eq, hz, hf.result.eq_iff hsrc]
  have heq : signed h dst = signed h src ↔ dst = src := signed_inj hd hsrc
  have hnot : ∀ {b : Bool} {p : Prop}, (b = true ↔ p) → ((!b) = true ↔ ¬ p) := by
    intro b p hb
    rw [← hb, Bool.not_eq_true', Bool.not_eq_true]
  cases c with
  | cs => exact hcs
  | cc => exact (hnot hcs).trans Nat.not_lt
  | vs => exact hvs
  | vc => exact (hnot hvs).trans not_not
  | ne => exact hne
  | eq => exact (hnot hne).trans not_not
  | mi =>
    rw [Condition.Compares, ← Result.eq_mod hf.result hsrc]
    exact hmi
  | pl =>
    rw [Condition.Compares, ← Result.eq_mod hf.result hsrc]
    exact (hnot hmi).trans Nat.not_le
  | lt => exact hlt
  | ge => exact (hnot hlt).trans not_lt
  | hi =>
    rw [holds, Bool.and_eq_true, hnot hcs, hne, Condition.Compares]
    omega
  | ls =>
    rw [holds, Bool.or_eq_true, hcs, hnot hne, Condition.Compares]
    omega
  | gt =>
    rw [holds, Bool.and_eq_true, hnot hlt, hne, ne_eq, ← heq, Condition.Compares]
    omega
  | le =>
    rw [holds, Bool.or_eq_true, hlt, hnot hne, not_not, ← heq, Condition.Compares]
    omega

/-! ## The instructions -/

/-- The flags of a difference into which nothing is borrowed. -/
theorem flags_of_sub {z : Size} {src dst : UInt32} (hs : src.toNat < 2 * z.half)
    (hd : dst.toNat < 2 * z.half) (hn : t.nFlag = z.nflag (dst - src))
    (hc : t.cFlag = z.cflagSub src dst (dst - src)) (hv : t.vFlag = z.vflagSub src dst (dst - src)) :
    Flags .difference z.half dst.toNat src.toNat 0 (z.maskOutAbove (dst - src)).toNat t := by
  have hzero : dst - src - 0 = dst - src := UInt32.sub_zero _
  rw [← hzero] at hn hc hv ⊢
  exact flags_difference (b := 0) hs hd (Nat.zero_le 1) hn hc hv

/-- The instructions that take a number from another one or compare it with another one. -/
inductive Comparison where
  /-- `CMP Dy,Dx` -/
  | cmp (z : Size)
  /-- `CMPM (Ay)+,(Ax)+` -/
  | cmpm (z : Size)
  /-- `SUB Dy,Dx` -/
  | sub (z : Size)
  /-- `SUBX -(Ay),-(Ax)`, so many times -/
  | subx (z : Size) (n : Nat)

namespace Comparison

def run (s : M68kiCpu) : Comparison → M68kiCpu
  | cmp z => opCmpD z s
  | cmpm z => opCmpm z s
  | sub z => opSubErD z s
  | subx z n => (opSubxMm z)^[n] s

/-- The number of bytes. -/
def bytes : Comparison → Nat
  | cmp z => z.bytes
  | cmpm z => z.bytes
  | sub z => z.bytes
  | subx z n => n * z.bytes

/-- The number that is taken, and the one from which it is. -/
def operands (s : M68kiCpu) : Comparison → Nat × Nat
  | cmp z => ((z.maskOutAbove (s.dar s.dataY)).toNat, (z.maskOutAbove (s.dar s.dataX)).toNat)
  | cmpm z => (bigEndian (take s.memory (s.dar s.addressY) z.bytes),
      bigEndian (take s.memory (s.dar s.addressX) z.bytes))
  | sub z => ((z.maskOutAbove (s.dar s.dataY)).toNat, (z.maskOutAbove (s.dar s.dataX)).toNat)
  | subx z n => (numberBelow s.memory (s.dar s.addressY) (n * z.bytes),
      numberBelow s.memory (s.dar s.addressX) (n * z.bytes))

/-- Different address registers; a number of several operands is compared with `X` clear and `Z`
    set, and is not overwritten while it is read. -/
def Possible (s : M68kiCpu) : Comparison → Prop
  | cmp _ => True
  | cmpm _ => s.addressX ≠ s.addressY
  | sub _ => True
  | subx z n => 0 < n ∧ Registers z s ∧ s.carryIn = 0 ∧ s.notZFlag = 0 ∧
      (s.dar s.addressX - s.dar s.addressY).toNat + n * z.bytes ≤ 2 ^ 32

end Comparison

theorem bigEndian_take_lt (m : Memory) (a : UInt32) (n : Nat) : bigEndian (take m a n) < 256 ^ n :=
  (bigEndian_lt _).trans_eq (by rw [length_take])

theorem toNat_readSize (s : M68kiCpu) (z : Size) (a : UInt32) :
    (s.readSize z a).toNat = bigEndian (take s.memory a z.bytes) := by
  have hlt := bigEndian_take_lt s.memory a z.bytes
  have hle : 256 ^ z.bytes ≤ 2 ^ 32 := by cases z <;> decide
  rw [readSize_eq, UInt32.toNat_ofNat', Nat.mod_eq_of_lt (by omega)]

/-- After each of the instructions, a condition holds when it does of the operands. -/
theorem Comparison.holds_run (x : Comparison) (s : M68kiCpu) (hx : x.Possible s) (c : Condition) :
    (x.run s).holds c = true ↔ c.Compares (half x.bytes) (x.operands s).2 (x.operands s).1 := by
  cases x with
  | cmp z =>
    exact (flags_of_sub (z.maskOutAbove_lt _) (z.maskOutAbove_lt _) rfl rfl rfl).holds_iff
      UInt32.toNat_inj.symm (z.maskOutAbove_lt _) (z.maskOutAbove_lt _) c
  | cmpm z =>
    have hsrc := bigEndian_take_lt s.memory (s.dar s.addressY) z.bytes
    have hdst := bigEndian_take_lt s.memory (s.dar s.addressX) z.bytes
    rw [pow_bytes] at hsrc hdst
    rw [← toNat_readSize] at hsrc hdst
    have hreg : (postincrement z s s.addressY).2.dar s.addressX = s.dar s.addressX :=
      Function.update_of_ne hx ..
    have hread : opCmpm z s = M68kiCpu.cmp z
        (postincrement z (postincrement z s s.addressY).2 s.addressX).2
        (s.readSize z (s.dar s.addressY)) (s.readSize z (s.dar s.addressX)) := by
      rw [← hreg]
      cases z <;> rfl
    have hflags := flags_of_sub (t := opCmpm z s) hsrc hdst (by rw [hread]; rfl) (by rw [hread]; rfl)
      (by rw [hread]; rfl)
    have hzero : (opCmpm z s).notZFlag = 0 ↔
        (z.maskOutAbove (s.readSize z (s.dar s.addressX) - s.readSize z (s.dar s.addressY))).toNat = 0 := by
      rw [hread]
      exact UInt32.toNat_inj.symm
    have hiff := hflags.holds_iff hzero hdst hsrc c
    rw [toNat_readSize, toNat_readSize] at hiff
    exact hiff
  | sub z =>
    exact (flags_of_sub (z.maskOutAbove_lt _) (z.maskOutAbove_lt _) rfl rfl rfl).holds_iff
      UInt32.toNat_inj.symm (z.maskOutAbove_lt _) (z.maskOutAbove_lt _) c
  | subx z n =>
    obtain ⟨hn, hr, hcarry, hz, hover⟩ := hx
    have hwide := iterate_extendedMm .difference z s hr hn hover
    have hflags := hwide.flags
    have hzero := hwide.zero
    have hhalf : 2 * half (n * z.bytes) = 256 ^ (n * z.bytes) := by
      obtain ⟨m, rfl⟩ : ∃ m, n = m + 1 := ⟨n - 1, by omega⟩
      rw [half_succ, ← Nat.mul_assoc, ← pow_bytes, ← Nat.pow_succ', ← Nat.pow_mul, Nat.mul_comm]
    rw [hcarry] at hflags
    rw [hz] at hzero
    refine hflags.holds_iff (hzero.trans (and_iff_right rfl)) ?_ ?_ c
    · rw [hhalf]
      exact bigEndian_take_lt ..
    · rw [hhalf]
      exact bigEndian_take_lt ..

theorem Comparison.holds_run_pair :
    ((Comparison.subx .long 2).run pair).holds .lt = true ↔
      Condition.lt.Compares (half 8) (numberBelow pair.memory 0x1000 8)
        (numberBelow pair.memory 0x2000 8) :=
  Comparison.holds_run (.subx .long 2) pair
    ⟨by decide, ⟨by decide, by decide, by decide⟩, rfl, rfl, by decide⟩ .lt

end

end CuteMac.M68k
