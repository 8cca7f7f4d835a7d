/-
  Decimal numbers of many digits, added and subtracted two digits at a time.

  * `abcd`, `sbcd`, `opAbcdMm`, `opSbcdMm`: the instructions on memory;
  * `Digits`, `decimal`: a byte of two digits, and its value;
  * `iterate_decimalMm`: a run of them adds and subtracts decimal numbers.
-/
import CuteMac.M68k.WideNumbers

namespace CuteMac.M68k

open ByteMemory WideArithmetic Core

namespace M68kiCpu

def lowNibble (a : UInt32) : UInt32 := a &&& 0x0f
def highNibble (a : UInt32) : UInt32 := a &&& 0xf0

def abcd (z : Size) (s : M68kiCpu) (src dst : UInt32) : UInt32 × M68kiCpu :=
  let res := lowNibble src + lowNibble dst + s.xflagAs1
  let v := ~~~res
  let res := if res > 9 then res + 6 else res
  let res := res + (highNibble src + highNibble dst)
  let c : UInt32 := if res > 0x99 then 0x100 else 0
  let res := if c ≠ 0 then res - 0xa0 else res
  (z.maskOutAbove res, { s with
    xFlag := c
    cFlag := c
    vFlag := v &&& res
    nFlag := z.nflag res
    notZFlag := s.notZFlag ||| z.maskOutAbove res })

def sbcd (z : Size) (s : M68kiCpu) (src dst : UInt32) : UInt32 × M68kiCpu :=
  let res := lowNibble dst - lowNibble src - s.xflagAs1
  let v := ~~~res
  let res := if res > 9 then res - 6 else res
  let res := res + (highNibble dst - highNibble src)
  let c : UInt32 := if res > 0x99 then 0x100 else 0
  let res := if c ≠ 0 then res + 0xa0 else res
  let res := z.maskOutAbove res
  (res, { s with
    xFlag := c
    cFlag := c
    vFlag := v &&& res
    nFlag := z.nflag res
    notZFlag := s.notZFlag ||| res })

/-- `m68k_op_abcd_8_mm`, and `m68k_op_abcd_8_mm_ax7` with the others for the stack pointer. -/
def opAbcdMm (s : M68kiCpu) : M68kiCpu := opMm .byte s abcd

/-- `m68k_op_sbcd_8_mm`, and `m68k_op_sbcd_8_mm_ax7` with the others for the stack pointer. -/
def opSbcdMm (s : M68kiCpu) : M68kiCpu := opMm .byte s sbcd

end M68kiCpu

open M68kiCpu

/-! ## Two digits -/

/-- A byte of two decimal digits. -/
structure Digits (a : UInt32) : Prop where
  low : a.toNat % 16 < 10
  high : a.toNat / 16 < 10

/-- The value of the two digits. -/
def decimal (a : UInt32) : Nat := a.toNat / 16 * 10 + a.toNat % 16

theorem Digits.lt {a : UInt32} (h : Digits a) : a.toNat < 256 := by
  have h1 := h.high
  omega

theorem toNat_lowNibble (a : UInt32) : (lowNibble a).toNat = a.toNat % 16 :=
  (UInt32.toNat_and a 0x0f).trans (Nat.and_two_pow_sub_one_eq_mod a.toNat 4)

theorem toNat_highNibble {a : UInt32} (h : Digits a) : (highNibble a).toNat = a.toNat / 16 * 16 := by
  have hbyte : ∀ i : Fin 256, i.val &&& 0xf0 = i.val / 16 * 16 := by decide +kernel
  exact (UInt32.toNat_and a 0xf0).trans (hbyte ⟨a.toNat, h.lt⟩)

section
variable {src dst x : UInt32}

/-- The digits of a sum: the low one is adjusted before the high ones are added. -/
theorem digits_sum (hs : Digits src) (hd : Digits dst) (hx : x.toNat ≤ 1) {low res : UInt32}
    (hlow : low = lowNibble src + lowNibble dst + x)
    (hres : res = (if low > 9 then low + 6 else low) + (highNibble src + highNibble dst)) :
    (res > 0x99 → Digits (res - 0xa0) ∧ decimal (res - 0xa0) + 100 = decimal dst + decimal src + x.toNat) ∧
      (¬ res > 0x99 → Digits res ∧ decimal res = decimal dst + decimal src + x.toNat) := by
  obtain ⟨hsl, hsh⟩ := hs
  obtain ⟨hdl, hdh⟩ := hd
  have hlow' : low.toNat = src.toNat % 16 + dst.toNat % 16 + x.toNat := by
    rw [hlow, UInt32.toNat_add, UInt32.toNat_add, toNat_lowNibble, toNat_lowNibble]
    omega
  have hadjusted : (if low > 9 then low + 6 else low).toNat
      = if 9 < low.toNat then low.toNat + 6 else low.toNat := by
    have hiff : low > 9 ↔ 9 < low.toNat := UInt32.lt_iff_toNat_lt
    by_cases h : low > 9
    · rw [if_pos h, if_pos (hiff.1 h), UInt32.toNat_add]
      show (low.toNat + 6) % 2 ^ 32 = _
      omega
    · rw [if_neg h, if_neg (mt hiff.2 h)]
  have hres' : res.toNat = (if 9 < low.toNat then low.toNat + 6 else low.toNat)
      + (src.toNat / 16 * 16 + dst.toNat / 16 * 16) := by
    rw [hres, UInt32.toNat_add, UInt32.toNat_add, toNat_highNibble ⟨hsl, hsh⟩,
      toNat_highNibble ⟨hdl, hdh⟩, hadjusted]
    split_ifs <;> omega
  have hiff : res > 0x99 ↔ 0x99 < res.toNat := UInt32.lt_iff_toNat_lt
  unfold decimal
  constructor
  · intro h
    have hgt := hiff.1 h
    have hge : (0xa0 : UInt32) ≤ res := by
      rw [UInt32.le_iff_toNat_le]
      show 0xa0 ≤ res.toNat
      split_ifs at hres' <;> omega
    have hsub : (res - 0xa0).toNat = res.toNat - 0xa0 := UInt32.toNat_sub_of_le _ _ hge
    rw [hsub]
    split_ifs at hres' <;> refine ⟨⟨?_, ?_⟩, ?_⟩ <;> (try rw [hsub]) <;> omega
  · intro h
    have hle := mt hiff.2 h
    split_ifs at hres' <;> refine ⟨⟨?_, ?_⟩, ?_⟩ <;> omega

/-- The digits of a difference: where the low one is borrowed for, six is taken from it. -/
theorem digits_difference (hs : Digits src) (hd : Digits dst) (hx : x.toNat ≤ 1) {low res : UInt32}
    (hlow : low = lowNibble dst - lowNibble src - x)
    (hres : res = (if low > 9 then low - 6 else low) + (highNibble dst - highNibble src)) :
    (res > 0x99 → Digits (Size.byte.maskOutAbove (res + 0xa0)) ∧
      decimal (Size.byte.maskOutAbove (res + 0xa0)) + decimal src + x.toNat = decimal dst + 100) ∧
      (¬ res > 0x99 → Digits (Size.byte.maskOutAbove res) ∧
        decimal (Size.byte.maskOutAbove res) + decimal src + x.toNat = decimal dst) := by
  have hs' := hs
  have hd' := hd
  obtain ⟨hsl, hsh⟩ := hs
  obtain ⟨hdl, hdh⟩ := hd
  have hlow' : low.toNat + src.toNat % 16 + x.toNat
      = dst.toNat % 16 + if dst.toNat % 16 < src.toNat % 16 + x.toNat then 2 ^ 32 else 0 := by
    rw [hlow, UInt32.toNat_sub, UInt32.toNat_sub, toNat_lowNibble, toNat_lowNibble]
    split_ifs <;> omega
  have hadjusted : (if low > 9 then low - 6 else low).toNat
      = if dst.toNat % 16 < src.toNat % 16 + x.toNat then low.toNat - 6 else low.toNat := by
    have hiff : low > 9 ↔ 9 < low.toNat := UInt32.lt_iff_toNat_lt
    by_cases h : dst.toNat % 16 < src.toNat % 16 + x.toNat
    · rw [if_pos h] at hlow'
      have hge : (6 : UInt32) ≤ low := by
        rw [UInt32.le_iff_toNat_le]
        show 6 ≤ low.toNat
        omega
      rw [if_pos h, if_pos (hiff.2 (by omega)), UInt32.toNat_sub_of_le _ _ hge]
      rfl
    · rw [if_neg h] at hlow' ⊢
      rw [if_neg (mt hiff.1 (by omega))]
  have hhigh : (highNibble dst - highNibble src).toNat
      = (2 ^ 32 - src.toNat / 16 * 16 + dst.toNat / 16 * 16) % 2 ^ 32 := by
    rw [UInt32.toNat_sub, toNat_highNibble hs', toNat_highNibble hd']
  have hres' : res.toNat = ((if dst.toNat % 16 < src.toNat % 16 + x.toNat then low.toNat - 6 else low.toNat)
      + (2 ^ 32 - src.toNat / 16 * 16 + dst.toNat / 16 * 16) % 2 ^ 32) % 2 ^ 32 := by
    rw [hres, UInt32.toNat_add, hadjusted, hhigh]
  have hiff : res > 0x99 ↔ 0x99 < res.toNat := UInt32.lt_iff_toNat_lt
  have hmask : ∀ a : UInt32, (Size.byte.maskOutAbove a).toNat = a.toNat % 256 :=
    fun a => Size.toNat_maskOutAbove .byte a
  have hadd : (res + 0xa0).toNat = (res.toNat + 0xa0) % 2 ^ 32 := UInt32.toNat_add ..
  -- the low digit is `l`, and `b` is borrowed for it
  obtain ⟨b, l, hb, hl, hdigit⟩ : ∃ b l, b ≤ 1 ∧ l < 10 ∧
      l + src.toNat % 16 + x.toNat = dst.toNat % 16 + 10 * b ∧
      (if dst.toNat % 16 < src.toNat % 16 + x.toNat then low.toNat - 6 else low.toNat) + 16 * b
        = l + 2 ^ 32 * b := by
    by_cases h : dst.toNat % 16 < src.toNat % 16 + x.toNat
    · rw [if_pos h] at hlow' ⊢
      exact ⟨1, dst.toNat % 16 + 10 - src.toNat % 16 - x.toNat, by omega, by omega, by omega, by omega⟩
    · rw [if_neg h] at hlow' ⊢
      exact ⟨0, dst.toNat % 16 - src.toNat % 16 - x.toNat, by omega, by omega, by omega, by omega⟩
  obtain ⟨hvalue, hlow''⟩ := hdigit
  generalize (if dst.toNat % 16 < src.toNat % 16 + x.toNat then low.toNat - 6 else low.toNat) = adjusted
    at hres' hlow''
  have hcases : b = 0 ∨ b = 1 := by omega
  unfold decimal
  by_cases hborrow : dst.toNat / 16 < src.toNat / 16 + b
  · have hneg : res.toNat + 16 * (src.toNat / 16 + b - dst.toNat / 16) = 2 ^ 32 + l := by
      rcases hcases with rfl | rfl <;> omega
    have hsum : (Size.byte.maskOutAbove (res + 0xa0)).toNat
        = l + 16 * (10 + dst.toNat / 16 - src.toNat / 16 - b) := by
      rw [hmask, hadd]
      omega
    refine ⟨fun _ => ⟨⟨?_, ?_⟩, ?_⟩, fun h => absurd (hiff.2 (by omega)) h⟩ <;> rw [hsum] <;> omega
  · have hpos : res.toNat = l + 16 * (dst.toNat / 16 - src.toNat / 16 - b) := by
      rcases hcases with rfl | rfl <;> omega
    have hsum : (Size.byte.maskOutAbove res).toNat
        = l + 16 * (dst.toNat / 16 - src.toNat / 16 - b) := by
      rw [hmask]
      omega
    refine ⟨fun h => absurd (hiff.1 h) (by omega), fun _ => ⟨⟨?_, ?_⟩, ?_⟩⟩ <;> rw [hsum] <;> omega

end

/-! ## Runs -/

/-- `ABCD` and `SBCD`. -/
def decimalOp : Operation → Op
  | .sum => abcd
  | .difference => sbcd

/-- `ABCD -(Ay),-(Ax)` and `SBCD -(Ay),-(Ax)`. -/
def decimalMm : Operation → M68kiCpu → M68kiCpu
  | .sum => opAbcdMm
  | .difference => opSbcdMm

/-- What `ABCD` and `SBCD` make of two bytes of digits. -/
theorem decimalOp_spec (k : Operation) (s : M68kiCpu) {src dst : UInt32} (hs : Digits src)
    (hd : Digits dst) :
    Digits (decimalOp k .byte s src dst).1 ∧
      Result k 100 (decimal dst) (decimal src) s.carryIn (decimal (decimalOp k .byte s src dst).1)
        (decimalOp k .byte s src dst).2.carryIn := by
  have hx := s.carryIn_le
  rw [← toNat_xflagAs1] at hx ⊢
  have hlt : ∀ {a : UInt32}, Digits a → decimal a < 100 := fun ha => by
    have hl := ha.low
    have hh := ha.high
    unfold decimal
    omega
  cases k with
  | sum =>
    obtain ⟨low, hlow⟩ : ∃ low, low = lowNibble src + lowNibble dst + s.xflagAs1 := ⟨_, rfl⟩
    obtain ⟨res, hres⟩ : ∃ res, res = (if low > 9 then low + 6 else low)
        + (highNibble src + highNibble dst) := ⟨_, rfl⟩
    obtain ⟨hcarry, hnone⟩ := digits_sum hs hd hx hlow hres
    obtain ⟨c, hc⟩ : ∃ c : UInt32, c = if res > 0x99 then 0x100 else 0 := ⟨_, rfl⟩
    have hone : (decimalOp .sum .byte s src dst).1
        = Size.byte.maskOutAbove (if c ≠ 0 then res - 0xa0 else res) := by
      rw [hc, hres, hlow]
      rfl
    have hout : (decimalOp .sum .byte s src dst).2.carryIn = (c.toNat.testBit 8).toNat := by
      rw [hc, hres, hlow]
      rfl
    rw [hone, hout]
    by_cases h : res > 0x99
    · obtain ⟨hdig, hval⟩ := hcarry h
      rw [if_pos h] at hc
      rw [hc, if_pos (by decide), maskOutAbove_of_lt .byte hdig.lt]
      exact ⟨hdig, hval, hlt hdig, by decide⟩
    · obtain ⟨hdig, hval⟩ := hnone h
      rw [if_neg h] at hc
      rw [hc, if_neg (by decide), maskOutAbove_of_lt .byte hdig.lt]
      exact ⟨hdig, hval, hlt hdig, by decide⟩
  | difference =>
    obtain ⟨low, hlow⟩ : ∃ low, low = lowNibble dst - lowNibble src - s.xflagAs1 := ⟨_, rfl⟩
    obtain ⟨res, hres⟩ : ∃ res, res = (if low > 9 then low - 6 else low)
        + (highNibble dst - highNibble src) := ⟨_, rfl⟩
    obtain ⟨hborrow, hnone⟩ := digits_difference hs hd hx hlow hres
    obtain ⟨c, hc⟩ : ∃ c : UInt32, c = if res > 0x99 then 0x100 else 0 := ⟨_, rfl⟩
    have hone : (decimalOp .difference .byte s src dst).1
        = Size.byte.maskOutAbove (if c ≠ 0 then res + 0xa0 else res) := by
      rw [hc, hres, hlow]
      rfl
    have hout : (decimalOp .difference .byte s src dst).2.carryIn = (c.toNat.testBit 8).toNat := by
      rw [hc, hres, hlow]
      rfl
    rw [hone, hout]
    by_cases h : res > 0x99
    · obtain ⟨hdig, hval⟩ := hborrow h
      rw [if_pos h] at hc
      rw [hc, if_pos (by decide)]
      exact ⟨hdig, hval, hlt hdig, by decide⟩
    · obtain ⟨hdig, hval⟩ := hnone h
      rw [if_neg h] at hc
      rw [hc, if_neg (by decide)]
      exact ⟨hdig, hval, hlt hdig, by decide⟩

theorem decimal_eq_zero (a : UInt32) : decimal a = 0 ↔ a = 0 := by
  unfold decimal
  rw [← UInt32.toNat_inj]
  show _ ↔ a.toNat = 0
  omega

theorem computes_decimal (k : Operation) : Computes k .byte 100 decimal Digits (decimalOp k) := by
  refine ⟨fun s src dst hs hd => (decimalOp_spec k s hs hd).2,
    fun s src dst hs hd => (decimalOp_spec k s hs hd).1, fun h => h.lt, ?_, ?_⟩
  · intro s src dst
    cases k <;> rfl
  · intro s src dst hs hd
    rw [decimal_eq_zero]
    cases k with
    | sum => exact or_eq_zero _ _
    | difference => exact or_eq_zero _ _

/-- The decimal number of so many bytes right below the address. -/
def decimalBelow (m : Memory) (a : UInt32) (size : Nat) : Nat := wide .byte 100 decimal m a size

/-- The bytes right below the address are digits. -/
def DigitsBelow (m : Memory) (a : UInt32) (size : Nat) : Prop :=
  ∀ i < size, Digits (unitBelow .byte m a i)

/-- What `n` times `ABCD -(Ay),-(Ax)` or `SBCD -(Ay),-(Ax)` leave. -/
structure DecimalResult (k : Operation) (s : M68kiCpu) (n : Nat) (t : M68kiCpu) : Prop where
  chained : Chained .byte s n t
  digits : DigitsBelow t.memory (s.dar s.addressX) n
  result : Result k (100 ^ n) (decimalBelow s.memory (s.dar s.addressX) n)
    (decimalBelow s.memory (s.dar s.addressY) n) s.carryIn
    (decimalBelow t.memory (s.dar s.addressX) n) t.carryIn
  zero : t.notZFlag = 0 ↔ s.notZFlag = 0 ∧ decimalBelow t.memory (s.dar s.addressX) n = 0

/-- A decimal number is added to another one, or taken from it, two digits at a time. -/
theorem iterate_decimalMm (k : Operation) (s : M68kiCpu) (hr : Registers .byte s) (n : Nat)
    (hover : (s.dar s.addressX - s.dar s.addressY).toNat + n ≤ 2 ^ 32)
    (hx : DigitsBelow s.memory (s.dar s.addressX) n) (hy : DigitsBelow s.memory (s.dar s.addressY) n) :
    DecimalResult k s n ((decimalMm k)^[n] s) := by
  have hrun := chainResult (computes_decimal k) hr n
    (by rw [Size.bytes, Nat.mul_one]; exact hover) hx hy
  have hmm : (fun t => opMm .byte t (decimalOp k)) = decimalMm k := by cases k <;> rfl
  rw [hmm] at hrun
  exact ⟨hrun.chained, hrun.valid, hrun.result, hrun.zero⟩

theorem iterate_decimalMm_pair : DecimalResult .sum pair 2 (opAbcdMm^[2] pair) := by
  refine iterate_decimalMm .sum pair ⟨by decide, by decide, by decide⟩ 2 (by decide) ?_ ?_
  · intro i hi
    rcases i with _ | _ | i
    · exact ⟨by decide, by decide⟩
    · exact ⟨by decide, by decide⟩
    · omega
  · intro i hi
    rcases i with _ | _ | i
    · exact ⟨by decide, by decide⟩
    · exact ⟨by decide, by decide⟩
    · omega

end CuteMac.M68k
