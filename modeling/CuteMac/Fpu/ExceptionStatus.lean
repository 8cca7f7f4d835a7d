/-
  The exception status after an operation (`m68kfpu.c`).

  * `Operation`: an operation of the general form, with its source;
  * `Report`: what an operation tells of its exceptions in FPSR;
  * `Determined`: the condition under which two histories show the same status;
  * `GuestStep`: the instructions of the coprocessor among those of the integer unit.

  The flags of the arithmetic wait until an operation collects them, whatever has raised
  them; the library's functions clear two bits of the status, and the other operations none.
-/
import CuteMac.Fpu.ContextSwitch
import CuteMac.Fpu.Refused
import CuteMac.Lib.Pages

namespace CuteMac.Fpu

open ByteMemory Core M68kiCpu Outcome
open Machine (run Guarded)

/-! ## What operands leave alone -/

/-- The registers that operations compute with, the status, and what waits to be reported. -/
structure SameUnit (s t : M68kiCpu) : Prop where
  fp : t.fp = s.fp
  fpcr : t.fpcr = s.fpcr
  fpsr : t.fpsr = s.fpsr
  floatRoundingMode : t.floatRoundingMode = s.floatRoundingMode
  floatExceptionFlags : t.floatExceptionFlags = s.floatExceptionFlags

namespace SameUnit
variable {s t u : M68kiCpu}

theorem refl (s : M68kiCpu) : SameUnit s s := ⟨rfl, rfl, rfl, rfl, rfl⟩

theorem trans (h : SameUnit s t) (h' : SameUnit t u) : SameUnit s u :=
  ⟨h'.fp.trans h.fp, h'.fpcr.trans h.fpcr, h'.fpsr.trans h.fpsr,
    h'.floatRoundingMode.trans h.floatRoundingMode,
    h'.floatExceptionFlags.trans h.floatExceptionFlags⟩

theorem of_advanced (h : Advanced s t) : SameUnit s t := by
  obtain ⟨pc, rfl⟩ := h
  exact ⟨rfl, rfl, rfl, rfl, rfl⟩

theorem write16 (s : M68kiCpu) (address : UInt32) (value : UInt16) :
    SameUnit s (s.write16 address value) :=
  ⟨rfl, rfl, rfl, rfl, rfl⟩

theorem write32 (s : M68kiCpu) (address value : UInt32) : SameUnit s (s.write32 address value) :=
  ⟨rfl, rfl, rfl, rfl, rfl⟩

theorem storeExtendedFloat80 (s : M68kiCpu) (address : UInt32) (x : Floatx80) :
    SameUnit s (s.storeExtendedFloat80 address x) := by
  unfold M68kiCpu.storeExtendedFloat80
  exact (((write16 s _ _).trans (write16 _ _ _)).trans (write32 _ _ _)).trans (write32 _ _ _)

theorem fpuReport (s : M68kiCpu) : SameUnit s s.fpuReport := by
  obtain ⟨-, -, hfp, hfpcr, hfpsr, hmode, hflags⟩ := fpuReport_kept s
  exact ⟨hfp, hfpcr, hfpsr, hmode, hflags⟩

end SameUnit

section
variable {s : M68kiCpu} {ea : UInt16} {size : UInt32} {modes extended : List Nat}

theorem sameUnit_eaAddress {p : UInt32 × M68kiCpu} (h : s.eaAddress size modes extended ea = some p) :
    SameUnit s p.2 := by
  unfold eaAddress at h
  dsimp only at h
  split at h
  · split at h <;> cases h
    · exact SameUnit.refl s
    · exact ⟨rfl, rfl, rfl, rfl, rfl⟩
    · exact ⟨rfl, rfl, rfl, rfl, rfl⟩
    · exact ⟨rfl, rfl, rfl, rfl, rfl⟩
    · exact SameUnit.of_advanced (advanced_getEaIx s _)
  · split at h
    · split at h <;> cases h
      · exact ⟨rfl, rfl, rfl, rfl, rfl⟩
      · exact ⟨rfl, rfl, rfl, rfl, rfl⟩
      · exact ⟨rfl, rfl, rfl, rfl, rfl⟩
      · exact SameUnit.of_advanced (advanced_getEaIx s _)
    · cases h

/-- An operand in memory, or the report of its mode. -/
theorem sameUnit_address (f : UInt32 × M68kiCpu → M68kiCpu) (hf : ∀ p, SameUnit p.2 (f p)) :
    SameUnit s
      (match s.eaAddress size modes extended ea with
        | some p => f p
        | none => s.fpuReport) := by
  cases h : s.eaAddress size modes extended ea with
  | none => exact SameUnit.fpuReport s
  | some p => exact (sameUnit_eaAddress h).trans (hf p)

theorem sameUnit_read {α : Type} (f : UInt32 × M68kiCpu → α) (zero : α) :
    SameUnit s
      (match s.eaAddress size modes extended ea with
        | some p => (f p, p.2)
        | none => (zero, s.fpuReport)).2 := by
  cases h : s.eaAddress size modes extended ea with
  | none => exact SameUnit.fpuReport s
  | some p => exact sameUnit_eaAddress h

theorem sameUnit_readEa8 : SameUnit s (s.readEa8 ea).2 := by
  unfold readEa8
  split_ifs
  · exact SameUnit.refl s
  · exact ⟨rfl, rfl, rfl, rfl, rfl⟩
  · exact sameUnit_read (fun p => p.2.read8 p.1) 0

theorem sameUnit_readEa16 : SameUnit s (s.readEa16 ea).2 := by
  unfold readEa16
  split_ifs
  · exact SameUnit.refl s
  · exact ⟨rfl, rfl, rfl, rfl, rfl⟩
  · exact sameUnit_read (fun p => p.2.read16 p.1) 0

theorem sameUnit_readEa32 : SameUnit s (s.readEa32 ea).2 := by
  unfold readEa32
  split_ifs
  · exact SameUnit.refl s
  · exact ⟨rfl, rfl, rfl, rfl, rfl⟩
  · exact sameUnit_read (fun p => p.2.read32 p.1) 0

theorem sameUnit_readEa64 : SameUnit s (s.readEa64 ea).2 := by
  unfold readEa64
  split_ifs
  · exact ⟨rfl, rfl, rfl, rfl, rfl⟩
  · exact sameUnit_read (fun p => long64 (p.2.read32 p.1) (p.2.read32 (p.1 + 4))) 0

theorem sameUnit_readEaFpe (di : UInt32) : SameUnit s (s.readEaFpe ea di).2 := by
  unfold readEaFpe
  split_ifs
  · exact SameUnit.refl s
  · exact ⟨rfl, rfl, rfl, rfl, rfl⟩
  · exact sameUnit_read (fun p => p.2.loadExtendedFloat80 p.1) ⟨0, 0⟩

theorem sameUnit_readEaPack : SameUnit s (s.readEaPack ea).2 :=
  sameUnit_read (fun p => some (take p.2.memory p.1 12)) none

theorem sameUnit_diModeEa : SameUnit s (s.diModeEa ea).2 := by
  unfold diModeEa
  split_ifs
  · exact ⟨rfl, rfl, rfl, rfl, rfl⟩
  · exact SameUnit.refl s

theorem sameUnit_writeEa8 (data : UInt8) : SameUnit s (s.writeEa8 ea data) := by
  unfold writeEa8
  split_ifs
  · exact ⟨rfl, rfl, rfl, rfl, rfl⟩
  · exact sameUnit_address (fun p => p.2.write8 p.1 data) fun _ => ⟨rfl, rfl, rfl, rfl, rfl⟩

theorem sameUnit_writeEa16 (data : UInt16) : SameUnit s (s.writeEa16 ea data) := by
  unfold writeEa16
  split_ifs
  · exact ⟨rfl, rfl, rfl, rfl, rfl⟩
  · exact sameUnit_address (fun p => p.2.write16 p.1 data) fun _ => ⟨rfl, rfl, rfl, rfl, rfl⟩

theorem sameUnit_writeEa32 (data : UInt32) : SameUnit s (s.writeEa32 ea data) := by
  unfold writeEa32
  split_ifs
  · exact ⟨rfl, rfl, rfl, rfl, rfl⟩
  · exact ⟨rfl, rfl, rfl, rfl, rfl⟩
  · exact sameUnit_address (fun p => p.2.write32 p.1 data) fun _ => ⟨rfl, rfl, rfl, rfl, rfl⟩

theorem sameUnit_writeEa64 (data : UInt64) : SameUnit s (s.writeEa64 ea data) := by
  unfold writeEa64
  exact sameUnit_address
    (fun p => (p.2.write32 p.1 (data >>> 32).toUInt32).write32 (p.1 + 4) data.toUInt32)
    fun p => (SameUnit.write32 p.2 _ _).trans (SameUnit.write32 _ _ _)

theorem fpsr_writeEaPack (packed : List UInt8 × UInt8) : (s.writeEaPack ea packed).fpsr = s.fpsr := by
  unfold writeEaPack
  cases h : s.eaAddress 12 [2, 3, 4] [] ea with
  | none => exact (SameUnit.fpuReport s).fpsr
  | some p => exact (sameUnit_eaAddress h).fpsr

theorem sameUnit_writeEaFpe (x : Floatx80) (di : UInt32) : SameUnit s (s.writeEaFpe ea x di) := by
  unfold writeEaFpe
  split_ifs
  · exact SameUnit.storeExtendedFloat80 s di x
  · exact sameUnit_address (fun p => p.2.storeExtendedFloat80 p.1 x) fun p =>
      SameUnit.storeExtendedFloat80 p.2 p.1 x

end

/-! ## The bits of FPSR -/

/-- The exception status without BSUN. -/
def statusByte (fpsr : UInt32) : UInt32 := fpsr &&& 0x7f00

theorem or_and_word (f g m : UInt32) : (f ||| g) &&& m = (f &&& m) ||| (g &&& m) := by
  rw [← UInt32.toBitVec_inj]
  simp only [UInt32.toBitVec_or, UInt32.toBitVec_and]
  exact BitVec.and_or_distrib_right

/-- The accrued exceptions of `f` are among those of `g`. -/
def Accrues (f g : UInt32) : Prop := ∃ b, g &&& 0xf8 = (f &&& 0xf8) ||| b

namespace Accrues
variable {f g k : UInt32}

theorem of_eq (h : g &&& 0xf8 = f &&& 0xf8) : Accrues f g := ⟨0, by rw [h, UInt32.or_zero]⟩

theorem refl (f : UInt32) : Accrues f f := of_eq rfl

theorem trans (h : Accrues f g) (h' : Accrues g k) : Accrues f k := by
  obtain ⟨b, hb⟩ := h
  obtain ⟨c, hc⟩ := h'
  exact ⟨b ||| c, by rw [hc, hb, UInt32.or_assoc]⟩

theorem or (f b : UInt32) : Accrues f (f ||| b) := ⟨b &&& 0xf8, or_and_word f b 0xf8⟩

/-- An exception that is accrued under a condition. -/
theorem ite (h : Accrues f g) (c : Prop) [Decidable c] (b : UInt32) :
    Accrues f (if c then g ||| b else g) := by
  by_cases hc : c
  · rw [if_pos hc]
    exact h.trans (or g b)
  · rw [if_neg hc]
    exact h

end Accrues

theorem accrues_updateAccruedExceptions (f : UInt32) : Accrues f (updateAccruedExceptions f) := by
  unfold updateAccruedExceptions
  exact (((((Accrues.refl f).ite _ _).ite _ _).ite _ _).ite _ _).ite _ _

/-- Bits beside a mask that are set under a condition. -/
theorem and_ite_or {f b m : UInt32} (c : Prop) [Decidable c] (h : b &&& m = 0) :
    (if c then f ||| b else f) &&& m = f &&& m := by
  by_cases hc : c
  · rw [if_pos hc, Pages.or_and_of_disjoint h]
  · rw [if_neg hc]

theorem status_updateAccruedExceptions (f : UInt32) :
    statusByte (updateAccruedExceptions f) = statusByte f := by
  unfold statusByte updateAccruedExceptions
  dsimp only
  rw [and_ite_or _ (by decide), and_ite_or _ (by decide), and_ite_or _ (by decide),
    and_ite_or _ (by decide), and_ite_or _ (by decide)]

theorem accrued_exceptionBits (flags : UInt8) : exceptionBits flags &&& 0xf8 = 0 := by
  unfold exceptionBits
  split_ifs <;> decide

theorem status_exceptionBits (flags : UInt8) : exceptionBits flags &&& 0x7f00 = exceptionBits flags := by
  unfold exceptionBits
  split_ifs <;> decide

theorem conditionCodes_and (x : Floatx80) (m : UInt32) (h : m ∈ [(0xf8 : UInt32), 0x7f00]) :
    conditionCodes x &&& m = 0 := by
  simp only [List.mem_cons, List.not_mem_nil, or_false] at h
  unfold conditionCodes
  rcases h with rfl | rfl <;> split_ifs <;> decide

/-- Bits beside a mask that are cleared. -/
theorem and_not_and {f k m : UInt32} (h : ~~~k &&& m = m) : (f &&& ~~~k) &&& m = f &&& m := by
  rw [UInt32.and_assoc, h]

theorem setConditionCodes_and (o : Outcome) (x : Floatx80) (m : UInt32)
    (h : m ∈ [(0xf8 : UInt32), 0x7f00]) :
    (o.setConditionCodes x).fpsr &&& m = o.fpsr &&& m := by
  have hmask : ~~~fpccMask &&& m = m := by
    simp only [List.mem_cons, List.not_mem_nil, or_false] at h
    rcases h with rfl | rfl <;> decide
  show ((o.fpsr &&& ~~~fpccMask) ||| conditionCodes x) &&& m = _
  rw [Pages.or_and_of_disjoint (conditionCodes_and x m h), and_not_and hmask]

theorem status_setConditionCodes (o : Outcome) (x : Floatx80) :
    statusByte (o.setConditionCodes x).fpsr = statusByte o.fpsr :=
  setConditionCodes_and o x 0x7f00 (by decide)

theorem accrues_setConditionCodes (o : Outcome) (x : Floatx80) :
    Accrues o.fpsr (o.setConditionCodes x).fpsr :=
  Accrues.of_eq (setConditionCodes_and o x 0xf8 (by decide))

theorem status_setExceptionFlags (o : Outcome) :
    statusByte o.setExceptionFlags.fpsr = exceptionBits o.flags := by
  show statusByte (updateAccruedExceptions _) = _
  rw [status_updateAccruedExceptions]
  unfold statusByte
  rw [or_and_word, status_exceptionBits, UInt32.and_assoc]
  have hnone : ~~~(0x00007f00 : UInt32) &&& 0x7f00 = 0 := by decide
  rw [hnone, UInt32.and_zero, UInt32.zero_or]

theorem accrues_setExceptionFlags (o : Outcome) : Accrues o.fpsr o.setExceptionFlags.fpsr := by
  refine Accrues.trans (Accrues.of_eq ?_) (accrues_updateAccruedExceptions _)
  rw [Pages.or_and_of_disjoint (accrued_exceptionBits _), and_not_and (by decide)]

/-- The library's functions leave five bits of the status as they were. -/
theorem status_setOperrIfNan (o : Outcome) (result source : Floatx80) :
    statusByte (o.setOperrIfNan result source).fpsr
      = (o.fpsr &&& 0x5d00) ||| (if result.isNan && !source.isNan then 0x2000 else 0) := by
  show statusByte (updateAccruedExceptions _) = _
  rw [status_updateAccruedExceptions]
  unfold statusByte
  have hmask : ~~~(0x00002200 : UInt32) &&& 0x7f00 = 0x5d00 := by decide
  by_cases herr : result.isNan && !source.isNan
  · rw [if_pos herr, if_pos herr, or_and_word, UInt32.and_assoc, hmask]
    rfl
  · rw [if_neg herr, if_neg herr, UInt32.and_assoc, hmask, UInt32.or_zero]

theorem accrues_setOperrIfNan (o : Outcome) (result source : Floatx80) :
    Accrues o.fpsr (o.setOperrIfNan result source).fpsr := by
  refine Accrues.trans ?_ (accrues_updateAccruedExceptions _)
  have hclear : Accrues o.fpsr (o.fpsr &&& ~~~(0x00002200 : UInt32)) :=
    Accrues.of_eq (and_not_and (by decide))
  exact hclear.ite _ _

/-! ## Operations -/

/-- An operation with its source; the conversion of the source can raise exceptions too. -/
structure Operation where
  opmode : Nat
  dst : Fin 8
  source : Floatx80
  converted : UInt8
  deriving DecidableEq

/-- What an operation tells of its exceptions. -/
inductive Report where
  /-- all that waits goes to the status -/
  | collected
  /-- a NaN out of a number is an operand error -/
  | domain
  | silent
  deriving DecidableEq, Repr

/-- The operations that write a register, other than FMOVE. -/
def reportOf (opmode : Nat) : Option Report :=
  if opmode ∈ [0x04, 0x20, 0x21, 0x22, 0x23, 0x25, 0x28] then some .collected
  else if opmode ∈ [0x01, 0x03, 0x0e, 0x18, 0x1a, 0x1d, 0x1e, 0x1f, 0x24, 0x26, 0x27, 0x30, 0x31,
      0x32, 0x33, 0x34, 0x35, 0x36, 0x37] then some .silent
  else (libmOpmode opmode).map fun _ => .domain

section
variable (arith : SoftFloat)

/-- What the arithmetic makes of the operands of an operation that collects the exceptions. -/
def computed (mode : UInt32) (opmode : Nat) (x source : Floatx80) : Floatx80 × UInt8 :=
  match opmode with
  | 0x04 => arith.sqrt mode source
  | 0x20 => arith.binary .div mode x source
  | 0x22 => arith.binary .add mode x source
  | 0x23 => arith.binary .mul mode x source
  | 0x28 => arith.binary .sub mode x source
  | _ => arith.binary .rem mode x source

/-- A number has no image under a function of the library. -/
def domainError (mode : UInt32) (opmode : Nat) (source : Floatx80) : Bool :=
  match libmOpmode opmode with
  | some f => (arith.libm f mode source).1.isNan && !source.isNan
  | none => false

namespace M68kiCpu

/-- The exceptions that the conversion of a source raises. -/
def sourceRaises (s : M68kiCpu) (src : Nat) (ea : UInt16) : UInt8 :=
  match src with
  | 1 => (arith.float32ToFloatx80 (s.readEa32 ea).1).2
  | 5 => (arith.float64ToFloatx80 (s.readEa64 ea).1).2
  | _ => 0

/-- The state in which the operands are read. -/
def taken (s : M68kiCpu) : M68kiCpu := { s with fpuJustReset := false, fpiar := s.ppc }.readImm16.2

/-- The operation that is next, if one is. -/
def operation (s : M68kiCpu) : Option Operation :=
  let w2 := s.readImm16.1
  let src := ((w2 >>> 10) &&& 7).toNat
  let memory := (w2 >>> 14) &&& 1 ≠ 0
  if s.fpuModel = .none ∨ s.ir &&& 0xff00 ≠ 0xf200 ∨ (s.ir >>> 6) &&& 3 ≠ 0 ∨
      ((w2 >>> 13) &&& 7).toNat ∉ [0, 2] ∨ memory ∧ src = 7 then none
  else
    some
      { opmode := (opmodeRounding (w2 &&& 0x7f)).2.toNat
        dst := Fin.ofNat 8 ((w2 >>> 7) &&& 7).toNat
        source := if memory then (s.taken.readSource arith src s.ea).1 else s.fp (Fin.ofNat 8 src)
        converted := if memory then s.taken.sourceRaises arith src s.ea else 0 }

end M68kiCpu

variable {arith} {s t : M68kiCpu} {i : Operation}

theorem SameUnit.outcome (h : SameUnit s t) (flags : UInt8) :
    (t.raise flags).outcome = ⟨s.fp, s.fpsr, s.floatExceptionFlags ||| flags⟩ := by
  show (⟨t.fp, t.fpsr, t.floatExceptionFlags ||| flags⟩ : Outcome) = _
  rw [h.fp, h.fpsr, h.floatExceptionFlags]

/-- The source of an operation: the rest of the unit is as before, but for the exceptions. -/
theorem readSource_unit (s : M68kiCpu) (ea : UInt16) : ∀ src,
    ∃ u, SameUnit s u ∧ (s.readSource arith src ea).2 = u.raise (s.sourceRaises arith src ea)
  | 0 => ⟨_, sameUnit_readEa32, (raise_zero _).symm⟩
  | 1 => ⟨_, sameUnit_readEa32, rfl⟩
  | 2 => ⟨_, sameUnit_diModeEa.trans (sameUnit_readEaFpe _), (raise_zero _).symm⟩
  | 3 => ⟨_, sameUnit_readEaPack, (raise_zero _).symm⟩
  | 4 => ⟨_, sameUnit_readEa16, (raise_zero _).symm⟩
  | 5 => ⟨_, sameUnit_readEa64, rfl⟩
  | _ + 6 => ⟨_, sameUnit_readEa8, (raise_zero _).symm⟩

theorem fpsr_roundResult (s : M68kiCpu) (round : Nat) (dst : Fin 8) :
    (s.roundResult arith round dst).fpsr = s.fpsr := by
  unfold roundResult
  split <;> rfl

/-- An operation that is executed: its outcome, and the rounding of the result after it. -/
theorem execute_operation {o : Outcome} (h : s.operation arith = some i)
    (ho : operate arith s.floatRoundingMode i.opmode i.dst i.source
      ⟨s.fp, s.fpsr, s.floatExceptionFlags ||| i.converted⟩ = some o) :
    ∃ u : M68kiCpu, u.fpcr = s.fpcr ∧ s.execute arith
      = (u.setOutcome o).roundResult arith (u.rounding (s.readImm16.1 &&& 0x7f)) i.dst := by
  unfold M68kiCpu.operation at h
  dsimp only at h
  split at h
  · cases h
  next hcond =>
  simp only [not_or, not_not] at hcond
  obtain ⟨hmodel, hline, hform, hclass, hrom⟩ := hcond
  cases h
  have hgeneral : s.execute arith = s.taken.fpgenRmReg arith s.readImm16.1 := by
    unfold execute fpuOp0
    rw [if_neg hmodel, if_pos hline]
    dsimp only
    rw [if_pos hform]
    unfold M68kiCpu.general
    simp only [List.mem_cons, List.not_mem_nil, or_false] at hclass
    have hword : ({ s with fpuJustReset := false, fpiar := s.ppc } : M68kiCpu).readImm16.1
      = s.readImm16.1 := rfl
    rw [hword]
    rcases hclass with hclass | hclass <;> rw [hclass] <;> rfl
  rw [hgeneral]
  unfold fpgenRmReg
  dsimp only
  have htaken : SameUnit s s.taken := ⟨rfl, rfl, rfl, rfl, rfl⟩
  by_cases hmemory : (s.readImm16.1 >>> 14) &&& 1 ≠ 0
  · rw [if_neg (fun hc => hrom ⟨hmemory, hc.2⟩), if_pos hmemory]
    obtain ⟨u, hu, hread⟩ := @readSource_unit arith s.taken s.ea ((s.readImm16.1 >>> 10) &&& 7).toNat
    have hea : s.taken.ea = s.ea := rfl
    rw [if_pos hmemory, if_pos hmemory] at ho
    rw [hea, hread, (htaken.trans hu).outcome]
    have hmode : (u.raise (s.taken.sourceRaises arith ((s.readImm16.1 >>> 10) &&& 7).toNat s.ea)).floatRoundingMode
        = s.floatRoundingMode := (htaken.trans hu).floatRoundingMode
    rw [hmode, ho]
    exact ⟨_, (htaken.trans hu).fpcr, rfl⟩
  · rw [if_neg (fun hc => hmemory hc.1), if_neg hmemory]
    rw [if_neg hmemory, if_neg hmemory, UInt8.or_zero] at ho
    have hout : s.taken.outcome = ⟨s.fp, s.fpsr, s.floatExceptionFlags⟩ := rfl
    have hmode : s.taken.floatRoundingMode = s.floatRoundingMode := rfl
    have hfp : s.taken.fp = s.fp := rfl
    dsimp only
    rw [hout, hmode, hfp, ho]
    exact ⟨_, htaken.fpcr, rfl⟩

/-- What is in FPSR after an operation. -/
theorem fpsr_execute {o : Outcome} (h : s.operation arith = some i)
    (ho : operate arith s.floatRoundingMode i.opmode i.dst i.source
      ⟨s.fp, s.fpsr, s.floatExceptionFlags ||| i.converted⟩ = some o) :
    (s.execute arith).fpsr = o.fpsr := by
  obtain ⟨u, -, hexec⟩ := execute_operation h ho
  rw [hexec, fpsr_roundResult]
  rfl

theorem operate_collected {mode : UInt32} {n : Nat} {dst : Fin 8} {source : Floatx80} {o : Outcome}
    (h : reportOf n = some .collected) :
    operate arith mode n dst source o
      = some (o.arithmetic dst (computed arith mode n (o.fp dst) source)) := by
  have hn : n ∈ [0x04, 0x20, 0x21, 0x22, 0x23, 0x25, 0x28] := by
    by_contra hn
    unfold reportOf at h
    rw [if_neg hn] at h
    split at h
    · cases h
    · cases hf : libmOpmode n <;> rw [hf] at h <;> cases h
  simp only [List.mem_cons, List.not_mem_nil, or_false] at hn
  rcases hn with rfl | rfl | rfl | rfl | rfl | rfl | rfl <;> rfl

theorem libmOpmode_of_domain {n : Nat} (h : reportOf n = some .domain) :
    ∃ f, libmOpmode n = some f := by
  unfold reportOf at h
  split at h
  · cases h
  split at h
  · cases h
  · cases hf : libmOpmode n with
    | none =>
      rw [hf] at h
      cases h
    | some f => exact ⟨f, rfl⟩

theorem operate_libm {mode : UInt32} {n : Nat} {dst : Fin 8} {source : Floatx80} {o : Outcome}
    {f : LibmFunction} (h : libmOpmode n = some f) :
    operate arith mode n dst source o
      = some (o.transcendental dst source (arith.libm f mode source)) := by
  unfold libmOpmode at h
  split at h <;> first | cases h; done | (cases h; rfl)

/-- The other operations leave FPSR as it was, up to the condition codes. -/
theorem operate_silent (arith : SoftFloat) (mode : UInt32) {n : Nat} (dst : Fin 8)
    (source : Floatx80) (o : Outcome) (h : reportOf n = some .silent) :
    ∃ (o' : Outcome) (x : Floatx80),
      operate arith mode n dst source o = some (o'.setConditionCodes x) ∧ o'.fpsr = o.fpsr := by
  have hn : n ∈ [0x01, 0x03, 0x0e, 0x18, 0x1a, 0x1d, 0x1e, 0x1f, 0x24, 0x26, 0x27, 0x30, 0x31,
      0x32, 0x33, 0x34, 0x35, 0x36, 0x37] := by
    by_contra hn
    unfold reportOf at h
    split at h
    · cases h
    · cases hf : libmOpmode n <;> rw [hf] at h <;> cases h
  simp only [List.mem_cons, List.not_mem_nil, or_false] at hn
  rcases hn with rfl | rfl | rfl | rfl | rfl | rfl | rfl | rfl | rfl | rfl | rfl | rfl | rfl | rfl |
    rfl | rfl | rfl | rfl | rfl <;> exact ⟨_, _, rfl, rfl⟩

/-! ## The status -/

namespace M68kiCpu

/-- The exceptions in the state before that are in the status after. -/
def shown (arith : SoftFloat) (s : M68kiCpu) (i : Operation) : Report → UInt32
  | .collected =>
    exceptionBits (s.floatExceptionFlags ||| i.converted |||
      (computed arith s.floatRoundingMode i.opmode (s.fp i.dst) i.source).2)
  | .domain =>
    (s.fpsr &&& 0x5d00) |||
      (if domainError arith s.floatRoundingMode i.opmode i.source then 0x2000 else 0)
  | .silent => statusByte s.fpsr

end M68kiCpu

/-- The status after an operation, from the state before. -/
theorem status_execute {r : Report} (h : s.operation arith = some i) (hr : reportOf i.opmode = some r) :
    statusByte (s.execute arith).fpsr = s.shown arith i r := by
  cases r with
  | collected =>
    rw [fpsr_execute h (operate_collected hr)]
    show statusByte (setConditionCodes (setExceptionFlags _) _).fpsr = _
    rw [status_setConditionCodes, status_setExceptionFlags]
    rfl
  | domain =>
    obtain ⟨f, hf⟩ := libmOpmode_of_domain hr
    rw [fpsr_execute h (operate_libm hf)]
    show statusByte (setConditionCodes (setOperrIfNan _ _ _) _).fpsr = _
    rw [status_setConditionCodes, status_setOperrIfNan]
    unfold M68kiCpu.shown domainError
    rw [hf]
    rfl
  | silent =>
    obtain ⟨o, x, ho, hfpsr⟩ := operate_silent arith s.floatRoundingMode i.dst
      i.source ⟨s.fp, s.fpsr, s.floatExceptionFlags ||| i.converted⟩ hr
    rw [fpsr_execute h ho, status_setConditionCodes, hfpsr]
    rfl

/-! ## The accrued exceptions -/

theorem accrues_plain (o : Outcome) (dst : Fin 8) (result : Floatx80 × UInt8) :
    Accrues o.fpsr (o.plain dst result).fpsr :=
  accrues_setConditionCodes (o.store dst result) result.1

theorem accrues_arithmetic (o : Outcome) (dst : Fin 8) (result : Floatx80 × UInt8) :
    Accrues o.fpsr (o.arithmetic dst result).fpsr :=
  (accrues_setExceptionFlags (o.store dst result)).trans (accrues_setConditionCodes _ result.1)

theorem accrues_transcendental (o : Outcome) (dst : Fin 8) (source : Floatx80)
    (result : Floatx80 × UInt8) : Accrues o.fpsr (o.transcendental dst source result).fpsr :=
  (accrues_setOperrIfNan (o.store dst result) result.1 source).trans
    (accrues_setConditionCodes _ result.1)

theorem accrues_compareInfinities (o : Outcome) (d x : Floatx80) :
    Accrues o.fpsr (compareInfinities o d x).fpsr :=
  (Accrues.of_eq (and_not_and (by decide))).trans (Accrues.or _ _)

theorem accrues_operate {mode : UInt32} {n : Nat} {dst : Fin 8} {source : Floatx80} {o o' : Outcome}
    (h : operate arith mode n dst source o = some o') : Accrues o.fpsr o'.fpsr := by
  unfold operate at h
  dsimp only at h
  split at h
  case h_20 =>
    -- FCMP
    split at h
    · cases h
      exact accrues_compareInfinities o _ _
    · cases h
      exact accrues_setConditionCodes o _
  case h_21 =>
    -- FTST
    cases h
    exact accrues_setConditionCodes o _
  case h_22 =>
    -- FSINCOS, and the library's functions
    split at h
    · cases h
      exact accrues_setConditionCodes ((o.store dst _).store _ _) _
    · cases hf : libmOpmode n with
      | none =>
        rw [hf] at h
        cases h
      | some f =>
        rw [hf] at h
        cases h
        exact accrues_transcendental o dst source _
  all_goals
    cases h
    first
    | with_reducible exact accrues_plain o dst _
    | with_reducible exact accrues_arithmetic o dst _

namespace M68kiCpu

/-- The guest writes FPSR, or restores a NULL frame. -/
def WritesStatus (s : M68kiCpu) : Prop :=
  let w2 := s.readImm16.1
  if s.ir &&& 0xff00 = 0xf200 then
    (s.ir >>> 6) &&& 3 = 0 ∧ ((w2 >>> 13) &&& 7).toNat = 4 ∧
      .fpsr ∈ selectedRegisters ((w2 >>> 10) &&& 7)
  else
    (s.ir >>> 6) &&& 3 = 1 ∧ eaMode s.ea ∈ [2, 3] ∧
      s.read32 (s.a (eaReg s.ea)) &&& 0xff000000 = 0

instance (s : M68kiCpu) : Decidable s.WritesStatus := by
  unfold WritesStatus
  infer_instance

end M68kiCpu

theorem accrues_fpgenRmReg (s : M68kiCpu) (w2 : UInt16) :
    Accrues s.fpsr (s.fpgenRmReg arith w2).fpsr := by
  unfold fpgenRmReg
  dsimp only
  split_ifs
  · exact accrues_plain s.outcome _ _
  all_goals rw [fpsr_roundResult]
  · obtain ⟨u, hu, hread⟩ := @readSource_unit arith s s.ea ((w2 >>> 10) &&& 7).toNat
    rw [hread, hu.outcome]
    split
    next o ho => exact accrues_operate ho
    next => exact Accrues.of_eq (by rw [(SameUnit.fpuReport _).fpsr]; exact congrArg (· &&& 0xf8) hu.fpsr)
  · split
    next o ho => exact accrues_operate ho
    next => exact Accrues.of_eq (by rw [(SameUnit.fpuReport _).fpsr])

theorem fpsr_fmoveRegMem (s : M68kiCpu) (w2 : UInt16) : (s.fmoveRegMem arith w2).fpsr = s.fpsr := by
  unfold fmoveRegMem
  dsimp only
  split
  · exact (sameUnit_writeEa32 _).fpsr
  · exact (sameUnit_writeEa32 _).fpsr
  · exact (sameUnit_diModeEa.trans (sameUnit_writeEaFpe _ _)).fpsr
  · exact fpsr_writeEaPack _
  · exact (sameUnit_writeEa16 _).fpsr
  · exact (sameUnit_writeEa64 _).fpsr
  · exact (sameUnit_writeEa8 _).fpsr
  · exact fpsr_writeEaPack _

/-! The transfers: FPSR is written by a load of the control registers only. -/

theorem fpsr_setControl {r : ControlRegister} (h : r ≠ .fpsr) (value : UInt32) :
    (s.setControl r value).fpsr = s.fpsr := by
  cases r with
  | fpsr => exact absurd rfl h
  | fpcr => rfl
  | fpiar => rfl

theorem fpsr_writeControls (ea : UInt16) (rs : List ControlRegister) : ∀ s : M68kiCpu,
    (s.writeControls ea rs).fpsr = s.fpsr := by
  induction rs with
  | nil => exact fun s => rfl
  | cons r rs ih =>
    intro s
    exact (ih _).trans (sameUnit_writeEa32 _).fpsr

theorem fpsr_readControls (ea : UInt16) (rs : List ControlRegister) (h : .fpsr ∉ rs) :
    ∀ s : M68kiCpu, (s.readControls ea rs).fpsr = s.fpsr := by
  induction rs with
  | nil => exact fun s => rfl
  | cons r rs ih =>
    intro s
    rw [List.mem_cons, not_or] at h
    exact (ih h.2 _).trans ((fpsr_setControl (Ne.symm h.1) _).trans sameUnit_readEa32.fpsr)

theorem fpsr_storeControls (rs : List ControlRegister) : ∀ (s : M68kiCpu) (address : UInt32),
    (s.storeControls address rs).fpsr = s.fpsr := by
  induction rs with
  | nil => exact fun s address => rfl
  | cons r rs ih => exact fun s address => ih _ _

theorem fpsr_loadControls (rs : List ControlRegister) (h : .fpsr ∉ rs) :
    ∀ (s : M68kiCpu) (address : UInt32), (s.loadControls address rs).fpsr = s.fpsr := by
  induction rs with
  | nil => exact fun s address => rfl
  | cons r rs ih =>
    intro s address
    rw [List.mem_cons, not_or] at h
    exact (ih h.2 _ _).trans (fpsr_setControl (Ne.symm h.1) _)

theorem fpsr_storeRegisters (ea : UInt16) (rs : List (Fin 8)) : ∀ (s : M68kiCpu) (di : UInt32),
    (s.storeRegisters ea di rs).fpsr = s.fpsr := by
  induction rs with
  | nil => exact fun s di => rfl
  | cons r rs ih =>
    intro s di
    exact (ih _ _).trans (sameUnit_writeEaFpe _ _).fpsr

theorem fpsr_loadRegisters (ea : UInt16) (rs : List (Fin 8)) : ∀ (s : M68kiCpu) (di : UInt32),
    (s.loadRegisters ea di rs).fpsr = s.fpsr := by
  induction rs with
  | nil => exact fun s di => rfl
  | cons r rs ih =>
    intro s di
    exact (ih _ _).trans (sameUnit_readEaFpe di).fpsr

theorem fpsr_fmovem (s : M68kiCpu) (w2 : UInt16) : (s.fmovem w2).fpsr = s.fpsr := by
  unfold fmovem
  dsimp only
  split_ifs
  · exact (fpsr_storeRegisters _ _ _ _).trans sameUnit_diModeEa.fpsr
  · exact (fpsr_storeRegisters _ _ _ _).trans sameUnit_diModeEa.fpsr
  · exact (SameUnit.fpuReport s).fpsr
  · exact (fpsr_loadRegisters _ _ _ _).trans sameUnit_diModeEa.fpsr
  · exact (SameUnit.fpuReport s).fpsr

theorem sameUnit_eaControlAddress32 {ea : UInt16} {p : UInt32 × M68kiCpu}
    (h : s.eaControlAddress32 ea = some p) : SameUnit s p.2 :=
  SameUnit.of_advanced (advanced_eaControlAddress32 s ea h)

theorem fpsr_fmoveFpcr (s : M68kiCpu) (w2 : UInt16)
    (h : (w2 >>> 13) &&& 1 ≠ 0 ∨ .fpsr ∉ selectedRegisters ((w2 >>> 10) &&& 7)) :
    (s.fmoveFpcr w2).fpsr = s.fpsr := by
  unfold fmoveFpcr
  dsimp only
  split
  next p hp =>
    have hplace : SameUnit s p.2 := by
      split at hp
      · exact sameUnit_eaControlAddress32 hp
      · cases hp
    split_ifs with hdir
    · exact (fpsr_storeControls _ _ _).trans hplace.fpsr
    · exact (fpsr_loadControls _ (h.resolve_left hdir) _ _).trans hplace.fpsr
  next =>
    split_ifs with hdir
    · exact fpsr_writeControls _ _ _
    · exact fpsr_readControls _ _ (h.resolve_left hdir) _

theorem sameUnit_testCondition (condition : UInt16) : SameUnit s (s.testCondition condition).2 := by
  unfold testCondition
  dsimp only
  split_ifs
  · exact SameUnit.fpuReport s
  · exact SameUnit.refl s

theorem fpsr_fscc (s : M68kiCpu) : s.fscc.fpsr = s.fpsr := by
  have hcondition := (sameUnit_testCondition (s := s.readImm16.2) (s.readImm16.1 &&& 0x3f)).fpsr
  unfold fscc
  dsimp only
  split
  · exact hcondition
  · exact hcondition
  · exact (SameUnit.fpuReport _).fpsr.trans hcondition

theorem fpsr_fbcc16 (s : M68kiCpu) : s.fbcc16.fpsr = s.fpsr := by
  have hcondition := (sameUnit_testCondition (s := s.readImm16.2) (s.ir &&& 0x3f)).fpsr
  unfold fbcc16
  dsimp only
  split_ifs
  · exact hcondition
  · exact hcondition

theorem fpsr_fbcc32 (s : M68kiCpu) : s.fbcc32.fpsr = s.fpsr := by
  have hcondition := (sameUnit_testCondition (s := s.readImm32.2) (s.ir &&& 0x3f)).fpsr
  unfold fbcc32
  dsimp only
  split_ifs
  · exact hcondition
  · exact hcondition

theorem fpsr_writeDown (values : List UInt32) : ∀ (s : M68kiCpu) (a : UInt32),
    (s.writeDown a values).fpsr = s.fpsr := by
  induction values with
  | nil => exact fun s a => rfl
  | cons v vs ih => exact fun s a => ih _ _

theorem fpsr_writeUp (values : List UInt32) : ∀ (s : M68kiCpu) (a : UInt32),
    (s.writeUp a values).fpsr = s.fpsr := by
  induction values with
  | nil => exact fun s a => rfl
  | cons v vs ih => exact fun s a => ih _ _

theorem fpsr_performFsave (s : M68kiCpu) (a : UInt32) (inc : Bool) :
    (s.performFsave a inc).fpsr = s.fpsr := by
  unfold performFsave
  dsimp only
  split_ifs
  · rfl
  · exact fpsr_writeUp _ _ _
  · exact fpsr_writeDown _ _ _

theorem fpsr_fsave (s : M68kiCpu) : s.fsave.fpsr = s.fpsr := by
  unfold fsave
  dsimp only
  split
  · split_ifs
    · rfl
    · exact fpsr_performFsave _ _ _
  · split_ifs
    · rfl
    · exact fpsr_performFsave _ _ _
  · split_ifs
    · rfl
    · exact fpsr_performFsave _ _ _
  · exact (SameUnit.fpuReport s).fpsr

theorem fpsr_frestore (s : M68kiCpu)
    (h : ¬ (eaMode s.ea ∈ [2, 3] ∧ s.read32 (s.a (eaReg s.ea)) &&& 0xff000000 = 0)) :
    s.frestore.fpsr = s.fpsr := by
  unfold frestore
  dsimp only
  split
  next hm =>
    rw [hm] at h
    rw [if_pos (fun hnull => h ⟨by decide, hnull⟩)]
  next hm =>
    rw [hm] at h
    rw [if_pos (fun hnull => h ⟨by decide, hnull⟩)]
    rfl
  next => exact (SameUnit.fpuReport s).fpsr

theorem accrues_general (s : M68kiCpu) (w2 : UInt16)
    (h : ¬ (((w2 >>> 13) &&& 7).toNat = 4 ∧ .fpsr ∈ selectedRegisters ((w2 >>> 10) &&& 7))) :
    Accrues s.fpsr (s.general arith w2).fpsr := by
  have hodd : ((w2 >>> 13) &&& 7).toNat = 5 → (w2 >>> 13) &&& 1 ≠ 0 := by
    intro h5 h1
    have hword : (w2 >>> 13) &&& 7 = 5 := UInt16.toNat_inj.1 h5
    have hbit : ((w2 >>> 13) &&& (7 : UInt16)) &&& (1 : UInt16) = (w2 >>> 13) &&& 1 := by
      rw [UInt16.and_assoc]
      rfl
    rw [hword, h1] at hbit
    exact absurd hbit (by decide)
  unfold M68kiCpu.general
  split
  next => exact accrues_fpgenRmReg s w2
  next => exact accrues_fpgenRmReg s w2
  next => exact Accrues.of_eq (by rw [fpsr_fmoveRegMem])
  next h4 => exact Accrues.of_eq (by rw [fpsr_fmoveFpcr s w2 (Or.inr fun hsel => h ⟨h4, hsel⟩)])
  next h5 => exact Accrues.of_eq (by rw [fpsr_fmoveFpcr s w2 (Or.inl (hodd h5))])
  next => exact Accrues.of_eq (by rw [fpsr_fmovem])
  next => exact Accrues.of_eq (by rw [fpsr_fmovem])
  next => exact Accrues.of_eq (by rw [(SameUnit.fpuReport s).fpsr])

/-- What has been accrued stays over every instruction, but for those that write FPSR. -/
theorem accrues_execute (s : M68kiCpu) (h : ¬ s.WritesStatus) :
    Accrues s.fpsr (s.execute arith).fpsr := by
  unfold WritesStatus at h
  dsimp only at h
  unfold execute
  split_ifs at h ⊢ with hmodel hline
  · exact Accrues.of_eq (by rw [exception1111_eq])
  · exact Accrues.of_eq (by rw [exception1111_eq])
  · unfold fpuOp0
    dsimp only
    split_ifs with hform
    · exact accrues_general s.taken s.readImm16.1 fun hload => h ⟨hform, hload⟩
    · exact Accrues.of_eq (by rw [fpsr_fscc])
    · exact Accrues.of_eq (by rw [fpsr_fbcc16])
    · exact Accrues.of_eq (by rw [fpsr_fbcc32])
  · unfold fpuOp1
    dsimp only
    split_ifs with hsave hrestore
    · exact Accrues.of_eq (by rw [fpsr_fsave])
    · have hframe : ({ s with fpiar := s.ppc } : M68kiCpu).frestore.fpsr = s.fpsr :=
        fpsr_frestore _ fun hnull => h ⟨hrestore, hnull⟩
      exact Accrues.of_eq (congrArg (· &&& 0xf8) hframe)
    · exact Accrues.of_eq (by rw [(SameUnit.fpuReport _).fpsr])

/-! ## Histories -/

/-- What the guest does: an instruction of the coprocessor, or anything else, which can leave
    all but the coprocessor in another state. -/
inductive GuestStep where
  | coprocessor (i : Instruction)
  | other (t : M68kiCpu)

namespace M68kiCpu

def guestStep (arith : SoftFloat) (s : M68kiCpu) : GuestStep → M68kiCpu
  | .coprocessor i => i.run arith s
  | .other t =>
    { t with
      fp := s.fp
      fpcr := s.fpcr
      fpsr := s.fpsr
      fpiar := s.fpiar
      fpuModel := s.fpuModel
      fpuJustReset := s.fpuJustReset
      floatRoundingMode := s.floatRoundingMode
      floatExceptionFlags := s.floatExceptionFlags
      reports := s.reports }

def KeepsStatus (s : M68kiCpu) : GuestStep → Prop
  | .coprocessor i => ¬ (i.fetch s).WritesStatus
  | .other _ => True

end M68kiCpu

theorem accrues_guestStep (s : M68kiCpu) (a : GuestStep) (h : s.KeepsStatus a) :
    Accrues s.fpsr (s.guestStep arith a).fpsr := by
  cases a with
  | coprocessor i => exact accrues_execute (i.fetch s) h
  | other t => exact Accrues.refl s.fpsr

theorem accrues_run (s : M68kiCpu) {history : List GuestStep}
    (h : Guarded (guestStep arith) KeepsStatus s history) :
    Accrues s.fpsr (run (guestStep arith) s history).fpsr := by
  refine Machine.guarded_run_inv (I := fun u => Accrues s.fpsr u.fpsr) ?_ (Accrues.refl s.fpsr) h
  intro u a hkeep hu
  exact hu.trans (accrues_guestStep u a hkeep)

/-! ## Two histories -/

/-- The flags of the arithmetic that FPSR has bits for. -/
def reportedFlags : List UInt8 := [1, 4, 8, 16, 32]

theorem exceptionBits_inj {f g : UInt8} :
    exceptionBits f = exceptionBits g ↔ ∀ e ∈ reportedFlags, (f &&& e ≠ 0 ↔ g &&& e ≠ 0) := by
  have hbits : ∀ a b c d e a' b' c' d' e' : Bool,
      ((bif a then (0x2000 : UInt32) else 0) ||| (bif b then 0x0400 else 0) |||
            (bif c then 0x1000 else 0) ||| (bif d then 0x0800 else 0) ||| (bif e then 0x0200 else 0)
          = (bif a' then (0x2000 : UInt32) else 0) ||| (bif b' then 0x0400 else 0) |||
            (bif c' then 0x1000 else 0) ||| (bif d' then 0x0800 else 0) ||| (bif e' then 0x0200 else 0))
        ↔ a = a' ∧ b = b' ∧ c = c' ∧ d = d' ∧ e = e' := by decide +kernel
  have hview : ∀ f : UInt8, exceptionBits f
      = (bif decide (f &&& 1 ≠ 0) then (0x2000 : UInt32) else 0) |||
          (bif decide (f &&& 4 ≠ 0) then 0x0400 else 0) |||
          (bif decide (f &&& 8 ≠ 0) then 0x1000 else 0) |||
          (bif decide (f &&& 16 ≠ 0) then 0x0800 else 0) |||
          (bif decide (f &&& 32 ≠ 0) then 0x0200 else 0) := by
    intro f
    unfold exceptionBits
    simp only [Bool.cond_decide]
  rw [hview f, hview g, hbits]
  simp only [reportedFlags, List.forall_mem_cons, List.not_mem_nil, false_implies, implies_true,
    and_true, decide_eq_decide]

/-- What makes the status after an operation the same for two states before it. -/
def Determined (arith : SoftFloat) (s t : M68kiCpu) (i : Operation) : Report → Prop
  | .collected =>
    let raised (u : M68kiCpu) :=
      i.converted ||| (computed arith u.floatRoundingMode i.opmode (u.fp i.dst) i.source).2
    -- a flag that one history has left waiting waits after the other too, or is raised anyway
    ∀ e ∈ reportedFlags, ((s.floatExceptionFlags ||| raised s) &&& e ≠ 0
      ↔ (t.floatExceptionFlags ||| raised t) &&& e ≠ 0)
  | .domain =>
    s.fpsr &&& 0x5d00 = t.fpsr &&& 0x5d00 ∧
      domainError arith s.floatRoundingMode i.opmode i.source
        = domainError arith t.floatRoundingMode i.opmode i.source
  | .silent => statusByte s.fpsr = statusByte t.fpsr

theorem shown_iff (r : Report) : s.shown arith i r = t.shown arith i r ↔ Determined arith s t i r := by
  cases r with
  | collected =>
    unfold shown Determined
    dsimp only
    rw [exceptionBits_inj, UInt8.or_assoc, UInt8.or_assoc]
  | domain =>
    unfold shown Determined
    dsimp only
    constructor
    · intro h
      have hclear : ∀ (f : UInt32) (b : Bool), ((f &&& 0x5d00) ||| (if b then 0x2000 else 0)) &&& 0x5d00
          = f &&& 0x5d00 := by
        intro f b
        rw [Pages.or_and_of_disjoint (by cases b <;> decide), UInt32.and_assoc]
        rfl
      have hset : ∀ (f : UInt32) (b : Bool), ((f &&& 0x5d00) ||| (if b then 0x2000 else 0)) &&& 0x2000
          = if b then 0x2000 else 0 := by
        intro f b
        have hnone : (0x5d00 : UInt32) &&& 0x2000 = 0 := by decide
        rw [or_and_word, UInt32.and_assoc, hnone, UInt32.and_zero, UInt32.zero_or]
        cases b <;> decide
      refine ⟨?_, ?_⟩
      · have hmasked := congrArg (· &&& 0x5d00) h
        rwa [hclear, hclear] at hmasked
      · have hmasked := congrArg (· &&& 0x2000) h
        rw [hset, hset] at hmasked
        generalize domainError arith s.floatRoundingMode i.opmode i.source = b at hmasked ⊢
        generalize domainError arith t.floatRoundingMode i.opmode i.source = c at hmasked ⊢
        revert b c
        decide
    · rintro ⟨hstatus, herror⟩
      rw [hstatus, herror]
  | silent => exact Iff.rfl

/-- The same operation after two histories leaves the same status exactly under this condition;
    what has been accrued stays in every history that does not write FPSR. -/
theorem status_iff (arith : SoftFloat) (s t : M68kiCpu) (i : Operation) (r : Report)
    (hs : s.operation arith = some i) (ht : t.operation arith = some i)
    (hr : reportOf i.opmode = some r) :
    (statusByte (s.execute arith).fpsr = statusByte (t.execute arith).fpsr
        ↔ Determined arith s t i r) ∧
      ∀ history, Guarded (guestStep arith) KeepsStatus s history →
        Accrues s.fpsr (run (guestStep arith) s history).fpsr := by
  rw [status_execute hs hr, status_execute ht hr]
  exact ⟨shown_iff r, fun history h => accrues_run s h⟩

end

/-- A processor with 1.5 in FP0, and `FMOVE.L FP0,D0` before `FADD.X FP0,FP0`. -/
def beforeSum (waiting : UInt8) : M68kiCpu where
  d := fun _ => 0
  a := fun _ => 0x8000
  isp := 0x8000
  fp := fun _ => ⟨0x3fff, 0xc000000000000000⟩
  fpuModel := .m68882
  floatExceptionFlags := waiting
  memory := put (fun _ => 0) 0x1000 [0xf2, 0x00, 0x60, 0x00, 0xf2, 0x00, 0x00, 0x22]

/-- The arithmetic as far as the two instructions use it: 1.5 is not an integer, and the sum is exact. -/
def sumArith : SoftFloat :=
  { (default : SoftFloat) with
    floatx80ToInt32 := fun _ _ => (2, 0x20)
    binary := fun _ _ _ _ => (⟨0x4000, 0xc000000000000000⟩, 0) }

def storeInteger : Instruction where
  address := 0x1000
  opcode := 0xf200

def addRegister : Instruction where
  address := 0x1004
  opcode := 0xf200

/-- Without a flag that waits, the status is that of the sum. -/
theorem status_sum :
    statusByte ((addRegister.fetch (beforeSum 0)).execute sumArith).fpsr
        = statusByte ((addRegister.fetch (beforeSum 2)).execute sumArith).fpsr ∧
      Accrues 0 (run (guestStep sumArith) (addRegister.fetch (beforeSum 0)) []).fpsr := by
  have h := status_iff sumArith (addRegister.fetch (beforeSum 0)) (addRegister.fetch (beforeSum 2))
    ⟨0x22, 0, ⟨0x3fff, 0xc000000000000000⟩, 0⟩ .collected (by decide +kernel) (by decide +kernel) rfl
  exact ⟨h.1.2 (by unfold Determined; decide +kernel), h.2 [] trivial⟩

/-- The inexact store that one history ends with is in the status of the exact sum after it. -/
theorem stale_inexact : ¬ ∀ (arith : SoftFloat) (start : M68kiCpu) (h₁ h₂ : List GuestStep)
    (next : Instruction) (s t : M68kiCpu) (i : Operation) (r : Report),
    s = next.fetch (run (guestStep arith) start h₁) →
    t = next.fetch (run (guestStep arith) start h₂) →
    t.fp = s.fp → t.fpcr = s.fpcr → t.memory = s.memory →
    s.operation arith = some i → t.operation arith = some i → reportOf i.opmode = some r →
    statusByte (s.execute arith).fpsr = statusByte (t.execute arith).fpsr := by
  intro h
  have hsame := h sumArith (beforeSum 0) [] [.coprocessor storeInteger] addRegister _ _
    ⟨0x22, 0, ⟨0x3fff, 0xc000000000000000⟩, 0⟩ .collected rfl rfl rfl rfl rfl (by decide +kernel)
    (by decide +kernel) rfl
  exact absurd hsame (by decide +kernel)

end CuteMac.Fpu
