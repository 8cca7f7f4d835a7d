/-
  The operands of the floating-point instructions (`m68kfpu.c`).

  * `eaAddress`: where an operand in memory is, as far as an operand may be there;
  * `readEa8`, …, `readEaPack`, `writeEa8`, …, `writeEaPack`: each with the modes it knows.

  A mode that a function does not know is reported; a read then gives zero.
-/
import CuteMac.Fpu.M68kCpu

namespace CuteMac.Fpu

open ByteMemory Core

namespace M68kiCpu

/-- The address of an operand of `size` bytes, for the modes and the extended modes that are known. -/
def eaAddress (s : M68kiCpu) (size : UInt32) (modes extended : List Nat) (ea : UInt16) :
    Option (UInt32 × M68kiCpu) :=
  let reg := eaReg ea
  if eaMode ea ∈ modes then
    match eaMode ea with
    | 2 => some (s.a reg, s)
    | 3 => some (s.a reg, s.setA reg (s.a reg + size))
    | 4 => some (s.a reg - size, s.setA reg (s.a reg - size))
    | 5 => some (s.eaAyDi reg)
    | 6 => some (s.getEaIx (s.a reg))
    | _ => none
  else if eaMode ea = 7 ∧ reg.val ∈ extended then
    match reg.val with
    | 0 => some (s.readImm16.1.toUInt32, s.readImm16.2)
    | 1 =>
      let d1 := s.readImm16
      let d2 := d1.2.readImm16
      some ((d1.1.toUInt32 <<< 16) ||| d2.1.toUInt32, d2.2)
    | 2 => some s.eaPcdi
    | 3 => some (s.getEaIx s.pc)
    | _ => none
  else none

/-! ## Reads -/

def readEa8 (s : M68kiCpu) (ea : UInt16) : UInt8 × M68kiCpu :=
  if eaMode ea = 0 then ((s.d (eaReg ea)).toUInt8, s)
  else if eaMode ea = 7 ∧ eaReg ea = 4 then (s.readImm16.1.toUInt8, s.readImm16.2)
  else
    match s.eaAddress 1 [2, 3, 4, 5, 6] [0, 1] ea with
    | some place => (place.2.read8 place.1, place.2)
    | none => (0, s.fpuReport)

def readEa16 (s : M68kiCpu) (ea : UInt16) : UInt16 × M68kiCpu :=
  if eaMode ea = 0 then ((s.d (eaReg ea)).toUInt16, s)
  else if eaMode ea = 7 ∧ eaReg ea = 4 then s.readImm16
  else
    match s.eaAddress 2 [2, 3, 4, 5, 6] [0, 1] ea with
    | some place => (place.2.read16 place.1, place.2)
    | none => (0, s.fpuReport)

def readEa32 (s : M68kiCpu) (ea : UInt16) : UInt32 × M68kiCpu :=
  if eaMode ea = 0 then (s.d (eaReg ea), s)
  else if eaMode ea = 7 ∧ eaReg ea = 4 then s.readImm32
  else
    match s.eaAddress 4 [2, 3, 4, 5, 6] [0, 1, 2] ea with
    | some place => (place.2.read32 place.1, place.2)
    | none => (0, s.fpuReport)

def long64 (high low : UInt32) : UInt64 := (high.toUInt64 <<< 32) ||| low.toUInt64

def readEa64 (s : M68kiCpu) (ea : UInt16) : UInt64 × M68kiCpu :=
  if eaMode ea = 7 ∧ eaReg ea = 4 then
    let h1 := s.readImm32
    let h2 := h1.2.readImm32
    (long64 h1.1 h2.1, h2.2)
  else
    match s.eaAddress 8 [2, 3, 4, 5, 6] [1, 2] ea with
    | some place => (long64 (place.2.read32 place.1) (place.2.read32 (place.1 + 4)), place.2)
    | none => (0, s.fpuReport)

def loadExtendedFloat80 (s : M68kiCpu) (ea : UInt32) : Floatx80 where
  high := s.read16 ea
  low := long64 (s.read32 (ea + 4)) (s.read32 (ea + 8))

/-- The caller has read the displacement of a `(d16, An)` operand, once for all registers. -/
def readEaFpe (s : M68kiCpu) (ea : UInt16) (diModeEa : UInt32) : Floatx80 × M68kiCpu :=
  if eaMode ea = 5 then (s.loadExtendedFloat80 diModeEa, s)
  else if eaMode ea = 7 ∧ eaReg ea = 4 then (s.loadExtendedFloat80 s.pc, { s with pc := s.pc + 12 })
  else
    match s.eaAddress 12 [2, 3, 4, 6] [1, 2, 3] ea with
    | some place => (place.2.loadExtendedFloat80 place.1, place.2)
    | none => (⟨0, 0⟩, s.fpuReport)

/-- The twelve bytes of a packed number. -/
def readEaPack (s : M68kiCpu) (ea : UInt16) : Option (List UInt8) × M68kiCpu :=
  match s.eaAddress 12 [2, 3, 4] [3] ea with
  | some place => (some (take place.2.memory place.1 12), place.2)
  | none => (none, s.fpuReport)

/-! ## Writes -/

def writeEa8 (s : M68kiCpu) (ea : UInt16) (data : UInt8) : M68kiCpu :=
  if eaMode ea = 0 then s.setD (eaReg ea) data.toUInt32
  else
    match s.eaAddress 1 [2, 3, 4, 5, 6] [1, 2] ea with
    | some place => place.2.write8 place.1 data
    | none => s.fpuReport

def writeEa16 (s : M68kiCpu) (ea : UInt16) (data : UInt16) : M68kiCpu :=
  if eaMode ea = 0 then s.setD (eaReg ea) data.toUInt32
  else
    match s.eaAddress 2 [2, 3, 4, 5, 6] [1, 2] ea with
    | some place => place.2.write16 place.1 data
    | none => s.fpuReport

/-- Of the writes only this one knows the address registers. -/
def writeEa32 (s : M68kiCpu) (ea : UInt16) (data : UInt32) : M68kiCpu :=
  if eaMode ea = 0 then s.setD (eaReg ea) data
  else if eaMode ea = 1 then s.setA (eaReg ea) data
  else
    match s.eaAddress 4 [2, 3, 4, 5, 6] [1, 2] ea with
    | some place => place.2.write32 place.1 data
    | none => s.fpuReport

def writeEa64 (s : M68kiCpu) (ea : UInt16) (data : UInt64) : M68kiCpu :=
  match s.eaAddress 8 [2, 3, 4, 5, 6] [1, 2] ea with
  | some place => (place.2.write32 place.1 (data >>> 32).toUInt32).write32 (place.1 + 4) data.toUInt32
  | none => s.fpuReport

def storeExtendedFloat80 (s : M68kiCpu) (ea : UInt32) (fpr : Floatx80) : M68kiCpu :=
  let s := (s.write16 ea fpr.high).write16 (ea + 2) 0
  (s.write32 (ea + 4) (fpr.low >>> 32).toUInt32).write32 (ea + 8) fpr.low.toUInt32

def writeEaFpe (s : M68kiCpu) (ea : UInt16) (fpr : Floatx80) (diModeEa : UInt32) : M68kiCpu :=
  if eaMode ea = 5 then s.storeExtendedFloat80 diModeEa fpr
  else
    match s.eaAddress 12 [2, 3, 4] [1] ea with
    | some place => place.2.storeExtendedFloat80 place.1 fpr
    | none => s.fpuReport

/-- The number is converted where it is stored, which raises exceptions. -/
def writeEaPack (s : M68kiCpu) (ea : UInt16) (packed : List UInt8 × UInt8) : M68kiCpu :=
  match s.eaAddress 12 [2, 3, 4] [] ea with
  | some place =>
    { place.2 with
      memory := put place.2.memory place.1 packed.1
      floatExceptionFlags := place.2.floatExceptionFlags ||| packed.2 }
  | none => s.fpuReport

end M68kiCpu

end CuteMac.Fpu
