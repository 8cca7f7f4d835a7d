/-
  The processor as its floating-point instructions use it (`m68kcpu.h`).

  * `M68kiCpu`: the registers, the floating-point registers, and the memory;
  * `readImm16`, `getEaIx`: the words of an instruction, and the indexed addresses;
  * `push16`, `push32`, `exception1111`: the exception of a refused instruction.

  An address is a logical one: translation, address errors and the prefetched word are
  not modelled here, and neither are cycles.
-/
import CuteMac.Core.PhysicalMemoryMap
import CuteMac.Lib.ByteMemory
import CuteMac.Lib.BankSizes

namespace CuteMac.Fpu

open ByteMemory Core

/-- An extended number: the sign with the exponent, and the mantissa. -/
structure Floatx80 where
  high : UInt16
  low : UInt64
  deriving DecidableEq, Repr, Inhabited

inductive FpuModel where
  | none
  | m68881
  | m68882
  | m68040
  deriving DecidableEq, Repr

/-- Register `a 7` is the stack pointer in use; the others are where `usp`, `isp` and `msp` say. -/
structure M68kiCpu where
  d : Fin 8 → UInt32
  a : Fin 8 → UInt32
  usp : UInt32 := 0
  isp : UInt32 := 0
  msp : UInt32 := 0
  pc : UInt32 := 0
  /-- the address of the instruction that is executed -/
  ppc : UInt32 := 0
  ir : UInt16 := 0
  sr : UInt16 := 0x2700
  vbr : UInt32 := 0
  fp : Fin 8 → Floatx80
  fpcr : UInt32 := 0
  fpsr : UInt32 := 0
  fpiar : UInt32 := 0
  fpuModel : FpuModel
  fpuJustReset : Bool := true
  /-- the rounding mode of the arithmetic -/
  floatRoundingMode : UInt32 := 0
  /-- the exceptions that the arithmetic has raised -/
  floatExceptionFlags : UInt8 := 0
  /-- the refused encodings that have been reported -/
  reports : Nat := 0
  memory : Memory

namespace M68kiCpu

/-! ## The registers -/

def setA (s : M68kiCpu) (reg : Fin 8) (value : UInt32) : M68kiCpu :=
  { s with a := Function.update s.a reg value }

def setD (s : M68kiCpu) (reg : Fin 8) (value : UInt32) : M68kiCpu :=
  { s with d := Function.update s.d reg value }

def setFp (s : M68kiCpu) (reg : Fin 8) (value : Floatx80) : M68kiCpu :=
  { s with fp := Function.update s.fp reg value }

/-- The addressing mode and the register in an opcode. -/
def eaMode (ea : UInt16) : Nat := ((ea >>> 3) &&& 7).toNat
def eaReg (ea : UInt16) : Fin 8 := Fin.ofNat 8 (ea &&& 7).toNat

def ea (s : M68kiCpu) : UInt16 := s.ir &&& 0x3f

/-! ## The memory -/

def read8 (s : M68kiCpu) (address : UInt32) : UInt8 := s.memory address

def read16 (s : M68kiCpu) (address : UInt32) : UInt16 :=
  UInt16.ofNat (bigEndian (take s.memory address 2))

def read32 (s : M68kiCpu) (address : UInt32) : UInt32 :=
  UInt32.ofNat (bigEndian (take s.memory address 4))

def write8 (s : M68kiCpu) (address : UInt32) (value : UInt8) : M68kiCpu :=
  { s with memory := put s.memory address [value] }

def write16 (s : M68kiCpu) (address : UInt32) (value : UInt16) : M68kiCpu :=
  { s with memory := put s.memory address (bytesOf value.toNat 2) }

def write32 (s : M68kiCpu) (address value : UInt32) : M68kiCpu :=
  { s with memory := put s.memory address (bytesOf value.toNat 4) }

/-! ## The words of an instruction -/

def signed16 (value : UInt16) : UInt32 := value.toInt16.toInt32.toUInt32
def signed8 (value : UInt8) : UInt32 := value.toInt8.toInt32.toUInt32

def readImm16 (s : M68kiCpu) : UInt16 × M68kiCpu := (s.read16 s.pc, { s with pc := s.pc + 2 })
def readImm32 (s : M68kiCpu) : UInt32 × M68kiCpu := (s.read32 s.pc, { s with pc := s.pc + 4 })

/-- The index register of an extension word, scaled. -/
def indexRegister (s : M68kiCpu) (extension : UInt16) : UInt32 :=
  let number := Fin.ofNat 8 ((extension >>> 12) &&& 7).toNat
  let xn := if extension &&& 0x8000 ≠ 0 then s.a number else s.d number
  let xn := if extension &&& 0x0800 = 0 then signed16 xn.toUInt16 else xn
  xn <<< ((extension >>> 9) &&& 3).toUInt32

/-- A displacement of one word or two. -/
def displacement (s : M68kiCpu) (long : Bool) : UInt32 × M68kiCpu :=
  if long then s.readImm32
  else
    let word := s.readImm16
    (signed16 word.1, word.2)

/-- An indexed address, by the brief or the full format of its extension word. -/
def getEaIx (s : M68kiCpu) (an : UInt32) : UInt32 × M68kiCpu :=
  let extension := s.readImm16.1
  let s := s.readImm16.2
  if extension &&& 0x0100 = 0 then
    (an + s.indexRegister extension + signed8 extension.toUInt8, s)
  else
    let an := if extension &&& 0x80 ≠ 0 then 0 else an
    let xn := if extension &&& 0x40 = 0 then s.indexRegister extension else 0
    let bd :=
      if extension &&& 0x20 ≠ 0 then s.displacement (extension &&& 0x10 != 0) else (0, s)
    if extension &&& 7 = 0 then (an + bd.1 + xn, bd.2)
    else
      let od :=
        if extension &&& 2 ≠ 0 then bd.2.displacement (extension &&& 1 != 0) else (0, bd.2)
      if extension &&& 4 ≠ 0 then (od.2.read32 (an + bd.1) + xn + od.1, od.2)
      else (od.2.read32 (an + bd.1 + xn) + od.1, od.2)

/-- An address relative to the program counter. -/
def eaPcdi (s : M68kiCpu) : UInt32 × M68kiCpu :=
  let word := s.readImm16
  (s.pc + signed16 word.1, word.2)

def eaAyDi (s : M68kiCpu) (reg : Fin 8) : UInt32 × M68kiCpu :=
  let word := s.readImm16
  (s.a reg + signed16 word.1, word.2)

/-! ## The exception -/

def push16 (s : M68kiCpu) (value : UInt16) : M68kiCpu :=
  (s.setA 7 (s.a 7 - 2)).write16 (s.a 7 - 2) value

def push32 (s : M68kiCpu) (value : UInt32) : M68kiCpu :=
  (s.setA 7 (s.a 7 - 4)).write32 (s.a 7 - 4) value

def supervisor (s : M68kiCpu) : Bool := s.sr &&& 0x2000 != 0
def master (s : M68kiCpu) : Bool := s.sr &&& 0x1000 != 0

/-- Supervisor mode is entered with its stack pointer. -/
def setSFlag (s : M68kiCpu) : M68kiCpu :=
  let s :=
    if !s.supervisor then { s with usp := s.a 7 }
    else if s.master then { s with msp := s.a 7 }
    else { s with isp := s.a 7 }
  let s := { s with sr := s.sr ||| 0x2000 }
  s.setA 7 (if s.master then s.msp else s.isp)

/-- The vector of an F-line instruction. -/
def line1111 : UInt16 := 11

/-- The format 0 frame with the address of the instruction; the program counter goes to the handler. -/
def exception1111 (s : M68kiCpu) : M68kiCpu :=
  let sr := s.sr
  let s := { s with sr := s.sr &&& 0x3fff }.setSFlag
  let s := ((s.push16 (line1111 <<< 2)).push32 s.ppc).push16 sr
  { s with pc := s.read32 ((line1111 <<< 2).toUInt32 + s.vbr) }

/-- A refused encoding is reported, and the caller goes on. -/
def fpuReport (s : M68kiCpu) : M68kiCpu := { s with reports := s.reports + 1 }.exception1111

end M68kiCpu

end CuteMac.Fpu
