/-
  The processor as its integer instructions use it (`m68kcpu.h`).

  * `M68kiCpu`: the registers, the flags as the arithmetic leaves them, and the memory;
  * `push16`, `push32`, `pull16`, `pull32`: the stack;
  * `getSr`, `setSrNoint`, `setSmFlag`: the status register and the stack pointers behind it;
  * `getReg`, `move32Tou`, `movec32Rc`: the instructions that name a stack pointer.

  An address is a logical one: translation, the address pins, address errors, bus errors and
  the prefetched word are not modelled here, and neither are cycles.
-/
import CuteMac.Core.PhysicalMemoryMap
import CuteMac.Lib.ByteMemory
import CuteMac.Lib.BankSizes

namespace CuteMac.M68k

open ByteMemory Core

inductive CpuType where
  | m68000
  | m68008
  | m68010
  | ec020
  | m68020
  | ec030
  | m68030
  | ec040
  | lc040
  | m68040
  | scc070
  deriving DecidableEq, Repr

namespace CpuType

def is000 : CpuType → Bool
  | m68000 => true
  | _ => false

def is010 : CpuType → Bool
  | m68010 => true
  | _ => false

def is010Less : CpuType → Bool
  | m68000 | m68008 | m68010 => true
  | _ => false

def is010Plus : CpuType → Bool
  | m68010 | ec020 | m68020 | ec030 | m68030 | m68040 | ec040 => true
  | _ => false

def isEc020Plus : CpuType → Bool
  | ec020 | m68020 | m68030 | ec030 | m68040 | ec040 => true
  | _ => false

def is040Plus : CpuType → Bool
  | m68040 | ec040 => true
  | _ => false

end CpuType

inductive RunMode where
  | normal
  /-- the frame of a bus or address error is being written -/
  | bErrAErrResetWsf
  | bErrAErrReset
  deriving DecidableEq, Repr

inductive StackRegister where
  | usp
  | isp
  | msp
  deriving DecidableEq, Repr

/-- Where a stack pointer is while it is not in use. -/
def StackRegister.index : StackRegister → Fin 7
  | usp => 0
  | isp => 4
  | msp => 6

/-- `dar` holds the data registers and then the address registers, with the stack pointer in use
    as the last one; `sp` holds those that are not. -/
structure M68kiCpu where
  cpuType : CpuType
  dar : Fin 16 → UInt32
  /-- the registers before the instruction -/
  darSave : Fin 16 → UInt32
  /-- the address of the instruction that is executed -/
  ppc : UInt32 := 0
  pc : UInt32 := 0
  sp : Fin 7 → UInt32
  vbr : UInt32 := 0
  ir : UInt32 := 0
  t1Flag : UInt32 := 0
  t0Flag : UInt32 := 0
  sFlag : UInt32 := 4
  mFlag : UInt32 := 0
  xFlag : UInt32 := 0
  nFlag : UInt32 := 0
  notZFlag : UInt32 := 0
  vFlag : UInt32 := 0
  cFlag : UInt32 := 0
  intMask : UInt32 := 0x0700
  intLevel : UInt32 := 0
  virqState : UInt32 := 0
  nmiPending : Bool := false
  stopped : UInt32 := 0
  /-- the implemented bits of the status register -/
  srMask : UInt32 := 0xf71f
  instrMode : UInt32 := 0
  runMode : RunMode := .normal
  mmuFaultAddress : UInt32 := 0
  mmuFaultFc : UInt32 := 0
  mmuFaultRw : Bool := false
  mmuFaultSize : UInt32 := 0
  mmuFaultIsMmu : Bool := false
  aerrAddress : UInt32 := 0
  aerrWriteMode : UInt32 := 0
  aerrFc : UInt32 := 0
  memory : Memory

namespace M68kiCpu

/-! ## Registers and memory -/

def setDar (s : M68kiCpu) (reg : Fin 16) (value : UInt32) : M68kiCpu :=
  { s with dar := Function.update s.dar reg value }

/-- The stack pointer in use. -/
def regSp (s : M68kiCpu) : UInt32 := s.dar 15

def setRegSp (s : M68kiCpu) (value : UInt32) : M68kiCpu := s.setDar 15 value

def read8 (s : M68kiCpu) (address : UInt32) : UInt32 := (s.memory address).toUInt32

def read16 (s : M68kiCpu) (address : UInt32) : UInt32 :=
  UInt32.ofNat (bigEndian (take s.memory address 2))

def read32 (s : M68kiCpu) (address : UInt32) : UInt32 :=
  UInt32.ofNat (bigEndian (take s.memory address 4))

/-- The low bytes of a value are written. -/
def writeBytes (s : M68kiCpu) (address value : UInt32) (size : Nat) : M68kiCpu :=
  { s with memory := put s.memory address (bytesOf value.toNat size) }

def write8 (s : M68kiCpu) (address value : UInt32) : M68kiCpu := s.writeBytes address value 1
def write16 (s : M68kiCpu) (address value : UInt32) : M68kiCpu := s.writeBytes address value 2
def write32 (s : M68kiCpu) (address value : UInt32) : M68kiCpu := s.writeBytes address value 4

/-! ## The stack -/

def push16 (s : M68kiCpu) (value : UInt32) : M68kiCpu :=
  let s := s.setRegSp (s.regSp - 2)
  s.write16 s.regSp value

def push32 (s : M68kiCpu) (value : UInt32) : M68kiCpu :=
  let s := s.setRegSp (s.regSp - 4)
  s.write32 s.regSp value

def pull16 (s : M68kiCpu) : UInt32 × M68kiCpu :=
  let s := s.setRegSp (s.regSp + 2)
  (s.read16 (s.regSp - 2), s)

def pull32 (s : M68kiCpu) : UInt32 × M68kiCpu :=
  let s := s.setRegSp (s.regSp + 4)
  (s.read32 (s.regSp - 4), s)

def fakePush16 (s : M68kiCpu) : M68kiCpu := s.setRegSp (s.regSp - 2)
def fakePush32 (s : M68kiCpu) : M68kiCpu := s.setRegSp (s.regSp - 4)
def fakePull16 (s : M68kiCpu) : M68kiCpu := s.setRegSp (s.regSp + 2)
def fakePull32 (s : M68kiCpu) : M68kiCpu := s.setRegSp (s.regSp + 4)

/-! ## The status register -/

def condXs (s : M68kiCpu) : UInt32 := s.xFlag &&& 0x100
def condCs (s : M68kiCpu) : UInt32 := s.cFlag &&& 0x100
def condVs (s : M68kiCpu) : UInt32 := s.vFlag &&& 0x80
def condMi (s : M68kiCpu) : UInt32 := s.nFlag &&& 0x80
def condEq (s : M68kiCpu) : UInt32 := if s.notZFlag = 0 then 1 else 0

def getCcr (s : M68kiCpu) : UInt32 :=
  (s.condXs >>> 4) ||| (s.condMi >>> 4) ||| (s.condEq <<< 2) ||| (s.condVs >>> 6)
    ||| (s.condCs >>> 8)

def getSr (s : M68kiCpu) : UInt32 :=
  s.t1Flag ||| s.t0Flag ||| (s.sFlag <<< 11) ||| (s.mFlag <<< 11) ||| s.intMask ||| s.getCcr

/-- Which of the stack pointers is in use. -/
def spIndex (s : M68kiCpu) : Fin 7 :=
  Fin.ofNat 7 (s.sFlag ||| ((s.sFlag >>> 1) &&& s.mFlag)).toNat

/-- The stack pointer in use is put aside. -/
def backupSp (s : M68kiCpu) : M68kiCpu :=
  { s with sp := Function.update s.sp s.spIndex s.regSp }

def setSFlag (s : M68kiCpu) (value : UInt32) : M68kiCpu :=
  let s := { s.backupSp with sFlag := value }
  s.setRegSp (s.sp s.spIndex)

def setSmFlag (s : M68kiCpu) (value : UInt32) : M68kiCpu :=
  let s := { s.backupSp with sFlag := value &&& 4, mFlag := value &&& 2 }
  s.setRegSp (s.sp s.spIndex)

def setCcr (s : M68kiCpu) (value : UInt32) : M68kiCpu :=
  { s with
    xFlag := (value &&& 0x10) <<< 4
    nFlag := (value &&& 0x08) <<< 4
    notZFlag := if value &&& 0x04 = 0 then 1 else 0
    vFlag := (value &&& 0x02) <<< 6
    cFlag := (value &&& 0x01) <<< 8 }

/-- The flags of the word but for the mode. -/
def setSrFlags (s : M68kiCpu) (value : UInt32) : M68kiCpu :=
  { s with
    t1Flag := value &&& 0x8000
    t0Flag := value &&& 0x4000
    intMask := value &&& 0x0700 }.setCcr value

def setSrNoint (s : M68kiCpu) (value : UInt32) : M68kiCpu :=
  let value := value &&& s.srMask
  (s.setSrFlags value).setSmFlag ((value >>> 11) &&& 6)

def clearTrace (s : M68kiCpu) : M68kiCpu := { s with t1Flag := 0, t0Flag := 0 }

/-- The old status register, and supervisor mode. -/
def initException (s : M68kiCpu) : UInt32 × M68kiCpu := (s.getSr, s.clearTrace.setSFlag 4)

/-! ## The stack pointers by name -/

/-- `m68k_get_reg` for the stack pointers. -/
def getReg (s : M68kiCpu) : StackRegister → UInt32
  | .usp => if s.sFlag ≠ 0 then s.sp 0 else s.regSp
  | .isp => if s.sFlag ≠ 0 ∧ s.mFlag = 0 then s.regSp else s.sp 4
  | .msp => if s.sFlag ≠ 0 ∧ s.mFlag ≠ 0 then s.regSp else s.sp 6

/-- `MOVE An,USP` in supervisor mode. -/
def move32Tou (s : M68kiCpu) (value : UInt32) : M68kiCpu :=
  { s with sp := Function.update s.sp 0 value }

/-- `MOVE USP,An` in supervisor mode. -/
def move32Fru (s : M68kiCpu) : UInt32 := s.sp 0

/-- `MOVEC Rn,USP`, `MOVEC Rn,MSP` and `MOVEC Rn,ISP` in supervisor mode. -/
def movec32Rc (s : M68kiCpu) (register : StackRegister) (value : UInt32) : M68kiCpu :=
  match register with
  | .usp => { s with sp := Function.update s.sp 0 value }
  | .msp =>
    if s.mFlag = 0 then { s with sp := Function.update s.sp 6 value } else s.setRegSp value
  | .isp =>
    if s.mFlag = 0 then s.setRegSp value else { s with sp := Function.update s.sp 4 value }

/-- `MOVEC USP,Rn`, `MOVEC MSP,Rn` and `MOVEC ISP,Rn` in supervisor mode. -/
def movec32Cr (s : M68kiCpu) : StackRegister → UInt32
  | .usp => s.sp 0
  | .msp => if s.mFlag ≠ 0 then s.regSp else s.sp 6
  | .isp => if s.mFlag ≠ 0 then s.sp 4 else s.regSp

end M68kiCpu

end CuteMac.M68k
