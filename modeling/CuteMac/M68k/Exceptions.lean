/-
  Exceptions and the return from them (`m68kcpu.h`, `m68k_op_rte_32`).

  * `stackFrame0000` to `stackFrame1011`: the frames;
  * `exceptionTrap`, `exceptionInterrupt`, `exceptionBusError`, `exceptionAddressError`, …;
  * `checkInterrupts`, `setSr`: the status register is written, and an interrupt may follow;
  * `opRte`: the return; the loop over throwaway frames takes as many rounds as it is given.
-/
import CuteMac.M68k.M68kCpu

namespace CuteMac.M68k

namespace M68kiCpu

/-! ## Vectors -/

def exceptionBusErrorVector : UInt32 := 2
def exceptionAddressErrorVector : UInt32 := 3
def exceptionIllegalInstruction : UInt32 := 4
def exceptionZeroDivide : UInt32 := 5
def exceptionChk : UInt32 := 6
def exceptionTrapv : UInt32 := 7
def exceptionPrivilegeViolationVector : UInt32 := 8
def exception1010Vector : UInt32 := 10
def exception1111Vector : UInt32 := 11
def exceptionFormatErrorVector : UInt32 := 14
def exceptionUninitializedInterrupt : UInt32 := 15
def exceptionInterruptAutovector : UInt32 := 24
def exceptionTrapBase : UInt32 := 32

def jump (s : M68kiCpu) (newPc : UInt32) : M68kiCpu := { s with pc := newPc }

def jumpVector (s : M68kiCpu) (vector : UInt32) : M68kiCpu :=
  s.jump (s.read32 ((vector <<< 2) + s.vbr))

/-! ## Frames -/

/-- Pushes that write nothing. -/
def fakePushes32 (s : M68kiCpu) : Nat → M68kiCpu
  | 0 => s
  | n + 1 => s.fakePush32.fakePushes32 n

def fakePulls32 (s : M68kiCpu) : Nat → M68kiCpu
  | 0 => s
  | n + 1 => s.fakePull32.fakePulls32 n

def pushes32 (s : M68kiCpu) (value : UInt32) : Nat → M68kiCpu
  | 0 => s
  | n + 1 => (s.push32 value).pushes32 value n

def stackFrame3Word (s : M68kiCpu) (pc sr : UInt32) : M68kiCpu := (s.push32 pc).push16 sr

def stackFrame0000 (s : M68kiCpu) (pc sr vector : UInt32) : M68kiCpu :=
  if s.cpuType = .m68000 then s.stackFrame3Word pc sr
  else ((s.push16 (vector <<< 2)).push32 pc).push16 sr

/-- The throwaway frame. -/
def stackFrame0001 (s : M68kiCpu) (pc sr vector : UInt32) : M68kiCpu :=
  ((s.push16 ((0x1000 : UInt32) ||| (vector <<< 2))).push32 pc).push16 sr

def stackFrame0010 (s : M68kiCpu) (sr vector : UInt32) : M68kiCpu :=
  let s := s.push32 s.ppc
  let s := s.push16 ((0x2000 : UInt32) ||| (vector <<< 2))
  let s := s.push32 s.pc
  s.push16 sr

/-- The frame of an address error on a 68000. -/
def stackFrameBuserr (s : M68kiCpu) (sr : UInt32) : M68kiCpu :=
  let s := s.push32 s.pc
  let s := s.push16 sr
  let s := s.push16 s.ir
  let s := s.push32 s.aerrAddress
  s.push16 (s.aerrWriteMode ||| s.instrMode ||| s.aerrFc)

/-- The frame of a bus or address error on a 68010. -/
def stackFrame1000 (s : M68kiCpu) (pc sr vector : UInt32) : M68kiCpu :=
  let s := s.fakePushes32 8
  let s := (s.push16 0).fakePush16
  let s := (s.push16 0).fakePush16
  let s := (s.push16 0).fakePush16
  let s := (s.push32 0).push16 0
  let s := s.push16 ((0x8000 : UInt32) ||| (vector <<< 2))
  (s.push32 pc).push16 sr

/-- The short bus fault frame. -/
def stackFrame1010 (s : M68kiCpu) (sr vector pc faultAddress ssw : UInt32) : M68kiCpu :=
  let s := (s.push16 0).push16 0
  let s := s.push32 0
  let s := (s.push16 0).push16 0
  let s := s.push32 faultAddress
  let s := (s.push16 0).push16 0
  let s := (s.push16 ssw).push16 0
  let s := s.push16 ((0xa000 : UInt32) ||| (vector <<< 2))
  (s.push32 pc).push16 sr

/-- The long bus fault frame. -/
def stackFrame1011 (s : M68kiCpu) (sr vector pc faultAddress ssw : UInt32) : M68kiCpu :=
  let s := s.pushes32 0 9
  let s := s.push16 0
  let s := (s.push32 0).push16 0
  let s := s.push32 0
  let s := s.push32 0
  let s := s.push32 0
  let s := s.pushes32 0 2
  let s := s.push32 0
  let s := (s.push16 0).push16 0
  let s := s.push32 faultAddress
  let s := (s.push16 0).push16 0
  let s := (s.push16 ssw).push16 0
  let s := s.push16 ((0xb000 : UInt32) ||| (vector <<< 2))
  (s.push32 pc).push16 sr

/-- The frame of an access error on a 68040. -/
def stackFrame0111 (s : M68kiCpu) (sr vector pc faultAddress ssw : UInt32) : M68kiCpu :=
  let s := s.fakePushes32 9
  let s := s.push32 faultAddress
  let s := ((s.push16 0).push16 0).push16 0
  let s := (s.push16 ssw).push32 faultAddress
  let s := s.push16 ((0x7000 : UInt32) ||| (vector <<< 2))
  (s.push32 pc).push16 sr

/-! ## Exceptions -/

def exceptionTrap (s : M68kiCpu) (vector : UInt32) : M68kiCpu :=
  let sr := s.initException.1
  let s := s.initException.2
  let s :=
    if s.cpuType.is010Less then s.stackFrame0000 s.pc sr vector else s.stackFrame0010 sr vector
  s.jumpVector vector

def exceptionTrapN (s : M68kiCpu) (vector : UInt32) : M68kiCpu :=
  let sr := s.initException.1
  let s := s.initException.2
  (s.stackFrame0000 s.pc sr vector).jumpVector vector

/-- The exceptions of an instruction that is not executed. -/
def exceptionRefused (s : M68kiCpu) (vector : UInt32) : M68kiCpu :=
  let sr := s.initException.1
  let s := s.initException.2
  (s.stackFrame0000 s.ppc sr vector).jumpVector vector

/-- On a 68000, the frame of an address error is to say that no instruction was fetched. -/
def noInstruction (s : M68kiCpu) : M68kiCpu :=
  if s.cpuType.is000 then { s with instrMode := 0x08 } else s

def exceptionPrivilegeViolation (s : M68kiCpu) : M68kiCpu :=
  let sr := s.initException.1
  let s := s.initException.2.noInstruction
  (s.stackFrame0000 s.ppc sr exceptionPrivilegeViolationVector).jumpVector
    exceptionPrivilegeViolationVector

def exception1010 (s : M68kiCpu) : M68kiCpu := s.exceptionRefused exception1010Vector

def exception1111 (s : M68kiCpu) : M68kiCpu := s.exceptionRefused exception1111Vector

def exceptionIllegal (s : M68kiCpu) : M68kiCpu :=
  let sr := s.initException.1
  let s := s.initException.2.noInstruction
  (s.stackFrame0000 s.ppc sr exceptionIllegalInstruction).jumpVector exceptionIllegalInstruction

def exceptionFormatError (s : M68kiCpu) : M68kiCpu := s.exceptionTrapN exceptionFormatErrorVector

/-- The special status word of a bus error, on a 68040 and before it. -/
def faultSsw040 (s : M68kiCpu) : UInt32 :=
  (if s.mmuFaultIsMmu then 0x0400 else 0) ||| (if s.mmuFaultRw then 0x0100 else 0)
    ||| (s.mmuFaultFc &&& 7)

def faultSsw030 (s : M68kiCpu) : UInt32 :=
  let ssw := 0x0100 ||| (if s.mmuFaultRw then 0x0040 else 0) ||| (s.mmuFaultFc &&& 7)
  if s.mmuFaultSize = 2 then ssw ||| 0x0010
  else if s.mmuFaultSize = 4 then ssw ||| 0x0020
  else ssw

/-- The frame of a bus error. -/
def busErrorFrame (s : M68kiCpu) (sr : UInt32) : M68kiCpu :=
  if s.cpuType.is040Plus then
    s.stackFrame0111 sr exceptionBusErrorVector s.ppc s.mmuFaultAddress s.faultSsw040
  else if s.cpuType.isEc020Plus then
    if s.mmuFaultIsMmu then
      s.stackFrame1010 sr exceptionBusErrorVector s.ppc s.mmuFaultAddress s.faultSsw030
    else s.stackFrame1011 sr exceptionBusErrorVector s.ppc s.mmuFaultAddress s.faultSsw030
  else s.stackFrame1000 s.ppc sr exceptionBusErrorVector

/-- The registers from before the instruction. -/
def restoreDar (s : M68kiCpu) : M68kiCpu := { s with dar := s.darSave }

def setRunMode (s : M68kiCpu) (runMode : RunMode) : M68kiCpu := { s with runMode }

/-- The instruction's registers are taken back, and its address is in the frame. -/
def exceptionBusError (s : M68kiCpu) : M68kiCpu :=
  if s.runMode = .bErrAErrResetWsf then { s with stopped := 2 }
  else
    let s := (s.setRunMode .bErrAErrResetWsf).restoreDar
    let s := s.initException.2.busErrorFrame s.initException.1
    (s.jumpVector exceptionBusErrorVector).setRunMode .bErrAErrReset

def addressErrorSsw (s : M68kiCpu) : UInt32 :=
  0x0100 ||| 0x0040 ||| (if s.aerrFc &&& 7 ≠ 0 then s.aerrFc &&& 7 else 6)

/-- The frame of an address error. -/
def addressErrorFrame (s : M68kiCpu) (sr : UInt32) : M68kiCpu :=
  if s.cpuType.is000 then s.stackFrameBuserr sr
  else if s.cpuType.is010 then s.stackFrame1000 s.ppc sr exceptionAddressErrorVector
  else if s.aerrAddress = s.ppc then
    s.stackFrame1010 sr exceptionAddressErrorVector s.ppc s.aerrAddress s.addressErrorSsw
  else s.stackFrame1011 sr exceptionAddressErrorVector s.ppc s.aerrAddress s.addressErrorSsw

def exceptionAddressError (s : M68kiCpu) : M68kiCpu :=
  let sr := s.initException.1
  let s := s.initException.2
  if s.runMode = .bErrAErrResetWsf then { s with stopped := 2 }
  else
    let s := (s.setRunMode .bErrAErrResetWsf).addressErrorFrame sr
    (s.jumpVector exceptionAddressErrorVector).setRunMode .bErrAErrReset

/-- The handler of an interrupt, or that of an uninitialized one. -/
def interruptPc (s : M68kiCpu) (vector : UInt32) : UInt32 :=
  let newPc := s.read32 ((vector <<< 2) + s.vbr)
  if newPc = 0 then s.read32 ((exceptionUninitializedInterrupt <<< 2) + s.vbr) else newPc

/-- The frame, and in the master state another one on the interrupt stack. -/
def interruptFrames (s : M68kiCpu) (sr vector : UInt32) : M68kiCpu :=
  let s := s.stackFrame0000 s.pc sr vector
  if s.mFlag ≠ 0 ∧ s.cpuType.isEc020Plus then
    (s.setSmFlag s.sFlag).stackFrame0001 s.pc (sr ||| 0x2000) vector
  else s

def setIntMask (s : M68kiCpu) (intMask : UInt32) : M68kiCpu := { s with intMask }

/-- An instruction that waits for an interrupt is over. -/
def leaveStop (s : M68kiCpu) : M68kiCpu := { s with stopped := s.stopped &&& ~~~1 }

/-- An interrupt is taken; the acknowledged level always has its autovector. -/
def exceptionInterrupt (s : M68kiCpu) (intLevel : UInt32) : M68kiCpu :=
  let s := s.noInstruction.leaveStop
  if s.stopped ≠ 0 then s
  else
    let vector := exceptionInterruptAutovector + intLevel
    let sr := s.initException.1
    let s := s.initException.2.setIntMask (intLevel <<< 8)
    { (s.interruptFrames sr vector).jump (s.interruptPc vector) with intLevel := 0 }

def checkInterrupts (s : M68kiCpu) : M68kiCpu :=
  if s.nmiPending then { s with nmiPending := false }.exceptionInterrupt 7
  else if s.intLevel > s.intMask then s.exceptionInterrupt (s.intLevel >>> 8)
  else s

def setSr (s : M68kiCpu) (value : UInt32) : M68kiCpu := (s.setSrNoint value).checkInterrupts

/-! ## The return -/

/-- Instructions are executed again. -/
def running (s : M68kiCpu) : M68kiCpu := { s with instrMode := 0, runMode := .normal }

/-- The status register and the program counter of a frame are taken, with `rest` more words
    behind them. -/
def rteFrame (s : M68kiCpu) (rest : UInt32) : M68kiCpu :=
  let newSr := s.pull16.1
  let s := s.pull16.2
  let newPc := s.pull32.1
  let s := s.pull32.2
  let s := s.setRegSp (s.regSp + rest)
  ((s.jump newPc).setSr newSr).running

/-- The frames of a 68020 and later, by their format. -/
def rteLoop : Nat → M68kiCpu → Option M68kiCpu
  | 0, _ => none
  | rounds + 1, s =>
    let formatWord := s.read16 (s.regSp + 6) >>> 12
    if formatWord = 0 then some (s.rteFrame 2)
    else if formatWord = 1 then
      let newSr := s.pull16.1
      let s := s.pull16.2.fakePull32.fakePull16
      rteLoop rounds (s.setSrNoint newSr)
    else if formatWord = 2 then some (s.rteFrame 6)
    else if formatWord = 7 then some (s.rteFrame (2 + 52))
    else if formatWord = 10 then some (s.rteFrame (2 + 24))
    else if formatWord = 11 then some (s.rteFrame (2 + 84))
    else some s.running.exceptionFormatError

/-- `m68k_op_rte_32`; `none` where the loop over throwaway frames is still going. -/
def opRte (rounds : Nat) (s : M68kiCpu) : Option M68kiCpu :=
  if s.sFlag = 0 then some s.exceptionPrivilegeViolation
  else if s.cpuType.is000 then some (s.rteFrame 0)
  else if s.cpuType.is010 then
    let formatWord := s.read16 (s.regSp + 6) >>> 12
    if formatWord = 0 then some (s.rteFrame 2)
    else if formatWord = 8 then some (s.rteFrame (2 + 2 + 4 + 2 * 6 + 4 * 8))
    else some s.running.exceptionFormatError
  else rteLoop rounds s

end M68kiCpu

end CuteMac.M68k
