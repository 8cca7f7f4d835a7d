/-
  What saves and restores the floating-point unit (`m68kfpu.c`).

  * `fmoveFpcr`: FMOVEM of the control registers;
  * `fmovem`: FMOVEM of the floating-point registers;
  * `performFsave`, `doFrestoreNull`, `fpuOp1`: FSAVE and FRESTORE.
-/
import CuteMac.Fpu.Operands

namespace CuteMac.Fpu

open ByteMemory Core

namespace M68kiCpu

/-! ## The control registers -/

/-- The address of a control operand, computed once. -/
def eaControlAddress32 (s : M68kiCpu) (ea : UInt16) : Option (UInt32 × M68kiCpu) :=
  match eaMode ea with
  | 2 => some (s.a (eaReg ea), s)
  | 5 => some (s.eaAyDi (eaReg ea))
  | 6 => some (s.getEaIx (s.a (eaReg ea)))
  | 7 =>
    match (eaReg ea).val with
    | 0 => some (signed16 s.readImm16.1, s.readImm16.2)
    | 1 => some s.readImm32
    | 2 => some s.eaPcdi
    | 3 => some (s.getEaIx s.pc)
    | _ => none
  | _ => none

inductive ControlRegister where
  | fpcr
  | fpsr
  | fpiar
  deriving DecidableEq, Repr

/-- The selected registers in the order of the transfer. -/
def selectedRegisters (reg : UInt16) : List ControlRegister :=
  (if reg &&& 4 ≠ 0 then [.fpcr] else []) ++ (if reg &&& 2 ≠ 0 then [.fpsr] else []) ++
    (if reg &&& 1 ≠ 0 then [.fpiar] else [])

def control (s : M68kiCpu) : ControlRegister → UInt32
  | .fpcr => s.fpcr
  | .fpsr => s.fpsr
  | .fpiar => s.fpiar

/-- Loading FPCR sets the rounding mode of the arithmetic. -/
def setControl (s : M68kiCpu) (register : ControlRegister) (value : UInt32) : M68kiCpu :=
  match register with
  | .fpcr => { s with fpcr := value, floatRoundingMode := (value >>> 4) &&& 3 }
  | .fpsr => { s with fpsr := value }
  | .fpiar => { s with fpiar := value }

/-- Registers side by side in memory. -/
def storeControls (s : M68kiCpu) (address : UInt32) : List ControlRegister → M68kiCpu
  | [] => s
  | r :: rs => storeControls (s.write32 address (s.control r)) (address + 4) rs

def loadControls (s : M68kiCpu) (address : UInt32) : List ControlRegister → M68kiCpu
  | [] => s
  | r :: rs => loadControls (s.setControl r (s.read32 address)) (address + 4) rs

/-- Each register through its own operand. -/
def writeControls (s : M68kiCpu) (ea : UInt16) : List ControlRegister → M68kiCpu
  | [] => s
  | r :: rs => writeControls (s.writeEa32 ea (s.control r)) ea rs

def readControls (s : M68kiCpu) (ea : UInt16) : List ControlRegister → M68kiCpu
  | [] => s
  | r :: rs => readControls ((s.readEa32 ea).2.setControl r (s.readEa32 ea).1) ea rs

def fmoveFpcr (s : M68kiCpu) (w2 : UInt16) : M68kiCpu :=
  let ea := s.ea
  let dir := (w2 >>> 13) &&& 1
  let selected := selectedRegisters ((w2 >>> 10) &&& 7)
  let address :=
    if 1 < selected.length ∧ eaMode ea ≠ 3 ∧ eaMode ea ≠ 4 then s.eaControlAddress32 ea else none
  match address with
  | some place =>
    if dir ≠ 0 then place.2.storeControls place.1 selected else place.2.loadControls place.1 selected
  | none => if dir ≠ 0 then s.writeControls ea selected else s.readControls ea selected

/-! ## The floating-point registers -/

/-- The displacement of a `(d16, An)` operand, which is read once. -/
def diModeEa (s : M68kiCpu) (ea : UInt16) : UInt32 × M68kiCpu :=
  if eaMode ea = 5 then s.eaAyDi (eaReg ea) else (0, s)

/-- The operand of the next register. -/
def nextDiModeEa (ea : UInt16) (diModeEa : UInt32) : UInt32 :=
  if eaMode ea = 5 then diModeEa + 12 else diModeEa

def storeRegisters (s : M68kiCpu) (ea : UInt16) (diModeEa : UInt32) : List (Fin 8) → M68kiCpu
  | [] => s
  | r :: rs => storeRegisters (s.writeEaFpe ea (s.fp r) diModeEa) ea (nextDiModeEa ea diModeEa) rs

def loadRegisters (s : M68kiCpu) (ea : UInt16) (diModeEa : UInt32) : List (Fin 8) → M68kiCpu
  | [] => s
  | r :: rs =>
    let read := s.readEaFpe ea diModeEa
    loadRegisters (read.2.setFp r read.1) ea (nextDiModeEa ea diModeEa) rs

/-- The bits of a register list from bit 0 on. -/
def listed (reglist : UInt16) : List (Fin 8) :=
  (List.finRange 8).filter fun i => reglist.toNat.testBit i.val

/-- Bit 0 is FP7 in the lists of the postincrement and control modes. -/
def listedReversed (reglist : UInt16) : List (Fin 8) := (listed reglist).map Fin.rev

def fmovem (s : M68kiCpu) (w2 : UInt16) : M68kiCpu :=
  let ea := s.ea
  let dir := (w2 >>> 13) &&& 1
  let mode := (w2 >>> 11) &&& 3
  let reglist := w2 &&& 0xff
  if dir ≠ 0 then
    if mode = 2 then
      let di := s.diModeEa ea
      di.2.storeRegisters ea di.1 (listedReversed reglist)
    else if mode = 0 then
      let di := s.diModeEa ea
      di.2.storeRegisters ea di.1 (listed reglist)
    else s.fpuReport
  else if mode = 2 then
    let di := s.diModeEa ea
    di.2.loadRegisters ea di.1 (listedReversed reglist)
  else s.fpuReport

/-! ## The state frames -/

def fpuIdleFrameHeader (s : M68kiCpu) : UInt32 :=
  match s.fpuModel with
  | .m68040 => 0x00000000
  | .m68882 => 0x2f180000
  | _ => 0x1f180000

def fpuStateFrameBytes (s : M68kiCpu) : UInt32 := if s.fpuModel = .m68040 then 4 else 7 * 4

/-- Long words at falling addresses. -/
def writeDown (s : M68kiCpu) (address : UInt32) : List UInt32 → M68kiCpu
  | [] => s
  | value :: values => writeDown (s.write32 address value) (address - 4) values

/-- Long words at rising addresses. -/
def writeUp (s : M68kiCpu) (address : UInt32) : List UInt32 → M68kiCpu
  | [] => s
  | value :: values => writeUp (s.write32 address value) (address + 4) values

def performFsave (s : M68kiCpu) (address : UInt32) (inc : Bool) : M68kiCpu :=
  let header := s.fpuIdleFrameHeader
  if s.fpuModel = .m68040 then s.write32 address header
  else if inc then s.writeUp address [header, 0, 0, 0, 0, 0, 0x70000000]
  else s.writeDown address [0x70000000, 0, 0, 0, 0, 0, header]

/-- A NULL frame starts the coprocessor again. -/
def doFrestoreNull (s : M68kiCpu) : M68kiCpu :=
  { s with
    fpcr := 0
    fpsr := 0
    fpiar := 0
    fp := fun _ => ⟨0x7fff, 0xffffffffffffffff⟩
    fpuJustReset := true }

def fsave (s : M68kiCpu) : M68kiCpu :=
  let reg := eaReg s.ea
  match eaMode s.ea with
  | 2 => if s.fpuJustReset then s.write32 (s.a reg) 0 else s.performFsave (s.a reg) true
  | 3 =>
    let address := s.a reg
    let s := s.setA reg (s.a reg + 4)
    if s.fpuJustReset then s.write32 address 0
    else (s.setA reg (s.a reg + (s.fpuStateFrameBytes - 4))).performFsave address true
  | 4 =>
    let s := s.setA reg (s.a reg - 4)
    let address := s.a reg
    if s.fpuJustReset then s.write32 address 0
    else (s.setA reg (s.a reg - (s.fpuStateFrameBytes - 4))).performFsave address false
  | _ => s.fpuReport

/-- The bytes of a frame after its format word, by the size that the word gives. -/
def frameRest (header : UInt32) : UInt32 :=
  if header &&& 0x00ff0000 = 0x00180000 then 6 * 4
  else if header &&& 0x00ff0000 = 0x00380000 then 14 * 4
  else if header &&& 0x00ff0000 = 0x00b40000 then 45 * 4
  else 0

def frestore (s : M68kiCpu) : M68kiCpu :=
  let reg := eaReg s.ea
  match eaMode s.ea with
  | 2 =>
    if s.read32 (s.a reg) &&& 0xff000000 ≠ 0 then { s with fpuJustReset := false }
    else s.doFrestoreNull
  | 3 =>
    let header := s.read32 (s.a reg)
    let s := s.setA reg (s.a reg + 4)
    if header &&& 0xff000000 ≠ 0 then
      { s with fpuJustReset := false }.setA reg (s.a reg + frameRest header)
    else s.doFrestoreNull
  | _ => s.fpuReport

def fpuOp1 (s : M68kiCpu) : M68kiCpu :=
  let opmode := (s.ir >>> 6) &&& 3
  let s := { s with fpiar := s.ppc }
  if opmode = 0 then s.fsave else if opmode = 1 then s.frestore else s.fpuReport

end M68kiCpu

end CuteMac.Fpu
