/-
  The NCR53C94 SCSI controller (`Ncr53c94.h`, `Ncr53c94.cpp`).

  `Ncr53c94 ι ω` is the state of the chip, the targets it is wired to (`world`)
  and a `log` of the CDBs it began and the calls it made, which no function reads.

  A programmed-I/O Transfer Information appends `count` bytes of the data buffer
  to the FIFO.  Were the count negative, `QByteArray::append` would take the bytes
  behind the buffer up to the next zero byte: `overread data position` stands for
  them.

  `access` is the machine whose inputs are the accesses of a guest and the ticks
  of the controller clock.
-/
import Mathlib.Logic.Function.Basic
import CuteMac.Lib.Machine
import CuteMac.Scsi.Target
import CuteMac.Lib.BankSizes

namespace CuteMac.Scsi

/-- What the log records: `m_cdb` is cleared for a new CDB, a target's
    `executeCommand` is called. -/
inductive CdbEvent (ι : Type) where
  | newCdb
  | execute (target : ι) (cdb dataOut : List UInt8) (result : ScsiCommandResult)
deriving DecidableEq, Repr

structure Ncr53c94 (ι ω : Type) where
  targets : Fin 8 → Option ι
  registers : UInt8 → UInt8
  fifo : List UInt8
  cdb : List UInt8
  data : List UInt8
  dataOut : List UInt8
  dataPosition : Nat
  startTransferCount : Nat
  transferCount : Nat
  targetId : Fin 8
  status : UInt8
  interruptStatus : UInt8
  sequenceStep : UInt8
  scsiStatus : UInt8
  message : UInt8
  dataIn : Bool
  dataOutPhase : Bool
  commandPhase : Bool
  dmaActive : Bool
  busResetCycles : Nat
  controllerCommandCounts : UInt8 → UInt64
  scsiCommandCounts : UInt8 → UInt64
  world : ω
  log : List (CdbEvent ι)

namespace Ncr53c94

def terminalCount : UInt8 := 0x10
def interruptPending : UInt8 := 0x80
def interruptReset : UInt8 := 0x80
def interruptDisconnected : UInt8 := 0x20
def interruptService : UInt8 := 0x10
def interruptSuccess : UInt8 := 0x08
def busResetDelayCycles : Nat := 130

/-- The length of a CDB with the given opcode. -/
def commandLength (opcode : UInt8) : Nat :=
  let group := opcode >>> 5
  if group = 0 then 6 else if group = 1 ∨ group = 2 then 10 else if group = 5 then 12 else 6

variable {ι ω : Type}

/-- A chip just constructed or reset, with the given targets attached. -/
def initial (targets : Fin 8 → Option ι) (world : ω) (log : List (CdbEvent ι) := []) :
    Ncr53c94 ι ω :=
  { targets := targets, registers := fun _ => 0, fifo := [], cdb := [], data := [], dataOut := [],
    dataPosition := 0, startTransferCount := 0, transferCount := 0, targetId := 0, status := 0,
    interruptStatus := 0, sequenceStep := 0, scsiStatus := 0, message := 0, dataIn := false,
    dataOutPhase := false, commandPhase := false, dmaActive := false, busResetCycles := 0,
    controllerCommandCounts := fun _ => 0, scsiCommandCounts := fun _ => 0, world := world,
    log := log }

/-- `reset`: the attached targets stay. -/
def reset (s : Ncr53c94 ι ω) : Ncr53c94 ι ω := initial s.targets s.world s.log

def record (s : Ncr53c94 ι ω) (e : CdbEvent ι) : Ncr53c94 ι ω := { s with log := s.log ++ [e] }

/-- `m_registers[index] = value` -/
def setRegister (s : Ncr53c94 ι ω) (index value : UInt8) : Ncr53c94 ι ω :=
  { s with registers := Function.update s.registers index value }

/-- `++counts[index]` -/
def increment (counts : UInt8 → UInt64) (index : UInt8) : UInt8 → UInt64 :=
  Function.update counts index (counts index + 1)

def raiseInterrupt (s : Ncr53c94 ι ω) (cause : UInt8) : Ncr53c94 ι ω :=
  { s with interruptStatus := cause, status := s.status ||| interruptPending }

def tick (s : Ncr53c94 ι ω) (controllerCycles : Nat) : Ncr53c94 ι ω :=
  if s.busResetCycles = 0 then s
  else if controllerCycles < s.busResetCycles then
    { s with busResetCycles := s.busResetCycles - controllerCycles }
  else
    let s := { s with busResetCycles := 0 }
    -- configuration register bit 6 disables the SCSI reset interrupt
    if s.registers 8 &&& 0x40 = 0 then s.raiseInterrupt interruptReset else s

def readRegister (s : Ncr53c94 ι ω) (index : UInt8) : UInt8 × Ncr53c94 ι ω :=
  let index := index &&& 15
  match index.toNat with
  | 0 => (UInt8.ofNat s.transferCount, s)
  | 1 => (UInt8.ofNat (s.transferCount >>> 8), s)
  | 2 =>
    match s.fifo with
    | [] => (0, s)
    | value :: fifo =>
      (value, { s with
        fifo := fifo,
        transferCount := if s.dmaActive then s.transferCount - 1 else s.transferCount })
  | 3 => (s.registers 3, s)
  | 4 => (s.status, s)
  | 5 => (s.interruptStatus,
      { s with interruptStatus := 0, sequenceStep := 0, status := s.status &&& 0x1f })
  | 6 => (s.sequenceStep, s)
  | 7 =>
    if s.dmaActive ∧ s.dataIn ∧ s.dataPosition < s.data.length then
      (UInt8.ofNat (min 16 (min s.transferCount (s.data.length - s.dataPosition))), s)
    else (UInt8.ofNat s.fifo.length &&& 0x1f, s)
  | 8 | 0xb | 0xc | 0xd => (s.registers index, s)
  | 0xe => (UInt8.ofNat (s.transferCount >>> 16), s)
  | _ => (0, s)

/-! ## Commands for a target -/

section
variable [ScsiTarget ι ω]

/-- The target that the id register names, if it is there and selectable. -/
def selectableTarget (s : Ncr53c94 ι ω) : Option ι :=
  (s.targets s.targetId).filter fun target => ScsiTarget.selectable s.world target

/-- No target answers. -/
def disconnect (s : Ncr53c94 ι ω) : Ncr53c94 ι ω :=
  { s with fifo := [] }.raiseInterrupt interruptDisconnected

/-- A call of the virtual `executeCommand` of `target`. -/
def callTarget (s : Ncr53c94 ι ω) (target : ι) (dataOut : List UInt8) :
    ScsiCommandResult × Ncr53c94 ι ω :=
  let r := ScsiTarget.executeCommand s.world target s.cdb dataOut
  (r.1, { s with world := r.2 }.record (.execute target s.cdb dataOut r.1))

/-- The opcodes that `executeCdb` starts a data-out phase for. -/
def isDataOut (opcode : UInt8) : Bool := opcode == 0x0a || opcode == 0x2a || opcode == 0x15

/-- `executeCdb` once `m_cdb` is there. -/
def startCdb (s : Ncr53c94 ι ω) (target : ι) : Ncr53c94 ι ω :=
  let opcode := byteAt s.cdb 0
  let s := { s with
    scsiCommandCounts := increment s.scsiCommandCounts opcode,
    transferCount := 0, dmaActive := false, dataOutPhase := isDataOut opcode }
  let s :=
    if s.dataOutPhase then { s with dataOut := [], data := [], dataPosition := 0, dataIn := false }
    else
      let (result, s) := s.callTarget target []
      { s with
        data := result.data, dataPosition := 0, scsiStatus := result.status,
        message := result.message, dataIn := !result.data.isEmpty }
  { s with
    sequenceStep := 4,
    status := (s.status &&& 0xe8) ||| (if s.dataIn then 1 else if s.dataOutPhase then 0 else 3) }
    |>.raiseInterrupt (interruptService ||| interruptSuccess)

def executeCdb (s : Ncr53c94 ι ω) : Ncr53c94 ι ω :=
  match s.selectableTarget with
  | none => s.disconnect
  | some target =>
    match s.cdb, s.fifo with
    | [], [] => s
    | [], front :: _ =>
      let length := min (commandLength front) s.fifo.length
      { s with cdb := s.fifo.take length, fifo := s.fifo.drop length }.startCdb target
    | _ :: _, _ => s.startCdb target

/-- The FIFO without the identify message in front. -/
def stripIdentify : List UInt8 → List UInt8
  | [] => []
  | front :: fifo => if front &&& 0x80 ≠ 0 then fifo else front :: fifo

def selectTarget (s : Ncr53c94 ι ω) : Ncr53c94 ι ω :=
  match s.selectableTarget with
  | none => s.disconnect
  | some _ =>
    let s := { s with cdb := [], fifo := stripIdentify s.fifo }.record .newCdb
    -- an empty FIFO is not a disconnect: the command bytes may come by DMA
    if s.fifo = [] then
      { s with commandPhase := true, sequenceStep := 2, status := (s.status &&& 0xf8) ||| 2 }
    else s.executeCdb

/-- The loop of `consumeCommandFifo` over the bytes of the FIFO. -/
def consumeBytes (s : Ncr53c94 ι ω) : List UInt8 → Ncr53c94 ι ω
  | [] => { s with fifo := [] }
  | value :: fifo =>
    if s.cdb = [] ∧ value &&& 0x80 ≠ 0 then consumeBytes s fifo
    else
      let s := { s with cdb := s.cdb ++ [value] }
      if commandLength (byteAt s.cdb 0) ≤ s.cdb.length then
        { s with fifo := fifo, commandPhase := false }.executeCdb
      else consumeBytes s fifo

def consumeCommandFifo (s : Ncr53c94 ι ω) : Ncr53c94 ι ω :=
  if s.commandPhase then s.consumeBytes s.fifo else s

/-- Whether the FIFO holds a whole CDB. -/
def fifoComplete (s : Ncr53c94 ι ω) : Bool :=
  match s.fifo with
  | [] => false
  | front :: _ => commandLength front ≤ s.fifo.length

def completeTransfer (s : Ncr53c94 ι ω) : Ncr53c94 ι ω :=
  let s := { s with transferCount := 0, dmaActive := false, status := s.status ||| terminalCount }
  if s.commandPhase then
    if s.fifoComplete then { s with commandPhase := false }.selectTarget
    else { s with status := (s.status &&& 0xf8) ||| 2 }.raiseInterrupt interruptService
  else
    let s :=
      if s.dataOutPhase then
        let (result, s) := match s.targets s.targetId with
          | some target => s.callTarget target s.dataOut
          | none => ({}, s)
        { s with scsiStatus := result.status, message := result.message, dataOutPhase := false }
      else s
    { s with dataIn := false, status := (s.status &&& 0xf8) ||| 3 }.raiseInterrupt interruptService

/-! ## Controller commands -/

/-- The count a transfer starts with: zero stands for 65536. -/
def programmedCount (s : Ncr53c94 ι ω) : Nat :=
  if s.startTransferCount ≠ 0 then s.startTransferCount else 0x10000

/-- Transfer Information, programmed I/O, in the data-in phase: one byte of the
    data buffer goes to the FIFO. -/
def receiveByte (overread : List UInt8 → Nat → List UInt8) (s : Ncr53c94 ι ω) : Ncr53c94 ι ω :=
  let count : Int := min 1 ((s.data.length : Int) - s.dataPosition)
  let bytes :=
    if count < 0 then overread s.data s.dataPosition
    else (s.data.drop s.dataPosition).take count.toNat
  let s := { s with
    fifo := bytes, dataPosition := (s.dataPosition + count).toNat, dmaActive := false }
  let lastByte : Bool := s.data.length ≤ s.dataPosition
  { s with
    status := (s.status &&& 0xe8) ||| (if lastByte then 3 else 1),
    dataIn := if lastByte then false else s.dataIn }.raiseInterrupt interruptService

/-- Transfer Information (0x10) -/
def transferInformation (overread : List UInt8 → Nat → List UInt8) (s : Ncr53c94 ι ω)
    (dma : Bool) : Ncr53c94 ι ω :=
  if s.commandPhase ∧ !dma ∧ s.fifoComplete then { s with commandPhase := false }.executeCdb
  else if s.dataIn ∧ !dma then s.receiveByte overread
  else
    let s := { s with
      transferCount := if dma then s.programmedCount else 0,
      dmaActive := dma, status := s.status &&& ~~~terminalCount }
    if dma ∧ s.dataIn then { s with status := s.status ||| terminalCount } else s

/-- Message Accepted (0x12) -/
def messageAccepted (s : Ncr53c94 ι ω) : Ncr53c94 ι ω :=
  { s with fifo := [], data := [], dataOut := [], status := s.status &&& 0xf8 }.raiseInterrupt
    interruptDisconnected

/-- Select (0x41 to 0x43) -/
def select (s : Ncr53c94 ι ω) (dma : Bool) : Ncr53c94 ι ω :=
  let s := s.selectTarget
  if dma ∧ s.commandPhase then { s with transferCount := s.programmedCount, dmaActive := true }
  else s

def executeCommand (overread : List UInt8 → Nat → List UInt8) (s : Ncr53c94 ι ω)
    (command : UInt8) : Ncr53c94 ι ω :=
  let s := { s with
    controllerCommandCounts := increment s.controllerCommandCounts (command &&& 0x7f) }
  let dma : Bool := command &&& 0x80 ≠ 0
  match (command &&& 0x7f).toNat with
  | 0x01 => { s with fifo := [] }
  | 0x02 => s.reset
  | 0x03 => { s with busResetCycles := busResetDelayCycles }
  | 0x10 => s.transferInformation overread dma
  | 0x11 =>
    { s with fifo := [s.scsiStatus, s.message], status := (s.status &&& 0xf8) ||| 7 }.raiseInterrupt
      interruptSuccess
  | 0x12 => s.messageAccepted
  | 0x41 | 0x42 | 0x43 => s.select dma
  | _ => s

/-! ## Guest accesses -/

def writeRegister (overread : List UInt8 → Nat → List UInt8) (s : Ncr53c94 ι ω)
    (index value : UInt8) : Ncr53c94 ι ω :=
  let index := index &&& 15
  match index.toNat with
  | 0 => { s with startTransferCount := (s.startTransferCount &&& 0xffff00) ||| value.toNat }
  | 1 => { s with startTransferCount := (s.startTransferCount &&& 0xff00ff) ||| value.toNat <<< 8 }
  | 2 =>
    let s := if s.fifo.length < 16 then { s with fifo := s.fifo ++ [value] } else s
    if s.commandPhase ∧ s.dmaActive then s.consumeCommandFifo else s
  | 3 => (s.setRegister 3 value).executeCommand overread value
  | 4 => { s with targetId := Fin.ofNat 8 (value &&& 7).toNat }
  | 0xe => { s with startTransferCount := (s.startTransferCount &&& 0x00ffff) ||| value.toNat <<< 16 }
  | _ => s.setRegister index value

def readDmaByte (s : Ncr53c94 ι ω) : UInt8 × Ncr53c94 ι ω :=
  let (result, s) :=
    if s.dataPosition < s.data.length then
      (byteAt s.data s.dataPosition, { s with dataPosition := s.dataPosition + 1 })
    else (0, s)
  let s := { s with transferCount := s.transferCount - 1 }
  (result,
    if s.data.length ≤ s.dataPosition then s.completeTransfer
    else if s.transferCount = 0 then
      { s with dmaActive := false, status := s.status ||| terminalCount }.raiseInterrupt
        interruptService
    else s)

def writeDmaByte (s : Ncr53c94 ι ω) (value : UInt8) : Ncr53c94 ι ω :=
  let wasCommandPhase := s.commandPhase
  let s :=
    if s.commandPhase then
      (if s.fifo.length < 16 then { s with fifo := s.fifo ++ [value] } else s).consumeCommandFifo
    else { s with dataOut := s.dataOut ++ [value] }
  let s := { s with transferCount := s.transferCount - 1 }
  if s.transferCount ≠ 0 then s
  else if wasCommandPhase then
    let s := { s with dmaActive := false, status := s.status ||| terminalCount }
    if s.commandPhase then s.raiseInterrupt interruptService else s
  else s.completeTransfer

/-- A guest access, or a tick of the controller clock. -/
inductive Access where
  | readRegister (index : UInt8)
  | writeRegister (index value : UInt8)
  | readDmaByte
  | writeDmaByte (value : UInt8)
  | tick (controllerCycles : Nat)
deriving DecidableEq, Repr

def access (overread : List UInt8 → Nat → List UInt8) (s : Ncr53c94 ι ω) : Access → Ncr53c94 ι ω
  | .readRegister index => (s.readRegister index).2
  | .writeRegister index value => s.writeRegister overread index value
  | .readDmaByte => s.readDmaByte.2
  | .writeDmaByte value => s.writeDmaByte value
  | .tick controllerCycles => s.tick controllerCycles

end

end Ncr53c94

end CuteMac.Scsi
