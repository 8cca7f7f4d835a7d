/-
  The NCR5380 SCSI controller (`Ncr5380.h`, `Ncr5380.cpp`).

  `Ncr5380 ι ω` is the state of the chip together with the targets it is wired
  to (`world`) and the `log` of what happened on the SCSI bus.  No function
  reads the log: it is what the results about the controller are stated on.

  `readRegister` and `writeRegister` are the two guest accesses; `access` is
  the machine whose inputs are such accesses.
-/
import Mathlib.Logic.Function.Basic
import CuteMac.Lib.Machine
import CuteMac.Scsi.Target
import CuteMac.Lib.BankSizes

namespace CuteMac.Scsi

/-- `Ncr5380::Phase` -/
inductive Phase where
  | busFree
  | command
  | dataIn
  | dataOut
  | status
  | messageIn
deriving DecidableEq, Repr

/-- What the log records: a target is selected, `setPhase` is called, a command
    byte is accepted, a target's `executeCommand` is called, the chip is reset. -/
inductive BusEvent (ι : Type) where
  | select (target : ι)
  | phase (phase : Phase)
  | accept (value : UInt8)
  | execute (target : ι) (cdb dataOut : List UInt8) (result : ScsiCommandResult)
  | reset
deriving DecidableEq, Repr

/-- `Ncr5380::CommandTrace` -/
structure CommandTrace where
  targetId : UInt8
  cdb : List UInt8
  dataLength : Nat
  dataOutLength : Nat
  status : UInt8
  senseKey : UInt8
deriving DecidableEq, Repr

structure Ncr5380 (ι ω : Type) where
  registers : Fin 8 → UInt8
  targets : Fin 8 → Option ι
  activeTarget : Option ι
  command : List UInt8
  dataBuffer : List UInt8
  dataOut : List UInt8
  dataIndex : Nat
  expectedDataOut : Nat
  phase : Phase
  targetCommand : UInt8
  outputData : UInt8
  activeTargetId : UInt8
  status : UInt8
  message : UInt8
  senseKey : UInt8
  completedCommands : UInt64
  selected : Bool
  request : Bool
  requestReassertPending : Bool
  dataOutCompletionPending : Bool
  previousAck : Bool
  commandReady : Bool
  lastCommand : List UInt8
  commandTrace : List CommandTrace
  world : ω
  log : List (BusEvent ι)

namespace Ncr5380

/-! ## Registers and bits -/

def icrAssertDataBus : UInt8 := 0x01
def icrAssertSelect : UInt8 := 0x04
def icrAssertAck : UInt8 := 0x10
def icrAssertReset : UInt8 := 0x80
def modeArbitrate : UInt8 := 0x01
def modeDma : UInt8 := 0x02

def csrIo : UInt8 := 0x04
def csrCd : UInt8 := 0x08
def csrMsg : UInt8 := 0x10
def csrReq : UInt8 := 0x20
def csrBsy : UInt8 := 0x40

def bsrPhaseMatch : UInt8 := 0x08
def bsrReqPhaseMatch : UInt8 := 0x20
def bsrDmaRequest : UInt8 := 0x40
def bsrAck : UInt8 := 0x01

/-- The length of a CDB with the given opcode. -/
def expectedCommandLength (opcode : UInt8) : Nat :=
  if opcode = 0xd8 ∨ opcode = 0xd9 then 12
  else
    let group := opcode >>> 5
    if group = 0 then 6
    else if group = 1 ∨ group = 2 then 10
    else if group = 5 then 12
    else 6

variable {ι ω : Type}

/-- `m_registers[index] = value` -/
def setRegister (s : Ncr5380 ι ω) (index : Fin 8) (value : UInt8) : Ncr5380 ι ω :=
  { s with registers := Function.update s.registers index value }

def record (s : Ncr5380 ι ω) (e : BusEvent ι) : Ncr5380 ι ω := { s with log := s.log ++ [e] }

/-- Appends to `m_commandTrace`, which keeps the last 128 commands. -/
def trace (s : Ncr5380 ι ω) (t : CommandTrace) : Ncr5380 ι ω :=
  { s with
    commandTrace :=
      (if s.commandTrace.length = 128 then s.commandTrace.drop 1 else s.commandTrace) ++ [t] }

/-- `reset`: the attached targets stay. -/
def reset (s : Ncr5380 ι ω) : Ncr5380 ι ω :=
  { registers := fun _ => 0, targets := s.targets, activeTarget := none, command := [],
    dataBuffer := [], dataOut := [], dataIndex := 0, expectedDataOut := 0, phase := .busFree,
    targetCommand := 0, outputData := 0, activeTargetId := 0xff, status := 0, message := 0,
    senseKey := 0, completedCommands := 0, selected := false, request := false,
    requestReassertPending := false, dataOutCompletionPending := false, previousAck := false,
    commandReady := false, lastCommand := [], commandTrace := [], world := s.world,
    log := s.log ++ [.reset] }

/-- A chip just constructed, with the given targets attached. -/
def initial (targets : Fin 8 → Option ι) (world : ω) : Ncr5380 ι ω :=
  { registers := fun _ => 0, targets := targets, activeTarget := none, command := [],
    dataBuffer := [], dataOut := [], dataIndex := 0, expectedDataOut := 0, phase := .busFree,
    targetCommand := 0, outputData := 0, activeTargetId := 0xff, status := 0, message := 0,
    senseKey := 0, completedCommands := 0, selected := false, request := false,
    requestReassertPending := false, dataOutCompletionPending := false, previousAck := false,
    commandReady := false, lastCommand := [], commandTrace := [], world := world, log := [] }

def setPhase (s : Ncr5380 ι ω) (phase : Phase) (request : Bool := true) : Ncr5380 ι ω :=
  let s := { s with phase := phase, request := request, requestReassertPending := false }.record
    (.phase phase)
  if phase = .busFree then
    { s with
      selected := false, activeTarget := none, command := [], dataBuffer := [], dataOut := [],
      dataIndex := 0, expectedDataOut := 0, dataOutCompletionPending := false,
      commandReady := false, activeTargetId := 0xff }
  else s

/-! ## Bus status -/

def phaseBits (s : Ncr5380 ι ω) : UInt8 :=
  match s.phase with
  | .dataIn => csrIo
  | .dataOut => 0
  | .command => csrCd
  | .status => csrCd ||| csrIo
  | .messageIn => csrMsg ||| csrCd ||| csrIo
  | .busFree => 0

def phaseMatchesTargetCommand (s : Ncr5380 ι ω) : Bool :=
  s.targetCommand &&& (0x07 : UInt8) == (s.phaseBits >>> 2) &&& (0x07 : UInt8)

/-- The delayed reassertion of REQ after a DACK byte, which a status read performs. -/
def reassertRequest (s : Ncr5380 ι ω) : Ncr5380 ι ω :=
  if s.requestReassertPending then { s with request := true, requestReassertPending := false }
  else s

def currentBusStatus (s : Ncr5380 ι ω) : UInt8 × Ncr5380 ι ω :=
  (s.phaseBits ||| (if s.selected then csrBsy else 0) ||| (if s.request then csrReq else 0),
    s.reassertRequest)

def busAndStatus (s : Ncr5380 ι ω) : UInt8 × Ncr5380 ι ω :=
  let s := s.reassertRequest
  ((if s.phaseMatchesTargetCommand then bsrPhaseMatch else 0) |||
    (if s.request then bsrReqPhaseMatch else 0) |||
    (if s.request ∧ (s.phase = .dataIn ∨ s.phase = .dataOut) then bsrDmaRequest else 0) |||
    (if s.previousAck then bsrAck else 0), s)

/-! ## Data and command bytes -/

def readDataByte (s : Ncr5380 ι ω) : UInt8 × Ncr5380 ι ω :=
  match s.phase with
  | .dataIn =>
    if s.dataIndex < s.dataBuffer.length then
      (byteAt s.dataBuffer s.dataIndex, { s with dataIndex := s.dataIndex + 1 })
    else (0, s)
  | .status => (s.status, s)
  | .messageIn => (s.message, s)
  | .command | .dataOut | .busFree => (0, s)

def writeDataByte (s : Ncr5380 ι ω) (value : UInt8) : Ncr5380 ι ω :=
  if s.phase ≠ .dataOut then s else { s with dataOut := s.dataOut ++ [value] }

def acceptCommandByte (s : Ncr5380 ι ω) (value : UInt8) : Ncr5380 ι ω :=
  let s := { s with command := s.command ++ [value], request := false }.record (.accept value)
  if expectedCommandLength (byteAt s.command 0) ≤ s.command.length then
    { s with commandReady := true }
  else s

/-! ## Execution -/

section
variable [ScsiTarget ι ω]

def hasTarget (s : Ncr5380 ι ω) (id : Fin 8) : Bool :=
  match s.targets id with
  | some target => ScsiTarget.selectable s.world target
  | none => false

/-- A call of the virtual `executeCommand` of `target`. -/
def callTarget (s : Ncr5380 ι ω) (target : ι) (cdb dataOut : List UInt8) :
    ScsiCommandResult × Ncr5380 ι ω :=
  let r := ScsiTarget.executeCommand s.world target cdb dataOut
  (r.1, { s with world := r.2 }.record (.execute target cdb dataOut r.1))

/-- The bookkeeping after a command: trace, `m_lastCommand`, status and message. -/
def finishCommand (s : Ncr5380 ι ω) (result : ScsiCommandResult) (dataOutLength : Nat) :
    Ncr5380 ι ω :=
  { s.trace ⟨s.activeTargetId, s.command, result.data.length, dataOutLength, result.status,
      result.senseKey⟩ with
    lastCommand := s.command, completedCommands := s.completedCommands + 1,
    status := result.status, message := result.message, senseKey := result.senseKey }

def completeDataOutCommand (s : Ncr5380 ι ω) : Ncr5380 ι ω :=
  let (result, s) := match s.activeTarget with
    | some target => s.callTarget target s.command s.dataOut
    | none => ({}, s)
  (s.finishCommand result s.dataOut.length).setPhase .status

/-- Starts a data-out phase of `expected` bytes. -/
def beginDataOut (s : Ncr5380 ι ω) (expected : Nat) : Ncr5380 ι ω :=
  { s with expectedDataOut := expected, dataBuffer := [], dataIndex := 0 }.setPhase .dataOut

/-- The tail of `executeCommand`: the command is run without data-out bytes. -/
def runCommand (s : Ncr5380 ι ω) (target : ι) : Ncr5380 ι ω :=
  let (result, s) := s.callTarget target s.command []
  let s := { s.finishCommand result 0 with dataBuffer := result.data, dataIndex := 0 }
  s.setPhase (if s.dataBuffer.isEmpty then .status else .dataIn)

/-- The block count of a six-byte CDB, where zero stands for 256. -/
def sixByteBlocks (count : UInt8) : Nat := if count = 0 then 256 else count.toNat

def executeCommand (s : Ncr5380 ι ω) : Ncr5380 ι ω :=
  match s.activeTarget with
  | none => { s with status := 0x02, message := 0x00 }.setPhase .status
  | some target =>
    let s := { s with dataOut := [] }
    let cdb := s.command
    let opcode := byteAt cdb 0
    if opcode = 0x0a ∧ 6 ≤ cdb.length then
      s.beginDataOut (sixByteBlocks (byteAt cdb 4) * 512)
    else if opcode = 0x2a ∧ 10 ≤ cdb.length then
      -- the count is stored even when it is zero and the command runs at once
      let s := { s with expectedDataOut := be16At cdb 7 * 512 }
      if s.expectedDataOut ≠ 0 then s.beginDataOut (be16At cdb 7 * 512) else s.runCommand target
    else if opcode = 0x15 ∧ 6 ≤ cdb.length ∧ byteAt cdb 4 ≠ 0 then
      s.beginDataOut (byteAt cdb 4).toNat
    else if opcode = 0x55 ∧ 10 ≤ cdb.length then
      let s := { s with expectedDataOut := be16At cdb 7 }
      if s.expectedDataOut ≠ 0 then s.beginDataOut (be16At cdb 7) else s.runCommand target
    else if opcode = 0x04 ∧ 6 ≤ cdb.length ∧ byteAt cdb 1 &&& 0x10 ≠ 0 then s.beginDataOut 4
    else s.runCommand target

/-- The last expected byte has arrived: in DMA mode completion waits until the
    mode is cleared, with REQ kept asserted. -/
def dataOutArrived (s : Ncr5380 ι ω) : Ncr5380 ι ω :=
  if s.registers 2 &&& modeDma ≠ 0 then { s with dataOutCompletionPending := true, request := true }
  else s.completeDataOutCommand

/-- The parameter length a FORMAT UNIT asks for, from the header received so
    far: the four-byte header, the defect list and the initialization pattern. -/
def formatTotalLength (dataOut : List UInt8) : Nat :=
  let initializationPattern := byteAt dataOut 1 &&& 0x08 ≠ 0
  4 + (if initializationPattern then 4 else 0) + be16At dataOut 2 +
    (if initializationPattern then be16At dataOut 6 else 0)

def finishDataPhaseIfDone (s : Ncr5380 ι ω) : Ncr5380 ι ω :=
  if s.phase = .dataIn ∧ s.dataBuffer.length ≤ s.dataIndex then s.setPhase .status
  else if s.phase = .dataOut ∧ s.command ≠ [] ∧ byteAt s.command 0 = 0x04 ∧
      s.expectedDataOut ≤ s.dataOut.length then
    if byteAt s.dataOut 1 &&& 0x08 ≠ 0 ∧ s.dataOut.length < 8 then { s with expectedDataOut := 8 }
    else if s.dataOut.length < formatTotalLength s.dataOut then
      { s with expectedDataOut := formatTotalLength s.dataOut }
    else s.dataOutArrived
  else if s.phase = .dataOut ∧ s.expectedDataOut ≤ s.dataOut.length then s.dataOutArrived
  else s

/-! ## Register accesses -/

def readRegister (s : Ncr5380 ι ω) (registerIndex : UInt8) (dack : Bool) : UInt8 × Ncr5380 ι ω :=
  if dack then
    if !s.request then (0, s)
    else
      let (value, s) := s.readDataByte
      (value,
        if s.phase = .dataIn ∧ s.request then
          let s := { s with request := false }
          if s.dataBuffer.length ≤ s.dataIndex then s.setPhase .status
          else { s with requestReassertPending := true }
        else s)
  else
    match (registerIndex &&& 0x07).toNat with
    | 0 => s.readDataByte
    | 1 => (0x40 ||| (if s.registers 2 &&& modeArbitrate ≠ 0 then 0x40 else 0x00), s)
    | 2 => (s.registers 2, s)
    | 3 => (s.targetCommand, s)
    | 4 => s.currentBusStatus
    | 5 => s.busAndStatus
    | 6 => (s.outputData, s)
    | _ => (0, s)

/-- A DACK write: in the command phase a byte of the CDB, in the data-out phase
    a data byte.  Nothing happens unless the target requests. -/
def writeDack (s : Ncr5380 ι ω) (value : UInt8) : Ncr5380 ι ω :=
  if !s.request then s
  else if s.phase = .command then
    let s := s.acceptCommandByte value
    if s.commandReady then { s with commandReady := false }.executeCommand
    else { s with request := true }
  else
    let s := s.writeDataByte value
    if s.phase = .dataOut ∧ s.request then
      let s := { s with request := false }.finishDataPhaseIfDone
      if s.phase = .dataOut ∧ !s.dataOutCompletionPending then
        { s with requestReassertPending := true }
      else s
    else s

/-- SEL is asserted with no target selected: the lowest id on the data bus that
    answers is selected. -/
def assertSelect (s : Ncr5380 ι ω) : Ncr5380 ι ω :=
  match ([0, 1, 2, 3, 4, 5, 6] : List (Fin 8)).find? fun id =>
      s.outputData &&& (1 <<< UInt8.ofNat id.val) ≠ 0 ∧ s.hasTarget id with
  | none => s
  | some id =>
    let s := { s with activeTarget := s.targets id, activeTargetId := UInt8.ofNat id.val,
                      selected := true }
    match s.activeTarget with
    | some target => s.record (.select target)
    | none => s

/-- ACK is raised. -/
def raiseAck (s : Ncr5380 ι ω) (value : UInt8) : Ncr5380 ι ω :=
  if s.phase = .command ∧ value &&& icrAssertDataBus ≠ 0 then s.acceptCommandByte s.outputData
  else if s.phase = .dataIn ∨ s.phase = .dataOut ∨ s.phase = .status ∨ s.phase = .messageIn then
    { s with request := false }
  else s

/-- ACK is dropped. -/
def dropAck (s : Ncr5380 ι ω) : Ncr5380 ι ω :=
  if s.phase = .command ∧ s.selected ∧ s.command ≠ [] then
    if s.commandReady then { s with commandReady := false }.executeCommand
    else if s.command.length < expectedCommandLength (byteAt s.command 0) then
      { s with request := true }
    else s
  else if s.phase = .dataIn then
    if s.dataBuffer.length ≤ s.dataIndex then s.setPhase .status else { s with request := true }
  else if s.phase = .dataOut then
    let s := s.finishDataPhaseIfDone
    if s.phase = .dataOut then { s with request := true } else s
  else if s.phase = .status then s.setPhase .messageIn
  else if s.phase = .messageIn then s.setPhase .busFree false
  else s

/-- The SEL line follows the register: selection when it is asserted, the
    command phase when it is released. -/
def driveSelect (s : Ncr5380 ι ω) (previous value : UInt8) : Ncr5380 ι ω :=
  let s := if value &&& icrAssertSelect ≠ 0 ∧ !s.selected then s.assertSelect else s
  if previous &&& icrAssertSelect ≠ 0 ∧ value &&& icrAssertSelect = 0 ∧ s.selected then
    s.setPhase .command
  else s

/-- The ACK line follows the register. -/
def driveAck (s : Ncr5380 ι ω) (value : UInt8) : Ncr5380 ι ω :=
  let ack := value &&& icrAssertAck != 0
  let s :=
    if ack && !s.previousAck then s.raiseAck value
    else if !ack && s.previousAck then s.dropAck
    else s
  { s with previousAck := ack }

/-- A write of the initiator command register. -/
def writeInitiatorCommand (s : Ncr5380 ι ω) (value : UInt8) : Ncr5380 ι ω :=
  let previous := s.registers 1
  let s := s.setRegister 1 value
  if value &&& icrAssertReset ≠ 0 then s.reset else (s.driveSelect previous value).driveAck value

/-- A write of the mode register: clearing DMA mode completes a pending data-out command. -/
def writeMode (s : Ncr5380 ι ω) (value : UInt8) : Ncr5380 ι ω :=
  let s :=
    if s.registers 2 &&& modeDma ≠ 0 ∧ value &&& modeDma = 0 ∧ s.dataOutCompletionPending then
      { s with dataOutCompletionPending := false }.completeDataOutCommand
    else s
  s.setRegister 2 value

def writeRegister (s : Ncr5380 ι ω) (registerIndex : UInt8) (dack : Bool) (value : UInt8) :
    Ncr5380 ι ω :=
  if dack then s.writeDack value
  else
    match (registerIndex &&& 0x07).toNat with
    | 0 => { s with outputData := value }.setRegister 0 value
    | 1 => s.writeInitiatorCommand value
    | 2 => s.writeMode value
    | 3 => { s with targetCommand := value }.setRegister 3 value
    | 4 => s.setRegister 4 value
    | 5 => s.setRegister 5 value
    | 6 => s.setRegister 6 value
    | _ => s.setRegister 7 value

/-- A guest access. -/
inductive Access where
  | read (registerIndex : UInt8) (dack : Bool)
  | write (registerIndex : UInt8) (dack : Bool) (value : UInt8)
deriving DecidableEq, Repr

def access (s : Ncr5380 ι ω) : Access → Ncr5380 ι ω
  | .read registerIndex dack => (s.readRegister registerIndex dack).2
  | .write registerIndex dack value => s.writeRegister registerIndex dack value

end

end Ncr5380

end CuteMac.Scsi
