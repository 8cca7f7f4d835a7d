/-
  The Cuda microcontroller (`CudaController.cpp`).

  * `finishPacket`: a request is answered, and the parameter RAM read or written;
  * `tick`, `shiftByteFromHost`, `portBChanged`: the clock and the lines of the adapter;
  * `Event`: what the controller does to the adapter, and the packets that it saw.

  The time of day is an argument, and what is kept for debugging is left out.
-/
import CuteMac.Via.Via6522

namespace CuteMac.Cuda

open CuteMac.Via

def tip : UInt8 := 0x20
def byteAck : UInt8 := 0x10
def treqBit : UInt8 := 3
def pseudoPacket : UInt8 := 1
def unixToMacintoshEpoch : Int := 2082844800
def pramMcuBase : UInt16 := 0x0100

/-- A call of the adapter, or a packet that is answered. -/
inductive Event where
  | packet (input : List UInt8)
  | treq (high : Bool)
  | idleAck
  | shiftIn (value : UInt8)
  | shiftOut
  deriving DecidableEq, Repr

structure CudaController where
  via : Option Via6522 := none
  pram : Vector UInt8 256 := Vector.replicate 256 0
  input : List UInt8 := []
  output : List UInt8 := []
  outputPosition : Nat := 0
  lastTip : Bool := true
  lastByteAck : Bool := true
  synchronousAttention : Bool := false
  attentionFollowupPending : Bool := false
  idleAckCycles : Int := 0
  responseTreqCycles : Int := 0
  shiftCycles : Int := 0
  shiftOutCompletion : Bool := false
  releaseTreqAfterShift : Bool := false
  pendingShiftValue : UInt8 := 0
  stagedInput : Option UInt8 := none
  /-- what happened so far, which no function reads -/
  events : List Event := []

namespace CudaController

/-! ## The adapter -/

/-- A call of the adapter, if one is attached. -/
def callVia (s : CudaController) (event : Event) (call : Via6522 → Via6522) : CudaController :=
  match s.via with
  | none => s
  | some via => { s with via := some (call via), events := s.events ++ [event] }

def setTreq (s : CudaController) (high : Bool) : CudaController :=
  s.callVia (.treq high) fun via => via.setPortBInputBit treqBit high

def externalShiftIn (s : CudaController) (event : Event) (value : UInt8) : CudaController :=
  s.callVia event fun via => via.externalShiftIn value

def externalShiftOutComplete (s : CudaController) : CudaController :=
  s.callVia .shiftOut fun via => via.externalShiftOutComplete

def attach (s : CudaController) (via : Via6522) : CudaController := { s with via := some via }

/-- The parameter RAM and the byte that is being shifted outlive a reset. -/
def reset (s : CudaController) : CudaController :=
  { s with
    input := []
    output := []
    outputPosition := 0
    lastTip := true
    lastByteAck := true
    synchronousAttention := false
    attentionFollowupPending := false
    idleAckCycles := 0
    responseTreqCycles := 0
    shiftCycles := 0
    shiftOutCompletion := false
    releaseTreqAfterShift := false
    stagedInput := none }.setTreq true

/-! ## Packets -/

def makeResponse (type command : UInt8) : List UInt8 := [type, 0, command]

def macintoshTime (unixSeconds : Int) : UInt32 := UInt32.ofInt (unixSeconds + unixToMacintoshEpoch)

/-- The address in a packet of at least four bytes. -/
def addressOf (input : List UInt8) : UInt16 :=
  ((input.getD 2 0).toUInt16 <<< 8) ||| (input.getD 3 0).toUInt16

/-- All cells, from `start` on and round the end. -/
def readCells (pram : Vector UInt8 256) (start : UInt8) : List UInt8 :=
  (List.range 256).map fun index => pram[(start + UInt8.ofNat index).toNat]?.getD 0

/-- The loop of command 0x08; what lies outside the parameter RAM is passed over. -/
def writeMemory (pram : Vector UInt8 256) (address : UInt16) : List UInt8 → Vector UInt8 256
  | [] => pram
  | value :: values =>
    writeMemory
      (if pramMcuBase ≤ address ∧ address < pramMcuBase + 256 then
        pram.setIfInBounds (address - pramMcuBase).toNat value else pram)
      (address + 1) values

/-- The loop of command 0x0c, which ends with the parameter RAM. -/
def writePram (pram : Vector UInt8 256) (address : UInt16) : List UInt8 → Vector UInt8 256
  | [] => pram
  | value :: values =>
    if address < 256 then writePram (pram.setIfInBounds address.toNat value) (address + 1) values
    else pram

/-- The bytes that follow the header of an answer. -/
def payload (pram : Vector UInt8 256) (input : List UInt8) (unixSeconds : Int) : List UInt8 :=
  let command := input.getD 1 0
  let address := addressOf input
  if command = 0x02 then
    if 4 ≤ input.length then
      if pramMcuBase ≤ address ∧ address < pramMcuBase + 256 then
        readCells pram (address - pramMcuBase).toUInt8
      else if 0x0f00 ≤ address then [0, 0, 0x19, 0, 2, 0, 0x29]
      else []
    else []
  else if command = 0x03 then
    let value := macintoshTime unixSeconds
    [(value >>> 24).toUInt8, (value >>> 16).toUInt8, (value >>> 8).toUInt8, value.toUInt8]
  else if command = 0x07 then
    if 4 ≤ input.length then
      if address < 256 then readCells pram address.toUInt8 else []
    else []
  else []

/-- The parameter RAM after a packet. -/
def written (pram : Vector UInt8 256) (input : List UInt8) : Vector UInt8 256 :=
  let command := input.getD 1 0
  if command = 0x08 then
    if 4 ≤ input.length then writeMemory pram (addressOf input) (input.drop 4) else pram
  else if command = 0x0c then
    if 4 ≤ input.length then writePram pram (addressOf input) (input.drop 4) else pram
  else pram

def finishPacket (s : CudaController) (unixSeconds : Int) : CudaController :=
  let s := { s with events := s.events ++ [Event.packet s.input] }
  let type := s.input.getD 0 0
  let command := s.input.getD 1 0
  if s.input.length < 2 then { s with output := [2, 3, 0, 0], outputPosition := 0 }
  else if type = 0 then { s with output := makeResponse 0 command, outputPosition := 0 }
  else if type ≠ pseudoPacket then { s with output := [2, 1, type, command], outputPosition := 0 }
  else
    { s with
      output := makeResponse pseudoPacket command ++ payload s.pram s.input unixSeconds
      outputPosition := 0
      pram := written s.pram s.input }

/-- The next byte of the answer, or 0 behind its end. -/
def sendNextByte (s : CudaController) : CudaController :=
  let more := s.outputPosition < s.output.length
  let position := if more then s.outputPosition + 1 else s.outputPosition
  { s with
    pendingShiftValue := s.output.getD s.outputPosition 0
    outputPosition := position
    shiftOutCompletion := false
    shiftCycles := 7040
    releaseTreqAfterShift := decide (s.output.length ≤ position) }

/-! ## The clock -/

def tickResponseTreq (s : CudaController) (cycles : Int) : CudaController :=
  if 0 < s.responseTreqCycles then
    let s := { s with responseTreqCycles := s.responseTreqCycles - cycles }
    if s.responseTreqCycles ≤ 0 then s.setTreq false else s
  else s

def tickIdleAck (s : CudaController) (cycles : Int) : CudaController :=
  if 0 < s.idleAckCycles then
    let s := { s with idleAckCycles := s.idleAckCycles - cycles }
    if s.idleAckCycles ≤ 0 then s.externalShiftIn .idleAck 0 else s
  else s

/-- A byte is through, in one direction or the other. -/
def shiftDone (s : CudaController) : CudaController :=
  if s.shiftOutCompletion then s.externalShiftOutComplete
  else
    let s := s.externalShiftIn (.shiftIn s.pendingShiftValue) s.pendingShiftValue
    if s.releaseTreqAfterShift then { s with releaseTreqAfterShift := false }.setTreq true else s

def tickShift (s : CudaController) (cycles : Int) : CudaController :=
  if 0 < s.shiftCycles then
    let s := { s with shiftCycles := s.shiftCycles - cycles }
    if s.shiftCycles ≤ 0 then s.shiftDone else s
  else s

def tick (s : CudaController) (cycles : Int) : CudaController :=
  if s.via.isNone then s
  else ((s.tickResponseTreq cycles).tickIdleAck cycles).tickShift cycles

/-! ## The lines -/

def shiftByteFromHost (s : CudaController) (value : UInt8) : CudaController :=
  { s with stagedInput := some value }

def shiftByteToHostConsumed (s : CudaController) : CudaController :=
  if !s.attentionFollowupPending || s.via.isNone then s
  else { s with attentionFollowupPending := false }

/-- TIP up and BYTEACK down: both sides start over. -/
def attention (s : CudaController) : CudaController :=
  let s : CudaController :=
    { s with
      input := []
      output := []
      outputPosition := 0
      stagedInput := none
      synchronousAttention := true }
  let s := s.setTreq false
  if s.via.isSome then { s with idleAckCycles := 4880 } else s

/-- Both lines up: a request is answered, or an answer is over. -/
def endTransaction (s : CudaController) (unixSeconds : Int) : CudaController :=
  let completedRequest := !s.input.isEmpty
  let s := s.setTreq true
  let s := if s.via.isSome then { s with idleAckCycles := 4880 } else s
  let s := { s with synchronousAttention := false }
  let s := if completedRequest then s.finishPacket unixSeconds else s
  let s := { s with input := [] }
  if completedRequest && !s.output.isEmpty && s.via.isSome then
    { s with responseTreqCycles := 1040 }
  else if !completedRequest then { s with output := [], outputPosition := 0 }
  else s

/-- TIP down: a byte in the direction that the auxiliary control register says. -/
def handshake (s : CudaController) : CudaController :=
  match s.via with
  | none => s
  | some via =>
    if via.auxiliaryControl &&& 0x10 ≠ 0 then
      let s :=
        match s.stagedInput with
        | some value => { s with input := s.input ++ [value], stagedInput := none }
        | none => s
      { s with shiftOutCompletion := true, shiftCycles := 5680 }
    else s.sendNextByte

def portBChanged (s : CudaController) (output direction : UInt8) (unixSeconds : Int) :
    CudaController :=
  let pins := output &&& direction
  let newTip := pins &&& tip != 0
  let newByteAck := pins &&& byteAck != 0
  if newTip = s.lastTip ∧ newByteAck = s.lastByteAck then s
  else
    let s := { s with lastTip := newTip, lastByteAck := newByteAck }
    if newTip ∧ !newByteAck then s.attention
    else if newTip ∧ newByteAck then s.endTransaction unixSeconds
    else s.handshake

end CudaController

end CuteMac.Cuda
