/-
  The serial controller (`Z8530Scc.cpp`, `SerialBus.h`).

  * `SerialEndpoint`: what is attached to a channel; it delivers bytes when it
    is polled;
  * `Z8530Scc`: the two channels, each with one data byte and one flag for it;
  * `readControl`, `writeControl`, `readData`, `writeData`: the guest's side;
  * `tick`: the endpoints are polled, then the transmitters and timers run.
-/
import Mathlib.Data.List.Basic

namespace CuteMac.Scc

/-- `SerialEndpoint`: the bytes that it delivers while it is polled, and what it makes of
    a byte sent to it. -/
class SerialEndpoint (ε : Type) where
  reset : ε → ε
  poll : ε → List UInt8 × ε
  receiveByte : ε → UInt8 → ε

inductive Channel where
  | a
  | b
  deriving DecidableEq, Repr

/-- A status without bit 0. -/
def noStatus : { bits : UInt8 // bits &&& 1 = 0 } := ⟨0, rfl⟩

structure ChannelState where
  writeRegisters : Vector UInt8 16 := Vector.replicate 16 0
  selectedRegister : UInt8 := 0
  awaitingRegisterWrite : Bool := false
  data : UInt8 := 0
  transmitCycles : Int := 0
  transmitInterruptPending : Bool := false
  receiveDataAvailable : Bool := false
  transmitData : UInt8 := 0
  baudRateCycles : Int := 0
  externalStatusPending : Bool := false
  zeroCount : Bool := false
  /-- the other bits of RR0; bit 0 is `receiveDataAvailable` alone -/
  status : { bits : UInt8 // bits &&& 1 = 0 } := noStatus

namespace ChannelState

def receiveInterruptEnabled (c : ChannelState) : Bool :=
  c.receiveDataAvailable && c.writeRegisters[1] &&& 0x18 != 0

def transmitInterruptEnabled (c : ChannelState) : Bool :=
  c.transmitInterruptPending && c.writeRegisters[1] &&& 0x02 != 0

def externalInterruptEnabled (c : ChannelState) : Bool :=
  c.externalStatusPending && c.writeRegisters[1] &&& 0x01 != 0

/-- WR14 bit 4. -/
def localLoopback (c : ChannelState) : UInt8 := c.writeRegisters[14] &&& 0x10

def restartBaudRateTimer (c : ChannelState) : ChannelState :=
  if c.writeRegisters[14] &&& 0x01 = 0 then { c with baudRateCycles := 0 }
  else
    let timeConstant : Int := (c.writeRegisters[12].toNat ||| c.writeRegisters[13].toNat <<< 8 : Nat)
    { c with baudRateCycles := max 1024 ((timeConstant + 2) * 1024) }

/-- RR0. -/
def rr0 (c : ChannelState) : UInt8 :=
  c.status.val ||| (if c.transmitCycles = 0 then 0x44 else 0x00) |||
    (if c.zeroCount then 0x02 else 0x00) ||| (if c.receiveDataAvailable then 0x01 else 0x00)

/-- `receiveByte` -/
def receiveByte (c : ChannelState) (value : UInt8) : ChannelState :=
  { c with
    data := value
    receiveDataAvailable := true }

/-- The timer of `tick`. -/
def advanceTimer (c : ChannelState) (cycles : Int) : ChannelState :=
  if c.baudRateCycles ≤ 0 then c
  else if 0 < c.baudRateCycles - cycles then { c with baudRateCycles := c.baudRateCycles - cycles }
  else
    { c with
      zeroCount := c.zeroCount || c.writeRegisters[15] &&& 0x02 != 0
      externalStatusPending := c.writeRegisters[15] &&& 0x02 != 0
      baudRateCycles := 0 }

/-- The transmitter of `tick`. -/
def advanceTransmitter (c : ChannelState) (cycles : Int) : ChannelState :=
  if c.transmitCycles ≤ 0 then c
  else
    let transmitCycles := max 0 (c.transmitCycles - cycles)
    { c with
      transmitCycles := transmitCycles
      transmitInterruptPending := c.transmitInterruptPending || transmitCycles == 0 }

/-- The byte that the transmitter hands to the endpoint, if it ends now; not in the
    synchronous modes. -/
def transmitted (c : ChannelState) (cycles : Int) : Option UInt8 :=
  if 0 < c.transmitCycles ∧ c.transmitCycles - cycles ≤ 0 ∧ c.writeRegisters[4] &&& 0x0c ≠ 0 then
    some c.transmitData
  else none

end ChannelState

/-- Each channel with the bus behind it; a bus may have no endpoint. -/
structure Z8530Scc (ε : Type) where
  channelA : ChannelState := {}
  channelB : ChannelState := {}
  busA : Option ε := none
  busB : Option ε := none

namespace Z8530Scc

variable {ε : Type}

def state (s : Z8530Scc ε) : Channel → ChannelState
  | .a => s.channelA
  | .b => s.channelB

def bus (s : Z8530Scc ε) : Channel → Option ε
  | .a => s.busA
  | .b => s.busB

def setState (s : Z8530Scc ε) (ch : Channel) (c : ChannelState) : Z8530Scc ε :=
  match ch with
  | .a => { s with channelA := c }
  | .b => { s with channelB := c }

def setBus (s : Z8530Scc ε) (ch : Channel) (endpoint : ε) : Z8530Scc ε :=
  match ch with
  | .a => { s with busA := some endpoint }
  | .b => { s with busB := some endpoint }

def modifiedInterruptVector (s : Z8530Scc ε) : UInt8 :=
  if s.channelA.receiveInterruptEnabled then 0x0c
  else if s.channelA.transmitInterruptEnabled then 0x08
  else if s.channelA.externalInterruptEnabled then 0x0a
  else if s.channelB.receiveInterruptEnabled then 0x04
  else if s.channelB.transmitInterruptEnabled then 0x00
  else if s.channelB.externalInterruptEnabled then 0x02
  else 0xff

def interruptActive (s : Z8530Scc ε) : Bool :=
  (s.channelA.writeRegisters[9] ||| s.channelB.writeRegisters[9]) &&& 0x08 != 0 &&
    s.modifiedInterruptVector != 0xff

/-- The first interrupt of a channel is reset; `none` if it has none. -/
def resetInterrupt (c : ChannelState) : Option ChannelState :=
  if c.receiveInterruptEnabled then some { c with receiveDataAvailable := false }
  else if c.transmitInterruptEnabled then some { c with transmitInterruptPending := false }
  else if c.externalInterruptEnabled then
    some { c with
      externalStatusPending := false
      zeroCount := false }
  else none

def resetHighestInterrupt (s : Z8530Scc ε) : Z8530Scc ε :=
  match resetInterrupt s.channelA with
  | some c => { s with channelA := c }
  | none =>
    match resetInterrupt s.channelB with
    | some c => { s with channelB := c }
    | none => s

/-! ## The guest's side -/

def readControl (s : Z8530Scc ε) (ch : Channel) : UInt8 × Z8530Scc ε :=
  let selectedRegister := (s.state ch).selectedRegister
  let s := s.setState ch { s.state ch with
    selectedRegister := 0
    awaitingRegisterWrite := false }
  let value :=
    if selectedRegister = 0 then (s.state ch).rr0
    else if selectedRegister = 1 then if (s.state ch).transmitCycles = 0 then 0x01 else 0x00
    else if selectedRegister = 2 ∧ ch = .b then s.modifiedInterruptVector
    else if selectedRegister = 15 then (s.state ch).writeRegisters[15]
    else if selectedRegister = 3 ∧ ch = .a then
      (if s.channelA.receiveInterruptEnabled then 0x20 else 0) |||
        (if s.channelA.transmitInterruptEnabled then 0x10 else 0) |||
        (if s.channelA.externalInterruptEnabled then 0x08 else 0) |||
        (if s.channelB.receiveInterruptEnabled then 0x04 else 0) |||
        (if s.channelB.transmitInterruptEnabled then 0x02 else 0) |||
        (if s.channelB.externalInterruptEnabled then 0x01 else 0)
    else 0
  (value, s)

def readData (s : Z8530Scc ε) (ch : Channel) : UInt8 × Z8530Scc ε :=
  ((s.state ch).data, s.setState ch { s.state ch with receiveDataAvailable := false })

/-- The value for the register that the previous write has selected. -/
def writeRegister (c : ChannelState) (value : UInt8) : ChannelState :=
  let reg := (c.selectedRegister &&& 0x0f).toNat
  let c := { c with
    writeRegisters := c.writeRegisters.setIfInBounds reg value
    awaitingRegisterWrite := false
    selectedRegister := 0 }
  if reg = 12 ∨ reg = 13 ∨ reg = 14 then c.restartBaudRateTimer else c

def writeControl (s : Z8530Scc ε) (ch : Channel) (value : UInt8) : Z8530Scc ε :=
  let c := s.state ch
  let command := (value >>> 3) &&& 7
  let lowRegister := value &&& 7
  if c.awaitingRegisterWrite then s.setState ch (writeRegister c value)
  else if command = 1 then
    s.setState ch { c with
      selectedRegister := 8 + lowRegister
      awaitingRegisterWrite := true }
  else if command = 0 ∧ lowRegister ≠ 0 then
    s.setState ch { c with
      selectedRegister := lowRegister
      awaitingRegisterWrite := true }
  else
    let s :=
      if command = 2 then
        s.setState ch { c with
          externalStatusPending := false
          zeroCount := false }
      else if command = 5 then s.setState ch { c with transmitInterruptPending := false }
      else if command = 7 then s.resetHighestInterrupt
      else s
    s.setState ch { s.state ch with
      selectedRegister := 0
      awaitingRegisterWrite := false }

/-- In local loopback (WR14 bit 4) the byte sent is a byte received. -/
def writeData (s : Z8530Scc ε) (ch : Channel) (value : UInt8) : Z8530Scc ε :=
  let c := s.state ch
  s.setState ch { c with
    data := value
    transmitData := value
    transmitCycles := 16
    transmitInterruptPending := false
    receiveDataAvailable := c.receiveDataAvailable || c.localLoopback != 0 }

/-! ## The other side -/

variable [SerialEndpoint ε]

def reset (s : Z8530Scc ε) : Z8530Scc ε where
  channelA := {}
  channelB := { status := ⟨0x10, rfl⟩ }
  busA := s.busA.map SerialEndpoint.reset
  busB := s.busB.map SerialEndpoint.reset

/-- The bytes that the endpoint of a channel delivers when it is polled. -/
def delivered (s : Z8530Scc ε) (ch : Channel) : List UInt8 :=
  match s.bus ch with
  | none => []
  | some endpoint => (SerialEndpoint.poll endpoint).1

/-- `SerialBus::poll` -/
def poll (s : Z8530Scc ε) (ch : Channel) : Z8530Scc ε :=
  match s.bus ch with
  | none => s
  | some endpoint =>
    (s.setBus ch (SerialEndpoint.poll endpoint).2).setState ch
      ((SerialEndpoint.poll endpoint).1.foldl ChannelState.receiveByte (s.state ch))

/-- `SerialBus::transmit` -/
def transmit (s : Z8530Scc ε) (ch : Channel) (value : UInt8) : Z8530Scc ε :=
  match s.bus ch with
  | none => s
  | some endpoint => s.setBus ch (SerialEndpoint.receiveByte endpoint value)

/-- One round of the loop of `tick`. -/
def advance (s : Z8530Scc ε) (ch : Channel) (cycles : Int) : Z8530Scc ε :=
  let c := s.state ch
  let s := s.setState ch ((c.advanceTransmitter cycles).advanceTimer cycles)
  match c.transmitted cycles with
  | some value => s.transmit ch value
  | none => s

def tick (s : Z8530Scc ε) (cycles : Int) : Z8530Scc ε :=
  (((s.poll .a).poll .b).advance .a cycles).advance .b cycles

end Z8530Scc

end CuteMac.Scc
