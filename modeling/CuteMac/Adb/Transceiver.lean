/-
  The ADB transceiver (`AdbTransceiver.cpp`).

  * `ReplyByte`: a byte of a reply, with the input that it carries;
  * `prepareResponse`: the reply to a command; TALK register 0 takes key
    transitions and mouse motion out of the queues;
  * `requestAutoPoll`, `transferByte`, `scheduleForState`: the transfers;
  * `setViaState`, `shiftRegisterWritten`, `tick`: the guest and the clock;
  * `queueKey`, `moveMouse`, `setMouseButton`: the host.

  The trace, the callbacks and the flags that only they show are left out.
-/
import Mathlib.Data.List.Basic

namespace CuteMac.Adb

def viaByteCycles : Int := 1200
def stableStateRetryCycles : Int := 1082000
def adbTransactionCycles : Int := 30000

/-! ## Replies -/

/-- The input in a byte of a reply; no function looks at it. -/
inductive Cargo where
  | none
  | key (event : UInt8)
  | deltaY (delta : Int)
  | deltaX (delta : Int)
  deriving DecidableEq, Repr

/-- The low seven bits as a two's complement number. -/
def signed7 (value : UInt8) : Int :=
  if (value &&& 0x7f).toNat < 64 then (value &&& 0x7f).toNat else (value &&& 0x7f).toNat - 128

/-- The byte says what it carries. -/
def Cargo.ReadFrom (value : UInt8) : Cargo → Prop
  | none => True
  | key event => value = event
  | deltaY delta | deltaX delta => signed7 value = delta

structure ReplyByte where
  value : UInt8
  cargo : Cargo
  honest : cargo.ReadFrom value

namespace ReplyByte

def plain (value : UInt8) : ReplyByte := ⟨value, .none, trivial⟩

def key (event : UInt8) : ReplyByte := ⟨event, .key event, rfl⟩

/-- `button | (delta & 0x7f)` -/
def motion (button : Bool) (delta : Int) : UInt8 :=
  (if button then 0x80 else 0x00) ||| UInt8.ofNat (delta % 128).toNat

theorem signed7_motion (button : Bool) {delta : Int} (h : -64 ≤ delta ∧ delta ≤ 63) :
    signed7 (motion button delta) = delta := by
  have hall : ∀ (button : Bool) (n : Fin 128),
      signed7 ((if button then 0x80 else 0x00) ||| UInt8.ofNat n.val) =
        if n.val < 64 then (n.val : Int) else (n.val : Int) - 128 := by decide +kernel
  have hn := hall button ⟨(delta % 128).toNat, by omega⟩
  rw [motion, hn]
  simp only
  split_ifs <;> omega

def deltaY (button : Bool) (delta : Int) (h : -64 ≤ delta ∧ delta ≤ 63) : ReplyByte :=
  ⟨motion button delta, .deltaY delta, signed7_motion button h⟩

def deltaX (delta : Int) (h : -64 ≤ delta ∧ delta ≤ 63) : ReplyByte :=
  ⟨motion true delta, .deltaX delta, signed7_motion true h⟩

end ReplyByte

/-! ## The transceiver -/

inductive Transfer where
  | none
  | hostToController
  | controllerToHost
  | autoPollCommand
  deriving DecidableEq, Repr

structure AdbTransceiver where
  response : List ReplyByte := []
  state : UInt8 := 3
  command : UInt8 := 0
  transferCycles : Int := 0
  retryCycles : Int := 0
  deferredTalkCycles : Int := 0
  responseDelayCycles : Int := 0
  commandPending : Bool := false
  autoPollRequested : Bool := false
  transferStatus : Bool := false
  retryPending : Bool := false
  deferredTalkPending : Bool := false
  talkTimedOut : Bool := false
  errorReportPending : Bool := false
  latchedHostByte : UInt8 := 0
  latchedControllerByte : ReplyByte := .plain 0xff
  lastTransferredState : UInt8 := 3
  transfer : Transfer := .none
  listenAddress : UInt8 := 0
  listenBytes : List UInt8 := []
  keyboardAddress : UInt8 := 2
  mouseAddress : UInt8 := 3
  keyboardHandler : UInt8 := 0x22
  mouseHandler : UInt8 := 0x23
  keyEvents : List UInt8 := []
  mouseButtonEvents : List Bool := []
  mouseDx : Int := 0
  mouseDy : Int := 0
  mouseButton : Bool := false
  keyboardPolled : Bool := false
  mousePolled : Bool := false
  /-- the bytes that the guest got through `m_receiveByte`, and the input queued so far,
      which no function reads -/
  received : List ReplyByte := []
  queuedKeys : List UInt8 := []
  queuedDx : Int := 0
  queuedDy : Int := 0

/-- The parts of a command byte. -/
def addressOf (command : UInt8) : UInt8 := command >>> 4
def operationOf (command : UInt8) : UInt8 := (command >>> 2) &&& 3
def registerOf (command : UInt8) : UInt8 := command &&& 3

/-- `std::clamp` -/
def clamp (value low high : Int) : Int := max low (min value high)

namespace AdbTransceiver

/-! ## Preparing a reply -/

/-- TALK keyboard register 0: up to two key transitions. -/
def talkKeyboard (s : AdbTransceiver) : AdbTransceiver :=
  match s.keyEvents with
  | [] =>
    if s.keyboardPolled then s
    else
      { s with
        response := [.plain 0xff, .plain 0xff]
        keyboardPolled := true }
  | [first] =>
    { s with
      keyEvents := []
      response := [.key first, .plain 0xff]
      keyboardPolled := true }
  | first :: second :: rest =>
    { s with
      keyEvents := rest
      response := [.key first, .key second]
      keyboardPolled := true }

/-- TALK mouse register 0: the button and up to six bits of motion each way. -/
def talkMouse (s : AdbTransceiver) : AdbTransceiver :=
  if s.mouseDx ≠ 0 ∨ s.mouseDy ≠ 0 ∨ s.mouseButtonEvents ≠ [] ∨ s.mousePolled = false then
    let reportedButton := s.mouseButtonEvents.headD s.mouseButton
    { s with
      mouseDx := s.mouseDx - clamp s.mouseDx (-64) 63
      mouseDy := s.mouseDy - clamp s.mouseDy (-64) 63
      mouseButtonEvents := s.mouseButtonEvents.tail
      response :=
        [.deltaY (!reportedButton) (clamp s.mouseDy (-64) 63) (by unfold clamp; omega),
          .deltaX (clamp s.mouseDx (-64) 63) (by unfold clamp; omega)]
      mousePolled := true }
  else s

/-- The reply of a device to TALK; none leaves the response as it is. -/
def talk (s : AdbTransceiver) (address reg : UInt8) : AdbTransceiver :=
  if reg = 3 ∧ address = s.keyboardAddress then
    { s with response := [.plain s.keyboardHandler, .plain 0x01] }
  else if reg = 3 ∧ address = s.mouseAddress then
    { s with response := [.plain s.mouseHandler, .plain 0x01] }
  else if reg = 0 ∧ address = s.keyboardAddress then s.talkKeyboard
  else if reg = 0 ∧ address = s.mouseAddress then s.talkMouse
  else s

/-- The reply that the PIC makes up when no device answers. -/
def timeOut (s : AdbTransceiver) : AdbTransceiver :=
  if s.response.isEmpty then
    { s with
      response := [.plain 0xff, .plain 0xff]
      talkTimedOut := true
      errorReportPending := true }
  else s

def sendReset (s : AdbTransceiver) : AdbTransceiver :=
  { s with
    listenAddress := 0
    listenBytes := []
    keyboardAddress := 2
    mouseAddress := 3
    keyboardHandler := 0x22
    mouseHandler := 0x23
    keyboardPolled := false
    mousePolled := false }

def flush (s : AdbTransceiver) (address : UInt8) : AdbTransceiver :=
  let s := if address = s.keyboardAddress then { s with keyEvents := [] } else s
  if address = s.mouseAddress then
    { s with
      mouseDx := 0
      mouseDy := 0
      mouseButtonEvents := [] }
  else s

def prepareResponse (s : AdbTransceiver) (command : UInt8) : AdbTransceiver :=
  let s := { s with
    response := []
    talkTimedOut := false
    errorReportPending := false }
  if command &&& 0x0f = 0 then s.sendReset
  else if operationOf command = 1 then s.flush (addressOf command)
  else if operationOf command = 2 ∧ registerOf command = 3 ∧
      (addressOf command = s.keyboardAddress ∨ addressOf command = s.mouseAddress) then
    { s with
      listenAddress := addressOf command
      listenBytes := [] }
  else if operationOf command ≠ 3 then s
  else (s.talk (addressOf command) (registerOf command)).timeOut

/-- The handler and address that LISTEN register 3 sets. -/
def listened (handler address value mode : UInt8) : UInt8 × UInt8 :=
  let handler := if mode = 0x00 then value &&& 0x7f else handler
  if mode = 0x00 ∨ mode = 0xfe then ((handler &&& 0xf0) ||| (value &&& 0x0f), value &&& 0x0f)
  else (handler, address)

def completeListen (s : AdbTransceiver) : AdbTransceiver :=
  let value := s.listenBytes.getD 0 0
  let mode := s.listenBytes.getD 1 0
  let s :=
    if s.listenAddress = s.keyboardAddress then
      { s with
        keyboardHandler := (listened s.keyboardHandler s.keyboardAddress value mode).1
        keyboardAddress := (listened s.keyboardHandler s.keyboardAddress value mode).2 }
    else if s.listenAddress = s.mouseAddress then
      { s with
        mouseHandler := (listened s.mouseHandler s.mouseAddress value mode).1
        mouseAddress := (listened s.mouseHandler s.mouseAddress value mode).2 }
    else s
  { s with
    listenAddress := 0
    listenBytes := [] }

/-! ## Transfers -/

def startHostTransfer (s : AdbTransceiver) (value : UInt8) : AdbTransceiver :=
  { s with
    latchedHostByte := value
    transfer := .hostToController
    transferCycles := viaByteCycles
    retryCycles := 0
    retryPending := false }

def startControllerTransfer (s : AdbTransceiver) (value : ReplyByte) (status : Bool)
    (kind : Transfer) : AdbTransceiver :=
  { s with
    latchedControllerByte := value
    transferStatus := status
    lastTransferredState := s.state
    transfer := kind
    transferCycles := viaByteCycles
    retryCycles := 0
    retryPending := false }

def requestAutoPoll (s : AdbTransceiver) : AdbTransceiver :=
  let s := { s with autoPollRequested := true }
  if s.state ≠ 3 ∨ s.transferCycles ≠ 0 ∨ s.commandPending = true ∨ operationOf s.command ≠ 3 then s
  else
    let s := s.prepareResponse s.command
    if s.talkTimedOut then
      { s with
        response := []
        errorReportPending := false }
    else
      startControllerTransfer
        { s with
          autoPollRequested := s.keyEvents ≠ [] ∨ s.mouseButtonEvents ≠ [] ∨ s.mouseDx ≠ 0 ∨
            s.mouseDy ≠ 0 }
        (.plain s.command) true .autoPollCommand

def transferByte (s : AdbTransceiver) : AdbTransceiver :=
  match s.response with
  | [] =>
    startControllerTransfer { s with errorReportPending := false } (.plain 0xff) true
      .controllerToHost
  | value :: rest =>
    startControllerTransfer
      { s with
        response := rest
        errorReportPending := false }
      value s.errorReportPending .controllerToHost

def scheduleForState (s : AdbTransceiver) : AdbTransceiver :=
  if s.transferCycles ≠ 0 then s
  else if s.commandPending = true ∧ (s.state = 0 ∨ s.listenAddress ≠ 0) then
    s.startHostTransfer s.latchedHostByte
  else if s.listenAddress ≠ 0 then s
  else if (s.state = 1 ∨ s.state = 2) ∧ operationOf s.command ≠ 2 ∧ s.responseDelayCycles = 0 then
    s.transferByte
  else if s.state = 3 ∧ s.autoPollRequested = true then s.requestAutoPoll
  else s

/-- A byte from the host that is no command: data of a LISTEN. -/
def acceptListenByte (s : AdbTransceiver) : AdbTransceiver :=
  let s := { s with listenBytes := s.listenBytes ++ [s.latchedHostByte] }
  if s.listenBytes.length = 2 then s.completeListen else s

/-- A byte from the host that is a command. -/
def acceptCommand (s : AdbTransceiver) : AdbTransceiver :=
  let s := { s with command := s.latchedHostByte }
  let s := s.prepareResponse s.command
  let s := { s with deferredTalkPending := operationOf s.command = 3 }
  if s.listenAddress = 0 then { s with responseDelayCycles := adbTransactionCycles } else s

/-- The guest gets the latched byte.  Once it is there it carries nothing: the PIC may
    send the same byte again. -/
def deliver (s : AdbTransceiver) : AdbTransceiver :=
  { s with
    received := s.received ++ [s.latchedControllerByte]
    latchedControllerByte := .plain s.latchedControllerByte.value
    retryPending := true
    retryCycles := stableStateRetryCycles }

def finishTransfer (s : AdbTransceiver) : AdbTransceiver :=
  let completed := s.transfer
  let s := { s with transfer := .none }
  if completed = .hostToController then
    let s := { s with commandPending := false }
    if s.listenAddress ≠ 0 then s.acceptListenByte.scheduleForState
    else s.acceptCommand.scheduleForState
  else s.deliver

/-! ## The guest and the clock -/

def setViaState (s : AdbTransceiver) (state : UInt8) : AdbTransceiver :=
  let state := state &&& 3
  if state = s.state then s
  else
    let s := { s with
      retryCycles := 0
      retryPending := false
      state := state }
    if state = 1 ∨ state = 2 then
      scheduleForState
        { s with
          deferredTalkPending := false
          deferredTalkCycles := 0 }
    else if state = 3 ∧ s.deferredTalkPending = true ∧ s.deferredTalkCycles = 0 then
      scheduleForState
        { s with
          responseDelayCycles := 0
          deferredTalkCycles := stableStateRetryCycles + adbTransactionCycles }
    else s.scheduleForState

def shiftRegisterWritten (s : AdbTransceiver) (value : UInt8) : AdbTransceiver :=
  let s := { s with
    latchedHostByte := value
    commandPending := true }
  if s.transferCycles = 0 ∧ (s.state = 0 ∨ s.listenAddress ≠ 0) then s.startHostTransfer value
  else s

def tick (s : AdbTransceiver) (cycles : Int) : AdbTransceiver :=
  if cycles ≤ 0 then s
  else if 0 < s.transferCycles then
    if s.transferCycles - cycles ≤ 0 then finishTransfer { s with transferCycles := 0 }
    else { s with transferCycles := s.transferCycles - cycles }
  else if 0 < s.retryCycles then
    if s.retryCycles - cycles ≤ 0 then
      let s := { s with retryCycles := 0 }
      if s.retryPending = true ∧ s.state = s.lastTransferredState then
        s.startControllerTransfer s.latchedControllerByte s.transferStatus .controllerToHost
      else s
    else { s with retryCycles := s.retryCycles - cycles }
  else if 0 < s.responseDelayCycles then
    if s.responseDelayCycles - cycles ≤ 0 then
      scheduleForState { s with responseDelayCycles := 0 }
    else { s with responseDelayCycles := s.responseDelayCycles - cycles }
  else if 0 < s.deferredTalkCycles then
    if s.deferredTalkCycles - cycles ≤ 0 then
      let s := { s with deferredTalkCycles := 0 }
      if s.deferredTalkPending = true ∧ s.state = 3 then
        startControllerTransfer { s with deferredTalkPending := false } (.plain s.command) true
          .autoPollCommand
      else s
    else { s with deferredTalkCycles := s.deferredTalkCycles - cycles }
  else if s.state = 3 ∧ s.autoPollRequested = true then s.requestAutoPoll
  else s

/-! ## The host -/

def queueKey (s : AdbTransceiver) (keyCode : UInt8) (pressed : Bool) : AdbTransceiver :=
  let event := (keyCode &&& 0x7f) ||| (if pressed then 0 else 0x80)
  requestAutoPoll
    { s with
      keyEvents := s.keyEvents ++ [event]
      keyboardPolled := false
      queuedKeys := s.queuedKeys ++ [event] }

def moveMouse (s : AdbTransceiver) (dx dy : Int) : AdbTransceiver :=
  let s := { s with
    mouseDx := clamp (s.mouseDx + dx) (-4096) 4096
    mouseDy := clamp (s.mouseDy + dy) (-4096) 4096
    queuedDx := s.queuedDx + dx
    queuedDy := s.queuedDy + dy }
  if dx ≠ 0 ∨ dy ≠ 0 then s.requestAutoPoll else s

def setMouseButton (s : AdbTransceiver) (pressed : Bool) : AdbTransceiver :=
  if s.mouseButton = pressed then s
  else
    requestAutoPoll
      { s with
        mouseButton := pressed
        mouseButtonEvents := s.mouseButtonEvents ++ [pressed]
        mousePolled := false }

/-- What happens to the transceiver. -/
inductive Input where
  | queueKey (keyCode : UInt8) (pressed : Bool)
  | moveMouse (dx dy : Int)
  | setMouseButton (pressed : Bool)
  | setViaState (state : UInt8)
  | shiftRegisterWritten (value : UInt8)
  | tick (cycles : Int)
  deriving DecidableEq, Repr

def apply (s : AdbTransceiver) : Input → AdbTransceiver
  | .queueKey keyCode pressed => s.queueKey keyCode pressed
  | .moveMouse dx dy => s.moveMouse dx dy
  | .setMouseButton pressed => s.setMouseButton pressed
  | .setViaState state => s.setViaState state
  | .shiftRegisterWritten value => s.shiftRegisterWritten value
  | .tick cycles => s.tick cycles

end AdbTransceiver

end CuteMac.Adb
