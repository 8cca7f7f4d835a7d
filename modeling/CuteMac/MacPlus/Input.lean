/-
  The input of the Macintosh Plus (`MacPlusMachine.cpp`).

  * `GuestInputEvent`: what the host queues;
  * `MacPlusMachine`: the adapter, the low memory, the mouse and the scheduler;
  * `queueInput`, `applyInput`, `stepInstruction`, `reset`.

  An instruction is the list of what it does to the adapter and the memory, and
  the cycles that it took.  The data line of the clock chip reaches the adapter
  through the callback of port B; it is what an instruction or a reset leaves.
-/
import CuteMac.Lib.Machine
import CuteMac.Core.MachineScheduler
import CuteMac.Via.Slices

namespace CuteMac.MacPlus

open CuteMac.Core CuteMac.Via

def lowMemoryMbState : UInt32 := 0x000172
def lowMemoryKeyMap : UInt32 := 0x000174
def lowMemoryMTemp : UInt32 := 0x000828
def lowMemoryRawMouse : UInt32 := 0x00082c
def lowMemoryMouse : UInt32 := 0x000830
def lowMemoryCrsrNew : UInt32 := 0x0008ce
def lowMemoryCrsrCouple : UInt32 := 0x0008cf
def inputDebounceCycles : UInt64 := 130560

inductive GuestInputEvent.Kind where
  | mousePosition
  | mouseDelta
  | mouseButton
  | key
  | resetKeyboard
  deriving DecidableEq, Repr

structure GuestInputEvent where
  type : GuestInputEvent.Kind
  first : Int32 := 0
  second : Int32 := 0
  pressed : Bool := false
  deriving DecidableEq, Repr

/-- The state of the button that a button event carries. -/
def GuestInputEvent.button (event : GuestInputEvent) : Option Bool :=
  if event.type = .mouseButton then some event.pressed else none

/-- The button was set at `deliveredAt`, by an event for `cycle`. -/
structure Delivery where
  cycle : UInt64
  pressed : Bool
  deliveredAt : UInt64

structure MacPlusMachine where
  via : Via6522 := {}
  ram : UInt32 → UInt8 := fun _ => 0
  mouseX : Int16 := 15
  mouseY : Int16 := 15
  mouseButtonPressed : Bool := false
  scheduler : MachineScheduler GuestInputEvent := {}
  lastMouseButtonCycle : UInt64 := 0
  queuedMouseButtonPressed : Bool := false
  /-- the last button event that the host queued, the button at the last reset and its
      settings since, which no function reads -/
  lastQueuedButton : Bool := false
  buttonAtReset : Bool := false
  deliveries : List Delivery := []

namespace MacPlusMachine

/-! ## Low memory -/

def writeRam8Direct (m : MacPlusMachine) (address : UInt32) (value : UInt8) : MacPlusMachine :=
  { m with ram := fun a => if a = address then value else m.ram a }

def writeRam16Direct (m : MacPlusMachine) (address : UInt32) (value : UInt16) : MacPlusMachine :=
  (m.writeRam8Direct address (highByte value)).writeRam8Direct (address + 1) (lowByte value)

def writeRam32Direct (m : MacPlusMachine) (address value : UInt32) : MacPlusMachine :=
  (m.writeRam16Direct address (value >>> 16).toUInt16).writeRam16Direct (address + 2)
    value.toUInt16

def readRam16Direct (m : MacPlusMachine) (address : UInt32) : UInt16 :=
  ((m.ram address).toUInt16 <<< 8) ||| (m.ram (address + 1)).toUInt16

/-- The position as it stands in low memory. -/
def packed (m : MacPlusMachine) : UInt32 :=
  (m.mouseY.toUInt16.toUInt32 <<< 16) ||| m.mouseX.toUInt16.toUInt32

/-! ## The mouse and the keyboard -/

def setMousePosition (m : MacPlusMachine) (x y : Int16) : MacPlusMachine :=
  let m := { m with mouseX := max 0 (min x 511), mouseY := max 0 (min y 341) }
  ((m.writeRam32Direct lowMemoryMTemp m.packed).writeRam8Direct lowMemoryCrsrCouple
    0xff).writeRam8Direct lowMemoryCrsrNew 0xff

def moveMouse (m : MacPlusMachine) (dx dy : Int16) : MacPlusMachine :=
  let currentY := (m.readRam16Direct lowMemoryMTemp).toInt16
  let currentX := (m.readRam16Direct (lowMemoryMTemp + 2)).toInt16
  m.setMousePosition (currentX + dx) (currentY + dy)

def setMouseButton (m : MacPlusMachine) (pressed : Bool) : MacPlusMachine :=
  { m with mouseButtonPressed := pressed, via := m.via.setPortBInputBit 3 !pressed }

def setKeyState (m : MacPlusMachine) (macKeyCode : UInt8) (pressed : Bool) : MacPlusMachine :=
  { m with via := m.via.queueKeyboardTransition macKeyCode pressed }

def resetKeyboard (m : MacPlusMachine) : MacPlusMachine :=
  (List.range 18).foldl (fun m i => m.writeRam8Direct (lowMemoryKeyMap + UInt32.ofNat i) 0) m

def synchronizeMouseLowMemory (m : MacPlusMachine) : MacPlusMachine :=
  let packed := m.packed
  let m := m.writeRam32Direct lowMemoryMTemp packed
  let m := m.writeRam32Direct lowMemoryRawMouse packed
  let m := m.writeRam32Direct lowMemoryMouse packed
  let m := m.writeRam8Direct lowMemoryCrsrCouple 0xff
  let m := m.writeRam8Direct lowMemoryCrsrNew 0xff
  let m := { m with via := m.via.setPortBInputBit 3 !m.mouseButtonPressed }
  m.writeRam8Direct lowMemoryMbState (if m.mouseButtonPressed then 0x00 else 0x80)

def applyInput (m : MacPlusMachine) (event : GuestInputEvent) : MacPlusMachine :=
  match event.type with
  | .mousePosition => m.setMousePosition event.first.toInt16 event.second.toInt16
  | .mouseDelta => m.moveMouse event.first.toInt16 event.second.toInt16
  | .mouseButton => m.setMouseButton event.pressed
  | .key => m.setKeyState event.first.toUInt32.toUInt8 event.pressed
  | .resetKeyboard => m.resetKeyboard

/-! ## The scheduler -/

/-- A button event like the last one is dropped; others keep their distance to it. -/
def queueInput (m : MacPlusMachine) (event : GuestInputEvent) (cycle : UInt64) : MacPlusMachine :=
  let deliveryCycle := max cycle m.scheduler.now
  if event.type = .mouseButton then
    let m := { m with lastQueuedButton := event.pressed }
    if event.pressed = m.queuedMouseButtonPressed then m
    else
      let deliveryCycle := max deliveryCycle (m.lastMouseButtonCycle + inputDebounceCycles)
      { m with
        queuedMouseButtonPressed := event.pressed
        lastMouseButtonCycle := deliveryCycle
        scheduler := m.scheduler.schedule deliveryCycle event }
  else { m with scheduler := m.scheduler.schedule deliveryCycle event }

/-- An event that is due is applied, and a setting of the button noted. -/
def dispatch (m : MacPlusMachine) (event : Event GuestInputEvent) : MacPlusMachine :=
  let m' := m.applyInput event.callback
  match event.callback.button with
  | some pressed =>
    { m' with deliveries := m.deliveries ++ [⟨event.cycle, pressed, m.scheduler.now⟩] }
  | none => m'

/-- No event schedules another one. -/
def dispatchDue (m : MacPlusMachine) : MacPlusMachine :=
  m.scheduler.due.foldl dispatch { m with scheduler := m.scheduler.dispatchDue }

/-! ## Instructions -/

/-- What an instruction does to the adapter and the memory. -/
inductive Access where
  | readVia (index : UInt8)
  | writeVia (index value : UInt8)
  | dataLine (high : Bool)
  | writeRam (address : UInt32) (value : UInt8)
  deriving DecidableEq, Repr

def access (m : MacPlusMachine) : Access → MacPlusMachine
  | .readVia index => { m with via := (m.via.readRegister index).2 }
  | .writeVia index value => { m with via := m.via.writeRegister index value }
  | .dataLine high => { m with via := m.via.setPortBInputBit 0 high }
  | .writeRam address value => m.writeRam8Direct address value

def stepInstruction (m : MacPlusMachine) (accesses : List Access) (cycles : Int) :
    MacPlusMachine :=
  let elapsed := max 1 cycles
  let m := accesses.foldl access m.dispatchDue
  let m := { m with via := m.via.tick elapsed }
  dispatchDue { m with scheduler := m.scheduler.pass (UInt64.ofInt elapsed) }

/-- The button and its input line outlive a reset, the record of what was queued does not. -/
def reset (m : MacPlusMachine) (dataLine : Bool) : MacPlusMachine :=
  let m := { m with ram := fun _ => 0, via := m.via.reset.setPortBInputBit 0 dataLine }
  let m :=
    { m with
      scheduler := {}
      lastMouseButtonCycle := 0
      queuedMouseButtonPressed := false
      buttonAtReset := m.mouseButtonPressed
      deliveries := [] }
  m.synchronizeMouseLowMemory

inductive Op where
  | queueInput (event : GuestInputEvent) (cycle : UInt64)
  | stepInstruction (accesses : List Access) (cycles : Int)
  | reset (dataLine : Bool)

def step (m : MacPlusMachine) : Op → MacPlusMachine
  | .queueInput event cycle => m.queueInput event cycle
  | .stepInstruction accesses cycles => m.stepInstruction accesses cycles
  | .reset dataLine => m.reset dataLine

end MacPlusMachine

end CuteMac.MacPlus
