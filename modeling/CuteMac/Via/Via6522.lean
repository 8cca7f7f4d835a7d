/-
  The versatile interface adapter (`Via6522.cpp`).

  * `AutomaticCa1`, `Timer1`, `Timer2`, `Keyboard`: the counters, each with the
    registers that belong to it;
  * `readRegister`, `writeRegister`: the guest's side;
  * `tick`: the clock;
  * `queueKeyboardTransition`, `setCa1`, … : the lines and the host.

  A callback is a flag that says whether it is installed and a log of the calls
  made to it.  The registers 1 and 14 hold nothing: their values are kept under
  `registerA` and `interruptEnable`.
-/
import CuteMac.Lib.Countdown
import Mathlib.Data.List.Basic

namespace CuteMac.Via

open Countdown

def overlayBit : UInt8 := 0x10
def vblInterruptBit : UInt8 := 0x02
def cb1InterruptBit : UInt8 := 0x10
def cb2InterruptBit : UInt8 := 0x08
def timer1InterruptBit : UInt8 := 0x40
def timer2InterruptBit : UInt8 := 0x20
def shiftRegisterInterruptBit : UInt8 := 0x04
def keyboardByteCycles : Int := 80
def keyboardInquiryTimeoutCycles : Int := 1958400

inductive Register where
  | registerB
  | registerAHandshake
  | dataDirectionB
  | dataDirectionA
  | timer1CounterLow
  | timer1CounterHigh
  | timer1LatchLow
  | timer1LatchHigh
  | timer2CounterLow
  | timer2CounterHigh
  | shiftRegister
  | auxiliaryControl
  | peripheralControl
  | interruptFlag
  | interruptEnable
  | registerA
  deriving DecidableEq, Repr

/-- The register behind an index, of which the low four bits count. -/
def register (index : UInt8) : Register :=
  match (index &&& 0x0f).toNat with
  | 0 => .registerB
  | 1 => .registerAHandshake
  | 2 => .dataDirectionB
  | 3 => .dataDirectionA
  | 4 => .timer1CounterLow
  | 5 => .timer1CounterHigh
  | 6 => .timer1LatchLow
  | 7 => .timer1LatchHigh
  | 8 => .timer2CounterLow
  | 9 => .timer2CounterHigh
  | 10 => .shiftRegister
  | 11 => .auxiliaryControl
  | 12 => .peripheralControl
  | 13 => .interruptFlag
  | 14 => .interruptEnable
  | _ => .registerA

/-- The two bytes of a counter, as `static_cast<std::uint8_t>` makes them. -/
def lowByte (value : UInt16) : UInt8 := value.toUInt8
def highByte (value : UInt16) : UInt8 := (value >>> 8).toUInt8

/-! ## The counters -/

/-- The vertical blanking line, when the adapter makes it itself. -/
structure AutomaticCa1 where
  period : Nat := 130560
  vblCycles : Int := 0
  deriving DecidableEq, Repr

namespace AutomaticCa1

/-- The counter after `cycles`, and the flags that it raises. -/
def tick (c : AutomaticCa1) (cycles : Int) : AutomaticCa1 × UInt8 :=
  if h : 0 < c.period then
    let counter := rearm ⟨c.period, h⟩ (c.vblCycles - cycles)
    ({ c with vblCycles := counter.1 }, if 0 < counter.2 then vblInterruptBit else 0)
  else (c, 0)

end AutomaticCa1

structure Timer1 where
  counterLow : UInt8 := 0
  counterHigh : UInt8 := 0
  latchLow : UInt8 := 0
  latchHigh : UInt8 := 0
  counter : Int := 0
  latch : UInt16 := 0
  freeCounter : UInt16 := 0xffff
  running : Bool := false
  pb7 : Bool := false
  deriving DecidableEq, Repr

namespace Timer1

/-- What the counter starts from: a latch of 0 stands for 0x10000. -/
def reload (t : Timer1) : { n : Nat // 0 < n } :=
  if h : t.latch = 0 then ⟨0x10000, by decide⟩
  else ⟨t.latch.toNat, Nat.pos_of_ne_zero fun h0 => h (UInt16.toNat_inj.1 h0)⟩

/-- The counter registers show the counter. -/
def showCounter (t : Timer1) : Timer1 :=
  let counter := UInt16.ofInt (max 0 t.counter)
  { t with counterLow := lowByte counter, counterHigh := highByte counter }

def setLatchLow (t : Timer1) (value : UInt8) : Timer1 :=
  { t with latch := (t.latch &&& 0xff00) ||| value.toUInt16 }

def setLatchHigh (t : Timer1) (value : UInt8) : Timer1 :=
  { t with latch := (value.toUInt16 <<< 8) ||| (t.latch &&& 0x00ff) }

def start (t : Timer1) : Timer1 :=
  { t with counter := t.reload.val, running := true }

/-- The values of the counter registers for a reader. -/
def readLow (t : Timer1) : UInt8 := if !t.running then lowByte t.freeCounter else t.counterLow
def readHigh (t : Timer1) : UInt8 := if !t.running then highByte t.freeCounter else t.counterHigh

/-- A counter that reached 0 is reloaded, and toggles PB7 each time, or stops. -/
def expire (t : Timer1) (auxiliaryControl : UInt8) : Timer1 × Bool :=
  if auxiliaryControl &&& 0x40 ≠ 0 then
    let counter := rearm t.reload t.counter
    let toggled := auxiliaryControl &&& 0x80 != 0 && counter.2 % 2 == 1
    ({ t with counter := counter.1, pb7 := t.pb7 ^^ toggled }, toggled)
  else
    let driven := auxiliaryControl &&& 0x80 != 0
    ({ t with counter := 0, running := false, pb7 := t.pb7 || driven }, driven)

/-- The timer after `cycles`, the flags that it raises, and whether it drove PB7. -/
def tick (t : Timer1) (auxiliaryControl : UInt8) (cycles : Int) : Timer1 × UInt8 × Bool :=
  if t.running then
    let t := { t with counter := t.counter - cycles }
    if t.counter ≤ 0 then
      let expired := t.expire auxiliaryControl
      (expired.1.showCounter, timer1InterruptBit, expired.2)
    else (t.showCounter, 0, false)
  else ({ t with freeCounter := t.freeCounter - UInt16.ofInt cycles }, 0, false)

end Timer1

structure Timer2 where
  counterLow : UInt8 := 0
  counterHigh : UInt8 := 0
  counter : Int := 0
  freeCounter : UInt16 := 0xffff
  running : Bool := false
  deriving DecidableEq, Repr

namespace Timer2

def start (t : Timer2) : Timer2 :=
  { t with
    counter := ((t.counterHigh.toUInt16 <<< 8) ||| t.counterLow.toUInt16).toNat
    running := true }

/-- A stopped timer that does not count pulses shows its free-running counter. -/
def readLow (t : Timer2) (auxiliaryControl : UInt8) : UInt8 :=
  if !t.running && auxiliaryControl &&& 0x20 == 0 then lowByte t.freeCounter else t.counterLow

def readHigh (t : Timer2) (auxiliaryControl : UInt8) : UInt8 :=
  if !t.running && auxiliaryControl &&& 0x20 == 0 then highByte t.freeCounter else t.counterHigh

/-- The timer after `cycles`, and the flags that it raises. -/
def tick (t : Timer2) (auxiliaryControl : UInt8) (cycles : Int) : Timer2 × UInt8 :=
  if t.running then
    let counter := t.counter - cycles
    if 0 < counter then
      ({ t with
          counter := counter
          counterLow := lowByte (UInt16.ofInt counter)
          counterHigh := highByte (UInt16.ofInt counter) }, 0)
    else
      ({ t with counter := 0, running := false, counterLow := 0, counterHigh := 0 },
        timer2InterruptBit)
  else if auxiliaryControl &&& 0x20 = 0 then
    ({ t with freeCounter := t.freeCounter - UInt16.ofInt cycles }, 0)
  else (t, 0)

end Timer2

/-- The shift register and the keyboard behind it. -/
structure Keyboard where
  shiftRegister : UInt8 := 0
  transitions : List UInt8 := []
  command : UInt8 := 0
  shiftCycles : Int := 0
  commandPending : Bool := false
  responseReady : Bool := false
  deriving DecidableEq, Repr

namespace Keyboard

/-- A read of the shift register ends a response, or starts the reception of one. -/
def read (k : Keyboard) (auxiliaryControl : UInt8) : Keyboard :=
  if k.responseReady then { k with responseReady := false, commandPending := false }
  else if k.commandPending && auxiliaryControl &&& 0x10 == 0 && k.shiftCycles == 0 then
    { k with
      shiftCycles :=
        if k.command = 0x10 ∧ k.transitions.isEmpty then keyboardInquiryTimeoutCycles
        else keyboardByteCycles }
  else k

/-- A command byte goes out to the keyboard. -/
def write (k : Keyboard) (value : UInt8) : Keyboard :=
  { k with
    command := value
    commandPending := true
    responseReady := false
    shiftCycles := keyboardByteCycles }

/-- The byte that the keyboard answers with when a reception ends. -/
def respond (k : Keyboard) : Keyboard :=
  if k.command = 0x16 then { k with shiftRegister := 0x03, responseReady := true }
  else
    match k.transitions with
    | transition :: transitions =>
      { k with shiftRegister := transition, transitions := transitions, responseReady := true }
    | [] => { k with shiftRegister := 0x7b, responseReady := true }

/-- The last bit is through: a reception leaves the keyboard's answer. -/
def finish (k : Keyboard) (auxiliaryControl : UInt8) : Keyboard :=
  let k := { k with shiftCycles := 0 }
  if auxiliaryControl &&& 0x10 == 0 && k.commandPending then k.respond else k

/-- The shift register after `cycles`, and the flags that it raises. -/
def tick (k : Keyboard) (auxiliaryControl : UInt8) (cycles : Int) : Keyboard × UInt8 :=
  if 0 < k.shiftCycles then
    let k := { k with shiftCycles := k.shiftCycles - cycles }
    if k.shiftCycles ≤ 0 then (k.finish auxiliaryControl, shiftRegisterInterruptBit)
    else (k, 0)
  else (k, 0)

/-- The byte for a key that goes down or up. -/
def encode (keyCode : UInt8) (pressed : Bool) : UInt8 :=
  ((keyCode &&& 0x3f) <<< 1) ||| (if pressed then 0x00 else 0x80)

/-- A transition ends the wait of an inquiry that is under way. -/
def queueTransition (k : Keyboard) (auxiliaryControl : UInt8) (keyCode : UInt8) (pressed : Bool) :
    Keyboard :=
  let k := { k with transitions := k.transitions ++ [encode keyCode pressed] }
  if k.commandPending && k.command == 0x10 && !k.responseReady && auxiliaryControl &&& 0x10 == 0
  then { k with shiftCycles := keyboardByteCycles }
  else k

variable {k : Keyboard} {acr : UInt8} {cycles : Int}

theorem tick_idle (h : k.shiftCycles ≤ 0) : k.tick acr cycles = (k, 0) := by
  rw [tick, if_neg (by omega)]

theorem tick_counting (h : 0 < k.shiftCycles) (hc : cycles < k.shiftCycles) :
    k.tick acr cycles = ({ k with shiftCycles := k.shiftCycles - cycles }, 0) := by
  rw [tick, if_pos h]
  simp only [if_neg (show ¬ k.shiftCycles - cycles ≤ 0 by omega)]

theorem tick_finished (h : 0 < k.shiftCycles) (hc : k.shiftCycles ≤ cycles) :
    k.tick acr cycles = (k.finish acr, shiftRegisterInterruptBit) := by
  rw [tick, if_pos h]
  simp only [if_pos (show k.shiftCycles - cycles ≤ 0 by omega)]
  rfl

@[simp] theorem respond_shiftCycles : k.respond.shiftCycles = k.shiftCycles := by
  unfold respond; split
  · rfl
  · split <;> rfl

@[simp] theorem finish_shiftCycles : (k.finish acr).shiftCycles = 0 := by
  unfold finish
  simp only
  split
  · rw [respond_shiftCycles]
  · rfl

end Keyboard

/-! ## The adapter -/

/-- The callbacks that are installed. -/
structure Callbacks where
  portAChanged : Bool := false
  portBChanged : Bool := false
  shiftRegisterWrite : Bool := false
  shiftRegisterRead : Bool := false
  deriving DecidableEq, Repr

/-- A call of a callback. -/
inductive Call where
  | portAChanged (portA : UInt8)
  | portBChanged (portB dataDirectionB : UInt8)
  | shiftRegisterWrite (value : UInt8)
  | shiftRegisterRead
  deriving DecidableEq, Repr

structure Via6522 where
  registerB : UInt8 := 0
  registerA : UInt8 := 0
  dataDirectionB : UInt8 := 0
  dataDirectionA : UInt8 := 0
  auxiliaryControl : UInt8 := 0
  peripheralControl : UInt8 := 0
  interruptFlag : UInt8 := 0
  interruptEnable : UInt8 := 0
  initialPortA : UInt8 := 0x7b
  initialPortB : UInt8 := 0x8f
  initialDdrA : UInt8 := 0x7f
  initialDdrB : UInt8 := 0x87
  portAInputs : UInt8 := 0xff
  portBInputs : UInt8 := 0xff
  automaticCa1 : AutomaticCa1 := {}
  timer1 : Timer1 := {}
  timer2 : Timer2 := {}
  keyboard : Keyboard := {}
  ca1 : Bool := true
  cb1 : Bool := true
  cb2 : Bool := true
  callbacks : Callbacks := {}
  /-- the calls of the callbacks so far, which no function reads -/
  calls : List Call := []
  deriving DecidableEq, Repr

namespace Via6522

def portA (s : Via6522) : UInt8 :=
  (s.registerA &&& s.dataDirectionA) ||| (s.portAInputs &&& ~~~s.dataDirectionA)

/-- With ACR bit 7 set, timer 1 drives PB7. -/
def portB (s : Via6522) : UInt8 :=
  let outputs := s.registerB &&& s.dataDirectionB
  let outputs :=
    if s.auxiliaryControl &&& 0x80 ≠ 0 then
      if s.timer1.pb7 then outputs ||| 0x80 else outputs &&& ~~~0x80
    else outputs
  outputs ||| (s.portBInputs &&& ~~~s.dataDirectionB)

def call (s : Via6522) (installed : Bool) (c : Call) : Via6522 :=
  if installed then { s with calls := s.calls ++ [c] } else s

@[simp] theorem call_keyboard (s : Via6522) (installed : Bool) (c : Call) :
    (s.call installed c).keyboard = s.keyboard := by
  unfold call; split <;> rfl

@[simp] theorem call_callbacks (s : Via6522) (installed : Bool) (c : Call) :
    (s.call installed c).callbacks = s.callbacks := by
  unfold call; split <;> rfl

def notifyPortAChanged (s : Via6522) : Via6522 :=
  s.call s.callbacks.portAChanged (.portAChanged s.portA)

def callPortBChanged (s : Via6522) (portB : UInt8) : Via6522 :=
  s.call s.callbacks.portBChanged (.portBChanged portB s.dataDirectionB)

def raiseFlags (s : Via6522) (flags : UInt8) : Via6522 :=
  { s with interruptFlag := s.interruptFlag ||| flags }

def clearFlags (s : Via6522) (flags : UInt8) : Via6522 :=
  { s with interruptFlag := s.interruptFlag &&& ~~~flags }

/-- The input lines and what was set up before power-on outlive a reset. -/
def reset (s : Via6522) : Via6522 :=
  let s : Via6522 :=
    { registerA := s.initialPortA
      registerB := s.initialPortB
      dataDirectionA := s.initialDdrA
      dataDirectionB := s.initialDdrB
      initialPortA := s.initialPortA
      initialPortB := s.initialPortB
      initialDdrA := s.initialDdrA
      initialDdrB := s.initialDdrB
      portAInputs := s.portAInputs
      portBInputs := s.portBInputs
      automaticCa1 := { s.automaticCa1 with vblCycles := s.automaticCa1.period }
      callbacks := s.callbacks
      calls := s.calls }
  s.notifyPortAChanged.callPortBChanged s.registerB

def interruptFlagRegister (s : Via6522) : UInt8 :=
  if s.interruptFlag &&& s.interruptEnable = 0 then s.interruptFlag
  else s.interruptFlag ||| 0x80

def interruptActive (s : Via6522) : Bool := s.interruptFlag &&& s.interruptEnable != 0

def overlayEnabled (s : Via6522) : Bool := s.portA &&& overlayBit != 0

/-! ## The guest's side -/

def readRegister (s : Via6522) (index : UInt8) : UInt8 × Via6522 :=
  match register index with
  | .registerB =>
    let cb2Mode := (s.peripheralControl >>> 5) &&& 7
    let s := s.clearFlags cb1InterruptBit
    (s.portB, if cb2Mode ≠ 1 ∧ cb2Mode ≠ 3 then s.clearFlags cb2InterruptBit else s)
  | .registerAHandshake => (s.portA, s.clearFlags 0x03)
  | .registerA => (s.portA, s)
  | .shiftRegister =>
    let s' :=
      { s.clearFlags shiftRegisterInterruptBit with
        keyboard := s.keyboard.read s.auxiliaryControl }
    (s.keyboard.shiftRegister, s'.call s.callbacks.shiftRegisterRead .shiftRegisterRead)
  | .timer1CounterLow => (s.timer1.readLow, s.clearFlags timer1InterruptBit)
  | .timer1CounterHigh => (s.timer1.readHigh, s)
  | .timer2CounterLow =>
    (s.timer2.readLow s.auxiliaryControl, s.clearFlags timer2InterruptBit)
  | .timer2CounterHigh => (s.timer2.readHigh s.auxiliaryControl, s)
  | .interruptFlag => (s.interruptFlagRegister, s)
  | .interruptEnable => (0x80 ||| s.interruptEnable, s)
  | .dataDirectionB => (s.dataDirectionB, s)
  | .dataDirectionA => (s.dataDirectionA, s)
  | .timer1LatchLow => (s.timer1.latchLow, s)
  | .timer1LatchHigh => (s.timer1.latchHigh, s)
  | .auxiliaryControl => (s.auxiliaryControl, s)
  | .peripheralControl => (s.peripheralControl, s)

/-- A start of timer 1 drives PB7 low, where the timer drives it. -/
def startTimer1 (s : Via6522) : Via6522 :=
  let s := { s with timer1 := s.timer1.start }
  let s :=
    if s.auxiliaryControl &&& 0x80 ≠ 0 then
      let s := { s with timer1 := { s.timer1 with pb7 := false } }
      s.callPortBChanged s.portB
    else s
  s.clearFlags timer1InterruptBit

/-- A byte written to the shift register is a keyboard command, unless somebody else
    listens to it. -/
def writeShiftRegister (s : Via6522) (value : UInt8) : Via6522 :=
  let s := { s with keyboard := { s.keyboard with shiftRegister := value } }
  let s := s.clearFlags shiftRegisterInterruptBit
  let s :=
    if s.auxiliaryControl &&& 0x1c = 0x1c ∧ !s.callbacks.shiftRegisterWrite then
      { s with keyboard := s.keyboard.write value }
    else s
  if s.auxiliaryControl &&& 0x10 ≠ 0 then
    s.call s.callbacks.shiftRegisterWrite (.shiftRegisterWrite value)
  else s

def writeRegister (s : Via6522) (index value : UInt8) : Via6522 :=
  match register index with
  | .interruptFlag => s.clearFlags value
  | .interruptEnable =>
    if value &&& 0x80 ≠ 0 then
      { s with interruptEnable := s.interruptEnable ||| (value &&& 0x7f) }
    else { s with interruptEnable := s.interruptEnable &&& ~~~value }
  | .timer1CounterLow =>
    { s with timer1 := { s.timer1.setLatchLow value with counterLow := value } }
  | .timer1CounterHigh =>
    startTimer1 { s with timer1 := { s.timer1.setLatchHigh value with counterHigh := value } }
  | .timer1LatchLow =>
    { s with timer1 := { s.timer1.setLatchLow value with latchLow := value } }
  | .timer1LatchHigh =>
    { s with timer1 := { s.timer1.setLatchHigh value with latchHigh := value } }
  | .timer2CounterLow =>
    { s.clearFlags timer2InterruptBit with timer2 := { s.timer2 with counterLow := value } }
  | .shiftRegister => s.writeShiftRegister value
  | .timer2CounterHigh =>
    { s.clearFlags timer2InterruptBit with
      timer2 := { s.timer2 with counterHigh := value }.start }
  | .registerAHandshake | .registerA => notifyPortAChanged { s with registerA := value }
  | .dataDirectionA => notifyPortAChanged { s with dataDirectionA := value }
  | .registerB => callPortBChanged { s with registerB := value } value
  | .dataDirectionB => callPortBChanged { s with dataDirectionB := value } s.registerB
  | .auxiliaryControl => { s with auxiliaryControl := value }
  | .peripheralControl => { s with peripheralControl := value }

/-! ## The clock -/

def tickCa1 (s : Via6522) (cycles : Int) : Via6522 :=
  let ca1 := s.automaticCa1.tick cycles
  { s with automaticCa1 := ca1.1 }.raiseFlags ca1.2

def tickTimer1 (s : Via6522) (cycles : Int) : Via6522 :=
  let timer1 := s.timer1.tick s.auxiliaryControl cycles
  let s := { s with timer1 := timer1.1 }.raiseFlags timer1.2.1
  if timer1.2.2 then s.callPortBChanged s.portB else s

def tickTimer2 (s : Via6522) (cycles : Int) : Via6522 :=
  let timer2 := s.timer2.tick s.auxiliaryControl cycles
  { s with timer2 := timer2.1 }.raiseFlags timer2.2

def tickShiftRegister (s : Via6522) (cycles : Int) : Via6522 :=
  let keyboard := s.keyboard.tick s.auxiliaryControl cycles
  { s with keyboard := keyboard.1 }.raiseFlags keyboard.2

def tick (s : Via6522) (cycles : Int) : Via6522 :=
  if cycles ≤ 0 then s
  else (((s.tickCa1 cycles).tickTimer1 cycles).tickTimer2 cycles).tickShiftRegister cycles

/-! ## The lines and the host -/

def setAutomaticCa1Period (s : Via6522) (cycles : Int) : Via6522 :=
  { s with automaticCa1 := { period := cycles.toNat, vblCycles := max 0 cycles } }

def setPowerOnState (s : Via6522) (portA portB ddrA ddrB : UInt8) : Via6522 :=
  { s with initialPortA := portA, initialPortB := portB, initialDdrA := ddrA, initialDdrB := ddrB }

def setCa1 (s : Via6522) (high : Bool) : Via6522 :=
  { (if s.ca1 && !high then s.raiseFlags vblInterruptBit else s) with ca1 := high }

def setCb1 (s : Via6522) (high : Bool) : Via6522 :=
  { (if s.cb1 && !high then s.raiseFlags cb1InterruptBit else s) with cb1 := high }

def setCb2 (s : Via6522) (high : Bool) : Via6522 :=
  { (if s.cb2 && !high then s.raiseFlags cb2InterruptBit else s) with cb2 := high }

/-- `inputs` with one bit set or cleared; there are eight. -/
def setInputBit (inputs bit : UInt8) (high : Bool) : UInt8 :=
  if 8 ≤ bit then inputs
  else if high then inputs ||| (1 <<< bit) else inputs &&& ~~~(1 <<< bit)

def setPortAInputBit (s : Via6522) (bit : UInt8) (high : Bool) : Via6522 :=
  { s with portAInputs := setInputBit s.portAInputs bit high }

def setPortBInputBit (s : Via6522) (bit : UInt8) (high : Bool) : Via6522 :=
  { s with portBInputs := setInputBit s.portBInputs bit high }

def externalShiftIn (s : Via6522) (value : UInt8) : Via6522 :=
  { s with keyboard := { s.keyboard with shiftRegister := value } }.raiseFlags
    shiftRegisterInterruptBit

def externalShiftOutComplete (s : Via6522) : Via6522 := s.raiseFlags shiftRegisterInterruptBit

def queueKeyboardTransition (s : Via6522) (keyCode : UInt8) (pressed : Bool) : Via6522 :=
  { s with keyboard := s.keyboard.queueTransition s.auxiliaryControl keyCode pressed }

end Via6522

end CuteMac.Via
