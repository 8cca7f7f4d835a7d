/-
  The clock chip and its parameter RAM (`MacRtc.cpp`).

  * `ParameterRam`: the 256 bytes;
  * `MacRtc`: the chip, with the shift register behind its pins;
  * `accessRegister`, `receiveByte`: what a byte does;
  * `clockEdge`, `setPins`: the pins.

  The time of day is an input of a call.  `saved` are the images that were handed
  to the file, where there is one.
-/
import CuteMac.Lib.Machine
import CuteMac.Lib.ShiftRegister
import Mathlib.Data.Vector.Basic

namespace CuteMac.Rtc

open ShiftRegister

abbrev ParameterRam := Vector UInt8 256

def ParameterRam.read (ram : ParameterRam) (address : UInt8) : UInt8 :=
  ram.get ⟨address.toNat, address.toNat_lt⟩

def ParameterRam.write (ram : ParameterRam) (address value : UInt8) : ParameterRam :=
  ram.set address.toNat value address.toNat_lt

structure MacRtc where
  parameterRam : ParameterRam := Vector.replicate 256 0
  shift : UInt8 := 0
  command : UInt8 := 0
  sector : UInt8 := 0
  bits : Nat := 0
  mode : Nat := 0
  writeProtected : Bool := false
  enabled : Bool := false
  clockHigh : Bool := false
  outputActive : Bool := false
  dataLine : Bool := true
  saved : List ParameterRam := []

namespace MacRtc

def group1Base : UInt8 := 0x10
def group2Base : UInt8 := 0x08

def resetSerial (s : MacRtc) : MacRtc :=
  { s with
    shift := 0
    bits := 0
    mode := 0
    enabled := false
    clockHigh := false
    outputActive := false
    dataLine := true }

def saveNvram (s : MacRtc) : MacRtc := { s with saved := s.saved ++ [s.parameterRam] }

/-- A byte is written, unless the memory is write protected. -/
def store (s : MacRtc) (address value : UInt8) : MacRtc :=
  if s.writeProtected then s
  else saveNvram { s with parameterRam := s.parameterRam.write address value }

/-- The register that a command of one byte names. -/
def register (command : UInt8) : UInt8 := (command &&& 0x7c) >>> 2

def secondsByte (seconds : UInt32) (register : UInt8) : UInt8 :=
  (seconds >>> ((register &&& 3).toUInt32 * 8)).toUInt8

def accessRegister (s : MacRtc) (seconds : UInt32) (command value : UInt8) (write : Bool) :
    UInt8 × MacRtc :=
  let reg := register command
  if reg < 8 then (if write then value else secondsByte seconds reg, s)
  else if reg < 12 then
    let address := group2Base + (reg &&& 3)
    let s := if write then s.store address value else s
    (s.parameterRam.read address, s)
  else if reg < 16 then
    (0, if write ∧ reg = 13 then { s with writeProtected := value &&& 0x80 != 0 } else s)
  else
    let address := group1Base + (reg &&& 0x0f)
    let s := if write then s.store address value else s
    (s.parameterRam.read address, s)

/-- The address in a command of two bytes. -/
def sectorOf (command value : UInt8) : UInt8 :=
  ((command &&& 0x07) <<< 5) ||| ((value &&& 0x7c) >>> 2)

def receiveByte (s : MacRtc) (seconds : UInt32) (value : UInt8) : MacRtc :=
  if s.mode = 0 then
    if value &&& 0x78 = 0x38 then { s with command := value, mode := 2 }
    else if value &&& 0x80 ≠ 0 then
      let (byte, s) := s.accessRegister seconds value 0 false
      { s with shift := byte, outputActive := true }
    else { s with command := value, mode := 1 }
  else if s.mode = 1 then
    { (s.accessRegister seconds s.command value true).2 with mode := 0 }
  else if s.mode = 2 then
    let s := { s with sector := sectorOf s.command value }
    if s.command &&& 0x80 ≠ 0 then
      { s with shift := s.parameterRam.read s.sector, outputActive := true, mode := 0 }
    else { s with mode := 3 }
  else { s.store s.sector value with mode := 0 }

/-- The clock goes up: a bit goes out, or comes in. -/
def clockEdge (s : MacRtc) (seconds : UInt32) (dataHigh : Bool) : MacRtc :=
  if s.outputActive then
    let s := { s with dataLine := shiftOut s.shift s.bits, bits := s.bits + 1 }
    if s.bits = 8 then { s with bits := 0, outputActive := false } else s
  else
    let s := { s with shift := shiftIn s.shift dataHigh, bits := s.bits + 1 }
    if s.bits = 8 then receiveByte { s with bits := 0 } seconds s.shift else s

def setPins (s : MacRtc) (seconds : UInt32) (enabled clockHigh dataHigh : Bool) : MacRtc :=
  if !enabled then
    let s := if s.enabled then s.resetSerial else s
    { s with clockHigh := clockHigh }
  else
    let s :=
      if s.enabled then s
      else
        { s with
          enabled := true
          clockHigh := clockHigh
          shift := 0
          bits := 0
          mode := 0
          outputActive := false }
    let s := if !s.clockHigh && clockHigh then s.clockEdge seconds dataHigh else s
    { s with clockHigh := clockHigh }

end MacRtc

end CuteMac.Rtc
