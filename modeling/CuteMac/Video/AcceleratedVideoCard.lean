/-
  The accelerated video card (`CuteMacAcceleratedVideoCard.cpp`).

  * `Vram`: the memory, whose accesses fail outside it;
  * `acceleratedVramCopy`, `acceleratedVramFill`, `acceleratedMonochromeExpand`: the
    transfers (`CuteMacVideoCard.cpp`);
  * `writeAcceleratorRegister`, `executeCommand`: the registers and the commands;
  * `step`: a write into the window of the accelerator, or a change of the memory by
    the rest of the card.
-/
import CuteMac.Lib.Slice
import Mathlib.Data.UInt

namespace CuteMac.Video

open Slice

/-- The largest memory of a card. -/
def vramLimit : Nat := 14 * 1024 * 1024

structure Vram where
  bytes : List UInt8
  bounded : bytes.length ≤ vramLimit

namespace Vram

def read (v : Vram) (offset size : Nat) : Option (List UInt8) :=
  if offset + size ≤ v.bytes.length then some (mid v.bytes offset size) else none

def write (v : Vram) (offset : Nat) (values : List UInt8) : Option Vram :=
  if h : offset + values.length ≤ v.bytes.length then
    some ⟨overwrite v.bytes offset values, (length_overwrite h).trans_le v.bounded⟩
  else none

/-- The bytes are read before any is written. -/
def memmove (v : Vram) (destination source size : Nat) : Option Vram :=
  (v.read source size).bind fun values => v.write destination values

def memset (v : Vram) (destination : Nat) (value : UInt8) (size : Nat) : Option Vram :=
  v.write destination (List.replicate size value)

/-! ## The transfers -/

/-- A place in a row, with the 32-bit arithmetic of the source. -/
def rowOffset (offset row stride : UInt32) : Nat := offset.toNat + (row * stride).toNat

def acceleratedVramCopy (v : Vram) (sourceOffset destinationOffset sourceStride destinationStride
    widthBytes height : UInt32) (backward : Bool) : Option Vram :=
  (List.range height.toNat).foldlM (fun v rowIndex =>
    let row := if backward then height - 1 - UInt32.ofNat rowIndex else UInt32.ofNat rowIndex
    v.memmove (rowOffset destinationOffset row destinationStride)
      (rowOffset sourceOffset row sourceStride) widthBytes.toNat) v

def acceleratedVramFill (v : Vram) (destinationOffset destinationStride widthBytes height : UInt32)
    (value : UInt8) : Option Vram :=
  (List.range height.toNat).foldlM (fun v row =>
    v.memset (rowOffset destinationOffset (UInt32.ofNat row) destinationStride) value
      widthBytes.toNat) v

/-- One pixel of an expansion: `sourceBit` and `destinationBit` are counted from the row. -/
def expandPixel (v : Vram) (sourceRow destinationRow sourceBit destinationBit destinationDepth : UInt32)
    (foreground background : UInt8) : Option Vram :=
  let pixelMask := (((1 : UInt32) <<< destinationDepth) - 1).toUInt8
  match v.bytes[(sourceRow + sourceBit / 8).toNat]? with
  | none => none
  | some source =>
    let isSet := source &&& ((0x80 : UInt32) >>> (sourceBit &&& 7)).toUInt8 != 0
    let pixel := (if isSet then foreground else background) &&& pixelMask
    let shift := 8 - destinationDepth - (destinationBit &&& 7)
    let mask := pixelMask <<< shift.toUInt8
    match v.bytes[(destinationRow + destinationBit / 8).toNat]? with
    | none => none
    | some byte =>
      v.write (destinationRow + destinationBit / 8).toNat
        [(byte &&& ~~~mask) ||| (pixel <<< shift.toUInt8)]

def acceleratedMonochromeExpand (v : Vram) (sourceOffset destinationOffset sourceStride
    destinationStride sourceBitOffset widthPixels height destinationDepth : UInt32)
    (foreground background : UInt8) : Option Vram :=
  (List.range height.toNat).foldlM (fun v y =>
    let sourceRow := sourceOffset + UInt32.ofNat y * sourceStride
    let destinationRow := destinationOffset + UInt32.ofNat y * destinationStride
    (List.range widthPixels.toNat).foldlM (fun v x =>
      v.expandPixel sourceRow destinationRow (sourceBitOffset + UInt32.ofNat x)
        (UInt32.ofNat x * destinationDepth) destinationDepth foreground background) v) v

end Vram

/-! ## The card -/

inductive AcceleratorError where
  | none
  | disabled
  | unknownCommand
  | invalidDimensions
  | outOfRange
  | invalidStride
  | invalidFlags
  deriving DecidableEq, Repr

def statusEnabled : UInt32 := (1 : UInt32) <<< 0
def statusBusy : UInt32 := (1 : UInt32) <<< 1
def statusError : UInt32 := (1 : UInt32) <<< 2
def statusGuestAttached : UInt32 := (1 : UInt32) <<< 3
def copyBackward : UInt32 := (1 : UInt32) <<< 0
def commandVramCopy : UInt32 := 1
def commandSolidFill : UInt32 := 2
def commandMonochromeExpand : UInt32 := 3
def controlResetStatistics : UInt32 := 1
def controlGuestAttach : UInt32 := 2
def controlGuestDetach : UInt32 := 3
def controlRecordFallback : UInt32 := 4
def guestTraceCounterCount : Nat := 24
def capabilities : UInt32 := ((1 : UInt32) <<< 0) ||| ((1 : UInt32) <<< 1) ||| ((1 : UInt32) <<< 2)

/-- The registers behind the transfers. -/
structure Transfer where
  sourceOffset : UInt32 := 0
  destinationOffset : UInt32 := 0
  strideBytes : UInt32 := 0
  widthBytes : UInt32 := 0
  height : UInt32 := 0
  flags : UInt32 := 0
  sourceStrideBytes : UInt32 := 0
  destinationStrideBytes : UInt32 := 0
  fillValue : UInt32 := 0
  sourceBitOffset : UInt32 := 0
  foregroundValue : UInt32 := 0
  backgroundValue : UInt32 := 0
  destinationDepth : UInt32 := 0
  widthPixels : UInt32 := 0
  deriving DecidableEq, Repr

structure Statistics where
  commandsSubmitted : UInt32 := 0
  commandsCompleted : UInt32 := 0
  commandsRejected : UInt32 := 0
  fallbackOperations : UInt32 := 0
  bytesCopied : UInt32 := 0
  lastCommand : UInt32 := 0
  lastError : AcceleratorError := .none
  deriving DecidableEq, Repr

structure Guest where
  adapter : UInt32 := 0
  systemVersion : UInt32 := 0
  adapterVersion : UInt32 := 0
  callback : UInt32 := 0
  traceLast : UInt32 := 0
  traceCounters : List UInt32 := List.replicate guestTraceCounterCount 0
  deriving DecidableEq, Repr

structure AcceleratedVideoCard where
  acceleration : Bool
  vram : Vram
  status : UInt32 := 0
  transfer : Transfer := {}
  statistics : Statistics := {}
  guest : Guest := {}

namespace Transfer

def sourceStride (t : Transfer) : UInt32 :=
  if t.sourceStrideBytes ≠ 0 then t.sourceStrideBytes else t.strideBytes

def destinationStride (t : Transfer) : UInt32 :=
  if t.destinationStrideBytes ≠ 0 then t.destinationStrideBytes else t.strideBytes

/-- Where a rectangle ends; the sum is 64-bit in the source and never wraps. -/
def rangeEnd (offset height stride : UInt32) (rowBytes : Nat) : Nat :=
  offset.toNat + (height - 1).toNat * stride.toNat + rowBytes

end Transfer

def incrementSaturating (value : UInt32) (amount : UInt32 := 1) : UInt32 :=
  if 0xffffffff - value.toNat < amount.toNat then 0xffffffff else value + amount

namespace AcceleratedVideoCard

def reject (s : AcceleratedVideoCard) (error : AcceleratorError) : AcceleratedVideoCard :=
  { s with
    status := (s.status &&& ~~~statusBusy) ||| statusError
    statistics :=
      { s.statistics with
        lastError := error
        commandsRejected := incrementSaturating s.statistics.commandsRejected } }

/-- The end of a command that moved `bytes` bytes. -/
def complete (s : AcceleratedVideoCard) (vram : Vram) (bytes : Nat) : AcceleratedVideoCard :=
  { s with
    vram := vram
    status := (s.status ||| statusBusy) &&& ~~~statusBusy
    statistics :=
      { s.statistics with
        commandsCompleted := incrementSaturating s.statistics.commandsCompleted
        bytesCopied := incrementSaturating s.statistics.bytesCopied
          (UInt32.ofNat (min bytes 0xffffffff)) } }

def resetStatistics (s : AcceleratedVideoCard) : AcceleratedVideoCard :=
  { s with statistics := {}, status := s.status &&& ~~~statusError }

def executeVramCopy (s : AcceleratedVideoCard) : Option AcceleratedVideoCard :=
  let t := s.transfer
  if t.widthBytes = 0 ∨ t.height = 0 then some (s.reject .invalidDimensions)
  else if t.sourceStride < t.widthBytes ∨ t.destinationStride < t.widthBytes then
    some (s.reject .invalidStride)
  else if t.flags &&& ~~~copyBackward ≠ 0 then some (s.reject .invalidFlags)
  else if s.vram.bytes.length
        < Transfer.rangeEnd t.sourceOffset t.height t.sourceStride t.widthBytes.toNat ∨
      s.vram.bytes.length
        < Transfer.rangeEnd t.destinationOffset t.height t.destinationStride t.widthBytes.toNat then
    some (s.reject .outOfRange)
  else
    (s.vram.acceleratedVramCopy t.sourceOffset t.destinationOffset t.sourceStride
      t.destinationStride t.widthBytes t.height (t.flags &&& copyBackward != 0)).map fun vram =>
        s.complete vram (t.widthBytes.toNat * t.height.toNat)

def executeSolidFill (s : AcceleratedVideoCard) : Option AcceleratedVideoCard :=
  let t := s.transfer
  if t.widthBytes = 0 ∨ t.height = 0 then some (s.reject .invalidDimensions)
  else if t.destinationStride < t.widthBytes then some (s.reject .invalidStride)
  else if t.flags ≠ 0 ∨ 0xff < t.fillValue then some (s.reject .invalidFlags)
  else if s.vram.bytes.length
      < Transfer.rangeEnd t.destinationOffset t.height t.destinationStride t.widthBytes.toNat then
    some (s.reject .outOfRange)
  else
    (s.vram.acceleratedVramFill t.destinationOffset t.destinationStride t.widthBytes t.height
      t.fillValue.toUInt8).map fun vram =>
        s.complete vram (t.widthBytes.toNat * t.height.toNat)

def executeMonochromeExpand (s : AcceleratedVideoCard) : Option AcceleratedVideoCard :=
  let t := s.transfer
  -- the first sum is 32-bit and may wrap, the second is 64-bit
  let sourceRowBytes := ((t.sourceBitOffset + t.widthPixels + 7) / 8).toNat
  let destinationRowBytes := (t.widthPixels.toNat * t.destinationDepth.toNat + 7) / 8
  if t.widthPixels = 0 ∨ t.height = 0 then some (s.reject .invalidDimensions)
  else if 7 < t.sourceBitOffset ∨ (t.destinationDepth ≠ 1 ∧ t.destinationDepth ≠ 2 ∧
      t.destinationDepth ≠ 4 ∧ t.destinationDepth ≠ 8) ∨ t.flags ≠ 0 then
    some (s.reject .invalidFlags)
  else if t.sourceStride.toNat < sourceRowBytes ∨ t.destinationStride.toNat < destinationRowBytes then
    some (s.reject .invalidStride)
  else if s.vram.bytes.length
        < Transfer.rangeEnd t.sourceOffset t.height t.sourceStride sourceRowBytes ∨
      s.vram.bytes.length
        < Transfer.rangeEnd t.destinationOffset t.height t.destinationStride destinationRowBytes then
    some (s.reject .outOfRange)
  else
    (s.vram.acceleratedMonochromeExpand t.sourceOffset t.destinationOffset t.sourceStride
      t.destinationStride t.sourceBitOffset t.widthPixels t.height t.destinationDepth
      t.foregroundValue.toUInt8 t.backgroundValue.toUInt8).map fun vram =>
        s.complete vram (destinationRowBytes * t.height.toNat)

/-- A command fails in the model where it would access a byte outside the memory. -/
def executeCommand (s : AcceleratedVideoCard) (command : UInt32) : Option AcceleratedVideoCard :=
  let s :=
    { s with
      status := s.status &&& ~~~statusError
      statistics :=
        { s.statistics with
          commandsSubmitted := incrementSaturating s.statistics.commandsSubmitted
          lastCommand := command
          lastError := .none } }
  if !s.acceleration then some (s.reject .disabled)
  else if command = commandVramCopy then s.executeVramCopy
  else if command = commandSolidFill then s.executeSolidFill
  else if command = commandMonochromeExpand then s.executeMonochromeExpand
  else some (s.reject .unknownCommand)

/-! ## The registers -/

def errorCode : AcceleratorError → UInt32
  | .none => 0
  | .disabled => 1
  | .unknownCommand => 2
  | .invalidDimensions => 3
  | .outOfRange => 4
  | .invalidStride => 5
  | .invalidFlags => 6

def readAcceleratorRegister (s : AcceleratedVideoCard) (offset : UInt32) : UInt32 :=
  if 0x100 ≤ offset.toNat ∧ offset.toNat < 0x100 + guestTraceCounterCount * 4 then
    s.guest.traceCounters.getD ((offset.toNat - 0x100) / 4) 0
  else
    match offset.toNat with
    | 0x00 => 0x43564131
    | 0x04 => 2
    | 0x08 => if s.acceleration then capabilities else 0
    | 0x0c => s.status
    | 0x10 => s.statistics.commandsSubmitted
    | 0x14 => s.statistics.commandsCompleted
    | 0x18 => s.statistics.commandsRejected
    | 0x1c => s.statistics.fallbackOperations
    | 0x20 => s.statistics.bytesCopied
    | 0x24 => s.statistics.lastCommand
    | 0x28 => errorCode s.statistics.lastError
    | 0x2c => s.guest.adapter
    | 0x30 => s.guest.systemVersion
    | 0x34 => s.guest.adapterVersion
    | 0x38 => s.guest.callback
    | 0x40 => s.transfer.sourceOffset
    | 0x44 => s.transfer.destinationOffset
    | 0x48 => s.transfer.strideBytes
    | 0x4c => s.transfer.widthBytes
    | 0x50 => s.transfer.height
    | 0x54 => s.transfer.flags
    | 0x60 => s.transfer.sourceStrideBytes
    | 0x64 => s.transfer.destinationStrideBytes
    | 0x68 => s.transfer.fillValue
    | 0x6c => s.transfer.sourceBitOffset
    | 0x70 => s.transfer.foregroundValue
    | 0x74 => s.transfer.backgroundValue
    | 0x78 => s.transfer.destinationDepth
    | 0x7c => s.transfer.widthPixels
    | 0x84 => s.guest.traceLast
    | _ => 0

/-- The registers of the transfers. -/
def writeTransfer (t : Transfer) (offset : Nat) (value : UInt32) : Transfer :=
  match offset with
  | 0x40 => { t with sourceOffset := value }
  | 0x44 => { t with destinationOffset := value }
  | 0x48 => { t with strideBytes := value }
  | 0x4c => { t with widthBytes := value }
  | 0x50 => { t with height := value }
  | 0x54 => { t with flags := value }
  | 0x60 => { t with sourceStrideBytes := value }
  | 0x64 => { t with destinationStrideBytes := value }
  | 0x68 => { t with fillValue := value }
  | 0x6c => { t with sourceBitOffset := value }
  | 0x70 => { t with foregroundValue := value }
  | 0x74 => { t with backgroundValue := value }
  | 0x78 => { t with destinationDepth := value }
  | 0x7c => { t with widthPixels := value }
  | _ => t

/-- The registers that the guest's driver keeps here. -/
def writeGuest (g : Guest) (offset : Nat) (value : UInt32) : Guest :=
  match offset with
  | 0x2c => { g with adapter := value }
  | 0x30 => { g with systemVersion := value }
  | 0x34 => { g with adapterVersion := value }
  | 0x38 => { g with callback := value }
  | 0x80 =>
    { g with
      traceLast := value
      traceCounters :=
        if value.toNat < guestTraceCounterCount then
          g.traceCounters.modify value.toNat (incrementSaturating ·)
        else g.traceCounters }
  | _ => g

def writeControl (s : AcceleratedVideoCard) (value : UInt32) : AcceleratedVideoCard :=
  if value = controlResetStatistics then s.resetStatistics
  else if value = controlGuestAttach then { s with status := s.status ||| statusGuestAttached }
  else if value = controlGuestDetach then { s with status := s.status &&& ~~~statusGuestAttached }
  else if value = controlRecordFallback then
    { s with
      statistics :=
        { s.statistics with
          fallbackOperations := incrementSaturating s.statistics.fallbackOperations } }
  else s

def writeAcceleratorRegister (s : AcceleratedVideoCard) (offset value : UInt32) :
    Option AcceleratedVideoCard :=
  if offset = 0x58 then s.executeCommand value
  else if offset = 0x5c then some (s.writeControl value)
  else
    some { s with
      transfer := writeTransfer s.transfer offset.toNat value
      guest := writeGuest s.guest offset.toNat value }

/-- A byte is written into the window; `relative` is its place there. -/
def writeWindow (s : AcceleratedVideoCard) (relative : UInt32) (value : UInt8) :
    Option AcceleratedVideoCard :=
  let aligned := relative &&& ~~~3
  if aligned = 0x58 ∨ aligned = 0x5c ∨ aligned = 0x80 then
    if relative &&& 3 = 3 then s.writeAcceleratorRegister aligned value.toUInt32 else some s
  else
    let shift := (3 - (relative &&& 3)) * 8
    let mask := (0xff : UInt32) <<< shift
    s.writeAcceleratorRegister aligned
      ((s.readAcceleratorRegister aligned &&& ~~~mask) ||| (value.toUInt32 <<< shift))

/-! ## Runs -/

inductive Input where
  | window (relative : UInt32) (value : UInt8)
  /-- the rest of the card leaves other bytes in the memory -/
  | memory (vram : Vram)
  | reset

def reset (s : AcceleratedVideoCard) : AcceleratedVideoCard :=
  resetStatistics
    { s with
      vram := ⟨List.replicate s.vram.bytes.length 0, by
        rw [List.length_replicate]
        exact s.vram.bounded⟩
      status := if s.acceleration then statusEnabled else 0
      guest := {}
      transfer :=
        { s.transfer with
          sourceStrideBytes := 0
          destinationStrideBytes := 0
          fillValue := 0
          sourceBitOffset := 0
          foregroundValue := 0
          backgroundValue := 0
          destinationDepth := 0
          widthPixels := 0 } }

def step (s : AcceleratedVideoCard) : Input → Option AcceleratedVideoCard
  | .window relative value => s.writeWindow relative value
  | .memory vram => some { s with vram := vram }
  | .reset => some s.reset

/-- A card as it is made. -/
def powerOn (acceleration : Bool) (vram : Vram) : AcceleratedVideoCard :=
  resetStatistics { acceleration := acceleration, vram := vram }

end AcceleratedVideoCard

end CuteMac.Video
