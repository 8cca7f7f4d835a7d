/-
  The video of the Quadra (`DafbVideo.cpp`).

  * `DafbVideo`: the memory, the DAFB, Swatch and RAMDAC registers;
  * `updateMode`: the raster that the registers ask for;
  * `readRegister32`, `writeRegister32`: the registers, and their narrow forms;
  * `videoFrame`: what is shown.

  The SCSI controllers behind the same chip are not modelled here.
-/
import CuteMac.Video.AppleDisplayCard

namespace CuteMac.Video

namespace Dafb

def defaultVblCycles : Nat := 1330008

inductive Variant where
  | discrete
  | quadra950
  | memc
  | memcJr
  deriving DecidableEq, Repr

inductive Monitor where
  | rgb21Inch
  | portraitMono15Inch
  | rgb12Inch
  | twoPageMono21Inch
  | ntscEncoder
  | portraitRgb15Inch
  | hiResRgb
  | none
  | vga
  | rgb16Inch
  | palEncoder
  | palMonitor
  | rgb19Inch
  deriving DecidableEq, Repr

def Monitor.value : Monitor → UInt8
  | rgb21Inch => 0x00
  | portraitMono15Inch => 0x01
  | rgb12Inch => 0x02
  | twoPageMono21Inch => 0x03
  | ntscEncoder => 0x04
  | portraitRgb15Inch => 0x05
  | hiResRgb => 0x06
  | none => 0x07
  | vga => 0x76
  | rgb16Inch => 0x79
  | palEncoder => 0x40
  | palMonitor => 0x70
  | rgb19Inch => 0x7e

/-- Only the two monochrome monitors are told apart by their colours. -/
def Monitor.mono (monitor : Monitor) : Bool :=
  monitor.value &&& 0x40 == 0 && (monitor.value &&& 7 == 1 || monitor.value &&& 7 == 3)

def vramBytes : Variant → Nat
  | .memc | .memcJr => 1024 * 1024
  | .discrete | .quadra950 => 2 * 1024 * 1024

def grayscaleColor (color : UInt32) : UInt32 :=
  let level := AppleDisplay.grayscaleLevel color
  (0xff000000 : UInt32) ||| (level <<< 16) ||| (level <<< 8) ||| level

end Dafb

open Dafb

/-- The interrupt line follows `interruptStatus`; the callback on it is not modelled. -/
structure DafbVideo where
  variant : Variant
  monitor : Monitor
  vram : Vector UInt8 (vramBytes variant)
  palette : Vector UInt32 256
  paletteLatch : Vector UInt8 3 := Vector.replicate 3 0
  horizontal : Vector UInt32 10 := Vector.replicate 10 0
  vertical : Vector UInt32 7 := Vector.replicate 7 0
  scsiControl : Vector UInt16 2 := Vector.replicate 2 0
  scsiDrq : Vector Bool 2 := Vector.replicate 2 false
  vblCycles : Nat := 0
  base : UInt32 := 0
  stride : UInt32 := 1024
  config : UInt32 := 0
  test : UInt32 := 0
  blockControl : UInt32 := 0
  swatchTest : UInt32 := 0
  swatchMode : UInt8 := 1
  swatchInterruptEnable : UInt8 := 0
  monitorDrive : UInt8 := 0
  paletteAddress : UInt8 := 0
  paletteComponent : Fin 3 := 0
  pixelBusControl : UInt8 := 0
  pixelBusControl1 : UInt8 := 0
  mode : UInt8 := 0
  interruptStatus : UInt8 := 0
  width : Int32 := 640
  height : Int32 := 480

namespace DafbVideo

def reset (s : DafbVideo) : DafbVideo :=
  { s with
    vram := Vector.replicate _ 0
    palette := ((Vector.replicate 256 0xff000000).set 0 0xffffffff).set 1 0xff000000
    horizontal := Vector.replicate 10 0
    vertical := Vector.replicate 7 0
    scsiControl := Vector.replicate 2 0
    scsiDrq := Vector.replicate 2 false
    vblCycles := defaultVblCycles
    base := 0
    stride := 1024
    config := 0
    test := 0
    blockControl := 0
    swatchTest := 0
    swatchMode := 1
    swatchInterruptEnable := 0
    monitorDrive := 0
    paletteAddress := 0
    paletteComponent := 0
    pixelBusControl := 0
    pixelBusControl1 := 0
    mode := 0
    interruptStatus := 0
    width := 640
    height := 480 }

/-- The video as it is made. -/
def powerOn (variant : Variant) (monitor : Monitor) : DafbVideo :=
  reset
    { variant := variant
      monitor := monitor
      vram := Vector.replicate _ 0
      palette := Vector.replicate 256 0xff000000 }

def setInterrupt (s : DafbVideo) (mask : UInt8) (asserted : Bool) : DafbVideo :=
  { s with
    interruptStatus := if asserted then s.interruptStatus ||| mask else s.interruptStatus &&& ~~~mask }

def tick (s : DafbVideo) (cycles : Nat) : DafbVideo :=
  if s.swatchMode &&& 1 ≠ 0 then s
  else if s.vblCycles ≤ cycles then
    let s := { s with vblCycles := defaultVblCycles }
    let s := if s.swatchInterruptEnable &&& 0x01 ≠ 0 then s.setInterrupt 0x01 true else s
    if s.swatchInterruptEnable &&& 0x04 ≠ 0 then s.setInterrupt 0x04 true else s
  else { s with vblCycles := s.vblCycles - cycles }

def setTurboScsiDrq (s : DafbVideo) (bus : Nat) (asserted : Bool) : DafbVideo :=
  { s with scsiDrq := s.scsiDrq.setIfInBounds bus asserted }

/-! ## The raster -/

/-- The depth of the pixels: some controls leave it as it was. -/
def pixelMode (s : DafbVideo) : UInt8 :=
  if s.variant ≠ .discrete ∧ s.pixelBusControl &&& 0x06 = 0x06 ∧ s.pixelBusControl1 &&& 0xc0 = 0xc0 then 5
  else
    match (s.pixelBusControl &&& 0x1c).toNat with
    | 0x00 => 0
    | 0x08 => 1
    | 0x10 => 2
    | 0x18 => 3
    | 0x1c => 4
    | _ => s.mode

/-- The size that the counters ask for, as far as it is a size. -/
def updateSize (s : DafbVideo) : DafbVideo :=
  let hres := (s.horizontal[8] - s.horizontal[7]).toInt32
  let vres := ((s.vertical[5] >>> 1) - (s.vertical[4] >>> 1)).toInt32
  { s with
    width := if 0 < hres ∧ hres ≤ 4096 then hres else s.width
    height := if 0 < vres ∧ vres ≤ 2160 then vres else s.height }

/-- The divider of the clock multiplies the width, again at every update that leaves it alone. -/
def updateClock (s : DafbVideo) : DafbVideo :=
  let clockDivider : UInt32 := (1 : UInt32) <<< ((s.pixelBusControl.toUInt32 &&& 0x60) >>> 5)
  if s.config &&& 0x08 ≠ 0 then
    { s with
      width := max 1 (s.width / clockDivider.toInt32 - 23)
      stride := max 1 (s.stride / clockDivider) }
  else { s with width := s.width * clockDivider.toInt32 }

def updateMode (s : DafbVideo) : DafbVideo :=
  let s := { s with mode := s.pixelMode }
  if s.horizontal[9] = 0 ∨ (s.vertical[6] : UInt32) >>> 1 = 0 then s
  else
    let s := s.updateSize
    let s :=
      if s.width = 512 ∧ s.variant = .discrete then { s with base := 0x1000, height := 384 } else s
    s.updateClock

/-! ## The registers -/

def monitorSense (s : DafbVideo) : UInt8 :=
  let raw := s.monitor.value
  if raw &&& 0x40 ≠ 0 then
    let result : UInt8 := 7
    let result :=
      if s.monitorDrive = 0x4 then result &&& ((4 : UInt8) ||| (((raw >>> 5) &&& 1) <<< 1) ||| ((raw >>> 4) &&& 1))
      else result
    let result :=
      if s.monitorDrive = 0x2 then result &&& ((((raw >>> 3) &&& 1) <<< 2) ||| (2 : UInt8) ||| ((raw >>> 2) &&& 1))
      else result
    let result :=
      if s.monitorDrive = 0x1 then result &&& ((((raw >>> 1) &&& 1) <<< 2) ||| ((raw &&& 1) <<< 1) ||| (1 : UInt8))
      else result
    result ^^^ 7
  else (raw &&& 0x07) ^^^ 7

def scsiStatus (control : UInt16) (drq : Bool) : UInt32 :=
  control.toUInt32 ||| (if drq then 0x200 else 0)

def readDafb (s : DafbVideo) (registerOffset : UInt32) : UInt32 :=
  match registerOffset.toNat with
  | 0x00 => (s.base >>> 9) &&& 0x0fff
  | 0x04 => (s.base >>> 5) &&& 0x0f
  | 0x08 => s.stride >>> 2
  | 0x10 => s.config
  | 0x14 => s.blockControl
  | 0x1c => s.monitorSense.toUInt32
  | 0x24 => scsiStatus s.scsiControl[0] s.scsiDrq[0]
  | 0x28 => scsiStatus s.scsiControl[1] s.scsiDrq[1]
  | 0x2c =>
    let version : UInt32 := if s.variant = .discrete then 1 else 3
    (s.test &&& (0x1ff : UInt32)) ||| (version <<< 9)
  | _ => 0

def writeDafb (s : DafbVideo) (registerOffset value : UInt32) : DafbVideo :=
  let value := value &&& 0x0fff
  match registerOffset.toNat with
  | 0x00 => { s with base := (s.base &&& (0x1e0 : UInt32)) ||| (value <<< 9) }
  | 0x04 => { s with base := (s.base &&& ~~~(0x1e0 : UInt32)) ||| ((value &&& 0x0f) <<< 5) }
  | 0x08 => updateMode { s with stride := value <<< 2 }
  | 0x10 => updateMode { s with config := value }
  | 0x14 => { s with blockControl := value }
  | 0x1c => { s with monitorDrive := ((value &&& 0x07) ^^^ 0x07).toUInt8 }
  | 0x24 => { s with scsiControl := s.scsiControl.set 0 value.toUInt16 }
  | 0x28 => { s with scsiControl := s.scsiControl.set 1 value.toUInt16 }
  | 0x2c => { s with test := value }
  | _ => s

/-- Reads of the Swatch acknowledge interrupts. -/
def readSwatch (s : DafbVideo) (registerOffset : UInt32) : UInt32 × DafbVideo :=
  if registerOffset = 0x08 then (s.interruptStatus.toUInt32, s)
  else if registerOffset = 0x0c then (0, s.setInterrupt 0x04 false)
  else if registerOffset = 0x14 then (0, s.setInterrupt 0x01 false)
  else if registerOffset = 0x20 then (s.swatchTest, s)
  else if 0x24 ≤ registerOffset ∧ registerOffset ≤ 0x48 ∧ registerOffset &&& 3 = 0 then
    (s.horizontal[((registerOffset - 0x24) / 4).toNat]?.getD 0, s)
  else if 0x4c ≤ registerOffset ∧ registerOffset ≤ 0x64 ∧ registerOffset &&& 3 = 0 then
    (s.vertical[((registerOffset - 0x4c) / 4).toNat]?.getD 0, s)
  else (0, s)

def writeSwatch (s : DafbVideo) (registerOffset value : UInt32) : DafbVideo :=
  let value := value &&& 0x0fff
  if registerOffset = 0x00 then { s with swatchMode := value.toUInt8 }
  else if registerOffset = 0x04 then
    let s := { s with swatchInterruptEnable := (value &&& 0x07).toUInt8 }
    let s := if value &&& 0x01 = 0 then s.setInterrupt 0x01 false else s
    if value &&& 0x04 = 0 then s.setInterrupt 0x04 false else s
  else if registerOffset = 0x0c then s.setInterrupt 0x04 false
  else if registerOffset = 0x14 then s.setInterrupt 0x01 false
  else if registerOffset = 0x20 then { s with swatchTest := value }
  else if 0x24 ≤ registerOffset ∧ registerOffset ≤ 0x48 ∧ registerOffset &&& 3 = 0 then
    updateMode
      { s with horizontal := s.horizontal.setIfInBounds ((registerOffset - 0x24) / 4).toNat value }
  else if 0x4c ≤ registerOffset ∧ registerOffset ≤ 0x64 ∧ registerOffset &&& 3 = 0 then
    updateMode { s with vertical := s.vertical.setIfInBounds ((registerOffset - 0x4c) / 4).toNat value }
  else s

/-- The second control of the pixel bus, where there is one, is behind palette entry 1. -/
def extendedPixelBus (s : DafbVideo) : Bool :=
  s.paletteAddress == 1 && s.pixelBusControl &&& 0x06 == 0x06 && s.variant != .discrete

def readRamdac (s : DafbVideo) (registerOffset : UInt32) : UInt32 × DafbVideo :=
  match registerOffset.toNat with
  | 0x00 => (s.paletteAddress.toUInt32, { s with paletteComponent := 0 })
  | 0x10 =>
    let color := s.palette.get ⟨s.paletteAddress.toNat, s.paletteAddress.toNat_lt⟩
    let value := (color >>> UInt32.ofNat (16 - s.paletteComponent * 8)) &&& 0xff
    if s.paletteComponent = 2 then
      (value, { s with paletteComponent := 0, paletteAddress := s.paletteAddress + 1 })
    else (value, { s with paletteComponent := s.paletteComponent + 1 })
  | 0x20 => ((if s.extendedPixelBus then s.pixelBusControl1 else s.pixelBusControl).toUInt32, s)
  | _ => (0, s)

def writeRamdac (s : DafbVideo) (registerOffset value : UInt32) : DafbVideo :=
  match registerOffset.toNat with
  | 0x00 => { s with paletteAddress := value.toUInt8, paletteComponent := 0 }
  | 0x10 =>
    let latch := s.paletteLatch.set s.paletteComponent value.toUInt8
    if s.paletteComponent = 2 then
      let color := rgbColor (latch.get 0) (latch.get 1) (latch.get 2)
      { s with
        paletteLatch := latch
        palette := s.palette.set s.paletteAddress.toNat
          (if s.monitor.mono then grayscaleColor color else color) s.paletteAddress.toNat_lt
        paletteAddress := s.paletteAddress + 1
        paletteComponent := 0 }
    else { s with paletteLatch := latch, paletteComponent := s.paletteComponent + 1 }
  | 0x20 =>
    if s.extendedPixelBus then { s with pixelBusControl1 := (value.toUInt8 &&& 0xf0) ||| 0x02 }
    else updateMode { s with pixelBusControl := value.toUInt8 }
  | _ => s

/-- The clock generator has no registers. -/
def readBlock (s : DafbVideo) (offset : UInt32) : UInt32 × DafbVideo :=
  let block := offset &&& 0x300
  let reg := offset &&& 0xff
  if block = 0x000 then (s.readDafb reg, s)
  else if block = 0x100 then s.readSwatch reg
  else if block = 0x200 then s.readRamdac reg
  else (0, s)

def writeBlock (s : DafbVideo) (offset value : UInt32) : DafbVideo :=
  let block := offset &&& 0x300
  let reg := offset &&& 0xff
  if block = 0x000 then s.writeDafb reg value
  else if block = 0x100 then s.writeSwatch reg value
  else if block = 0x200 then s.writeRamdac reg value
  else s

def readRegister32 (s : DafbVideo) (offset : UInt32) : UInt32 × DafbVideo := s.readBlock (offset &&& 0x3ff)

def readRegister8 (s : DafbVideo) (offset : UInt32) : UInt8 × DafbVideo :=
  let (value, s) := s.readRegister32 (offset &&& ~~~3)
  ((value >>> ((3 - (offset &&& 3)) * 8)).toUInt8, s)

def readRegister16 (s : DafbVideo) (offset : UInt32) : UInt16 × DafbVideo :=
  let (high, s) := s.readRegister8 offset
  let (low, s) := s.readRegister8 (offset + 1)
  ((high.toUInt16 <<< 8) ||| low.toUInt16, s)

def writeRegister32 (s : DafbVideo) (offset value : UInt32) : DafbVideo :=
  s.writeBlock (offset &&& 0x3ff) value

/-- Narrow writes repeat their value on all lanes. -/
def writeRegister8 (s : DafbVideo) (offset : UInt32) (value : UInt8) : DafbVideo :=
  s.writeRegister32 (offset &&& ~~~3) (AppleDisplay.smearRegisterByte value)

def writeRegister16 (s : DafbVideo) (offset : UInt32) (value : UInt16) : DafbVideo :=
  s.writeRegister32 (offset &&& ~~~3) ((value.toUInt32 <<< 16) ||| value.toUInt32)

/-! ## The memory -/

def readVram8 (s : DafbVideo) (offset : UInt32) : UInt8 := s.vram[offset.toNat]?.getD 0xff

def readVram16 (s : DafbVideo) (offset : UInt32) : UInt16 :=
  ((s.readVram8 offset).toUInt16 <<< 8) ||| (s.readVram8 (offset + 1)).toUInt16

def readVram32 (s : DafbVideo) (offset : UInt32) : UInt32 :=
  ((s.readVram16 offset).toUInt32 <<< 16) ||| (s.readVram16 (offset + 2)).toUInt32

def writeVram8 (s : DafbVideo) (offset : UInt32) (value : UInt8) : DafbVideo :=
  { s with vram := s.vram.setIfInBounds offset.toNat value }

def writeVram16 (s : DafbVideo) (offset : UInt32) (value : UInt16) : DafbVideo :=
  (s.writeVram8 offset (value >>> 8).toUInt8).writeVram8 (offset + 1) value.toUInt8

def writeVram32 (s : DafbVideo) (offset value : UInt32) : DafbVideo :=
  (s.writeVram16 offset (value >>> 16).toUInt16).writeVram16 (offset + 2) value.toUInt16

/-! ## The frame -/

def displayEnabled (s : DafbVideo) : Bool := s.swatchMode &&& 1 == 0

def indexedDepth (s : DafbVideo) : Nat :=
  match s.mode.toNat with
  | 0 => 1
  | 1 => 2
  | 2 => 4
  | 3 => 8
  | _ => 8

def scanoutStrideBytes (s : DafbVideo) : UInt32 := if s.config &&& 0x08 ≠ 0 then 1024 else s.stride

/-- The rows that are left in the memory from the start of the picture on. -/
def scanoutPixels (s : DafbVideo) : List UInt8 :=
  (s.vram.toList.drop s.base.toNat).take (s.scanoutStrideBytes * s.height.toInt.toNat.toUInt32).toNat

def videoFrame (s : DafbVideo) : VideoFrame :=
  let stride := s.scanoutStrideBytes
  if !s.displayEnabled || s.monitor == .none then {}
  else if vramBytes s.variant ≤ s.base.toNat ∨ stride = 0 then {}
  else if s.scanoutPixels = [] then {}
  else if s.mode = 4 then
    { width := s.width
      height := s.height
      strideBytes := stride.toInt32
      storage := .direct
      bitsPerPixel := 24
      pixels := s.scanoutPixels
      channels := ⟨0xff0000, 0x00ff00, 0x0000ff, 0⟩
      grabbable := true }
  else if s.mode = 5 then
    { width := s.width
      height := s.height
      strideBytes := stride.toInt32
      storage := .direct
      bitsPerPixel := 15
      pixels := s.scanoutPixels
      channels := ⟨0x7c00, 0x03e0, 0x001f, 0⟩
      grabbable := true }
  else
    { width := s.width
      height := s.height
      strideBytes := stride.toInt32
      storage := .indexed
      bitsPerPixel := Int32.ofNat s.indexedDepth
      pixels := s.scanoutPixels
      colorTable := if s.monitor.mono then s.palette.toList.map grayscaleColor else s.palette.toList
      pixelToColorIndex := (List.range (2 ^ s.indexedDepth)).map UInt16.ofNat
      grabbable := true }

end DafbVideo

end CuteMac.Video
