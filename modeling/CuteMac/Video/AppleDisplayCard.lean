/-
  The Apple display card (`AppleDisplayCard.cpp`).

  * `AppleDisplayCard`: the memory, the JMFB, CRTC and RAMDAC registers;
  * `writeRegister`, `readRegisterByte`, `updateRaster`: the registers and the raster;
  * `packedRgbRead32`, `packedRgbWrite32`: the memory in the direct RGB mode;
  * `read8`, `write8`, `write16`, `write32`: the accesses;
  * `videoFrame`: what is shown.

  An access is `none` where it would use an element outside an array of the card.
-/
import CuteMac.Video.MacintoshIIVideoCard
import CuteMac.Video.VideoFrame

namespace CuteMac.Video

open NuBus

namespace AppleDisplay

def declarationRomBytes : Nat := 32 * 1024
def mappedDeclarationRomBytes : Nat := declarationRomBytes * 4

def standardDeclarationRomBase : UInt32 := 0x000e0000
def superDeclarationRomBase : UInt32 := 0x00fe0000
def vramWindowLimit : UInt32 := 0x00200000
def jmfbBase : UInt32 := 0x00200000
def crtcBase : UInt32 := 0x00200100
def ramdacBase : UInt32 := 0x00200200
def clockGeneratorBase : UInt32 := 0x00200300
def cyclesPerVbl : Nat := 261379

inductive Monitor where
  | rgb21Inch
  | portraitMono15Inch
  | rgb12Inch
  | twoPageMono21Inch
  | ntscMonitor
  | portraitRgb15Inch
  | hiResRgb
  | multipleScan14Inch
  | multipleScan16Inch
  | multipleScan21Inch
  | palEncoder
  | ntscEncoder
  | vga
  | rgb16Inch
  | rgb19Inch
  | palMonitor
  deriving DecidableEq, Repr

def Monitor.value : Monitor → UInt8
  | rgb21Inch => 0x00
  | portraitMono15Inch => 0x01
  | rgb12Inch => 0x02
  | twoPageMono21Inch => 0x03
  | ntscMonitor => 0x04
  | portraitRgb15Inch => 0x05
  | hiResRgb => 0x06
  | multipleScan14Inch => 0x07
  | multipleScan16Inch => 0x08
  | multipleScan21Inch => 0x09
  | palEncoder => 0x0a
  | ntscEncoder => 0x0b
  | vga => 0x0c
  | rgb16Inch => 0x0d
  | rgb19Inch => 0x0f
  | palMonitor => 0x1e

structure MonitorInfo where
  mono : Bool := false
  sense : Vector UInt16 4 := Vector.replicate 4 0

def monitors : List MonitorInfo :=
  [ ⟨false, #v[0, 0, 0, 0]⟩, ⟨true, #v[1, 1, 1, 0]⟩, ⟨false, #v[2, 2, 0, 2]⟩,
    ⟨true, #v[3, 3, 1, 2]⟩, ⟨false, #v[4, 0, 4, 4]⟩, ⟨false, #v[5, 1, 5, 4]⟩,
    ⟨false, #v[6, 2, 4, 6]⟩, ⟨false, #v[6, 0, 0, 6]⟩, ⟨false, #v[6, 0, 4, 6]⟩,
    ⟨false, #v[6, 2, 0, 6]⟩, ⟨false, #v[7, 0, 0, 0]⟩, ⟨false, #v[7, 1, 1, 0]⟩,
    ⟨false, #v[7, 1, 1, 6]⟩, ⟨false, #v[7, 2, 5, 2]⟩, ⟨false, #v[7, 3, 0, 0]⟩,
    ⟨false, #v[7, 3, 4, 4]⟩ ]

def monitorInfo (monitor : Monitor) : MonitorInfo :=
  monitors.getD (monitor.value &&& 0x0f).toNat {}

/-- A byte on all lanes. -/
def smearRegisterByte (value : UInt8) : UInt32 :=
  (value.toUInt32 <<< 24) ||| (value.toUInt32 <<< 16) ||| (value.toUInt32 <<< 8) ||| value.toUInt32

def clampVramKiB (vramKiB : Int) : Nat := if vramKiB ≤ 512 then 512 else 1024

def grayscaleLevel (color : UInt32) : UInt32 :=
  let red : UInt32 := (color >>> 16) &&& 0xff
  let green : UInt32 := (color >>> 8) &&& 0xff
  let blue : UInt32 := color &&& 0xff
  (red * 299 + green * 587 + blue * 114 + 500) / 1000

def grayscaleColor (color : UInt32) : UInt32 :=
  let level := grayscaleLevel color
  (color &&& (0xff000000 : UInt32)) ||| (level <<< 16) ||| (level <<< 8) ||| level

/-- The palette as the monitor shows it, with white and black at its ends. -/
def scanoutPalette (palette : List UInt32) (monitor : Monitor) (depth : Nat) : List UInt32 :=
  let shown := if (monitorInfo monitor).mono then palette.map grayscaleColor else palette
  (shown.set 0 0xffffffff).set (2 ^ depth - 1) 0xff000000

/-- Pixels of three bytes as the monitor shows them. -/
def grayPixels : List UInt8 → List UInt8
  | red :: green :: blue :: rest =>
    let gray := (grayscaleColor (rgbColor red green blue) &&& 0xff).toUInt8
    gray :: gray :: gray :: grayPixels rest
  | rest => rest

def scanoutDirectPixels (pixels : List UInt8) (monitor : Monitor) : List UInt8 :=
  if (monitorInfo monitor).mono then grayPixels pixels else pixels

end AppleDisplay

open AppleDisplay

/-- The counts of the raster. -/
structure Crtc where
  hhalf : UInt16
  hactive : UInt16
  hbporch : UInt16
  hsync : UInt16
  hfporch : UInt16
  vactive : UInt16
  vbporch : UInt16
  vsync : UInt16
  vfporch : UInt16
  deriving DecidableEq, Repr

def resetCrtc : Crtc :=
  { hhalf := 576
    hactive := 286
    hbporch := 22
    hsync := 30
    hfporch := 18
    vactive := 1740
    vbporch := 78
    vsync := 6
    vfporch := 6 }

/-- `irqAsserted` is the line to the slot; the callback on it is not modelled. -/
structure AppleDisplayCard where
  monitor : Monitor
  vramKiB : Int
  declarationRom : List UInt8 := []
  vram : Vector UInt8 (1024 * clampVramKiB vramKiB)
  palette : Vector UInt32 256
  paletteLatch : Vector UInt8 3 := Vector.replicate 3 0
  control : UInt16 := 0
  preload : UInt16 := 0
  base : UInt32 := 0
  stride : UInt32 := 0
  clutAddress : UInt8 := 0
  clutComponent : Fin 3 := 0
  ramdacMode : UInt8 := 0
  ramdacConvolution : UInt8 := 0
  crtc : Crtc
  halflinePixels : UInt16 := 0
  multiplier : UInt16 := 0
  modulus : UInt16 := 0
  pixelClockDivider : UInt8 := 0
  vblDisabled : Bool := true
  vblCycles : Nat := 0
  frameCyclePosition : Nat := 0
  width : Int := 640
  height : Int := 480
  visibleTop : Int := 0
  visibleLeft : Int := 0
  unsupportedInterlaceSelections : Nat := 0
  irqAsserted : Bool := false

namespace AppleDisplayCard

def declarationRomLoaded (s : AppleDisplayCard) : Bool :=
  s.declarationRom.length == mappedDeclarationRomBytes

/-- The ROM is on byte lane 3. -/
def loadDeclarationRom (s : AppleDisplayCard) (bytes : List UInt8) : Option AppleDisplayCard :=
  if bytes.length ≠ declarationRomBytes ∨ bytes.getLast? ≠ some 0x78 then none
  else some { s with declarationRom := bytes.flatMap fun value => [0xff, 0xff, 0xff, value] }

abbrev vramBytes (s : AppleDisplayCard) : Nat := 1024 * clampVramKiB s.vramKiB

def reset (s : AppleDisplayCard) : AppleDisplayCard :=
  { s with
    vram := Vector.replicate _ 0
    palette := resetPalette 1
    control := 0x0002
    preload := 256 - 8
    base := 0
    stride := 80 / 4
    clutAddress := 0
    clutComponent := 0
    ramdacMode := 0
    ramdacConvolution := 0
    crtc := resetCrtc
    halflinePixels := 576
    multiplier := 190
    modulus := 19
    pixelClockDivider := 1
    vblDisabled := true
    vblCycles := cyclesPerVbl
    frameCyclePosition := 0
    width := 640
    height := 480
    visibleTop := 0
    visibleLeft := 0
    unsupportedInterlaceSelections := 0
    irqAsserted := false }

/-- A card as it is made. -/
def powerOn (vramKiB : Int) (monitor : Monitor) : AppleDisplayCard :=
  reset
    { monitor := monitor
      vramKiB := vramKiB
      vram := Vector.replicate _ 0
      palette := Vector.replicate 256 0xff000000
      crtc := resetCrtc }

/-- The sum of the position and the cycles is a 64-bit one. -/
def tick (s : AppleDisplayCard) (cycles : Nat) : AppleDisplayCard :=
  let s :=
    { s with frameCyclePosition := (s.frameCyclePosition + cycles) % UInt64.size % cyclesPerVbl }
  if s.vblCycles ≤ cycles then
    { s with
      vblCycles := cyclesPerVbl - (cycles - s.vblCycles) % cyclesPerVbl
      irqAsserted := !s.vblDisabled || s.irqAsserted }
  else { s with vblCycles := s.vblCycles - cycles }

/-! ## The raster -/

def directRgbActive (s : AppleDisplayCard) : Bool := s.control &&& 0x0004 != 0

def vtotal (s : AppleDisplayCard) : Nat :=
  s.crtc.vactive.toNat + s.crtc.vbporch.toNat + s.crtc.vsync.toNat + s.crtc.vfporch.toNat

def unsupportedInterlacedMode (s : AppleDisplayCard) : Bool :=
  s.vtotal % 2 != 0 || s.control &&& 0x0030 != 0

/-- The scale of the horizontal counts. -/
def rasterScale (s : AppleDisplayCard) : Nat :=
  match s.ramdacMode.toNat with
  | 0x00 => 5
  | 0x04 => 4
  | 0x08 => 3
  | 0x0c => 2
  | 0x0d => 0
  | _ => 2

/-- A horizontal count in pixels, before it is divided. -/
def scaled (s : AppleDisplayCard) (count : Nat) : Int :=
  ((count <<< s.rasterScale) >>> (if s.control &&& 0x0020 ≠ 0 then 2 else 0) : Nat)

def updateRaster (s : AppleDisplayCard) : AppleDisplayCard :=
  if s.vtotal = 0 ∨ s.crtc.vactive = 0 ∨ s.preload = 256 then s
  else
    let interlaceShift := if s.vtotal % 2 ≠ 0 then 0 else 1
    let divider : Int := 256 - s.preload.toNat
    let width := (s.scaled (s.crtc.hactive.toNat + 2)).tdiv divider
    let height : Int := (s.crtc.vactive.toNat >>> interlaceShift : Nat)
    { s with
      visibleLeft := (s.scaled (s.crtc.hbporch.toNat + s.crtc.hsync.toNat + 4)).tdiv divider
      width := if width ≤ 0 ∨ 4096 < width then 640 else width
      visibleTop := ((s.crtc.vsync.toNat + s.crtc.vbporch.toNat) >>> interlaceShift : Nat)
      height := if height ≤ 0 ∨ 2160 < height then 480 else height }

/-! ## The registers -/

def writeJmfb (s : AppleDisplayCard) (offset data : UInt32) : AppleDisplayCard :=
  let data := data &&& 0xffff
  if offset = 0x00 then
    let s := { s with control := data.toUInt16 &&& 0x7fff }
    if s.unsupportedInterlacedMode then
      { s with unsupportedInterlaceSelections := s.unsupportedInterlaceSelections + 1 }
    else s
  else if offset = 0x04 then updateRaster { s with preload := data.toUInt16 &&& 0xff }
  else if offset = 0x08 then { s with base := data }
  else if offset = 0x0c then { s with stride := data }
  else s

def readJmfb (s : AppleDisplayCard) (offset : UInt32) : UInt32 :=
  if offset = 0x00 then
    let sense := (monitorInfo s.monitor).sense
    let lines := sense[0]
    let lines := if s.control &&& 0x0800 ≠ 0 then lines &&& sense[1] else lines
    let lines := if s.control &&& 0x0400 ≠ 0 then lines &&& sense[2] else lines
    let lines := if s.control &&& 0x0200 ≠ 0 then lines &&& sense[3] else lines
    (s.control.toUInt32 &&& (0xf1ff : UInt32)) ||| (lines.toUInt32 <<< 9)
  else if offset = 0x04 then s.preload.toUInt32
  else if offset = 0x08 then s.base
  else if offset = 0x0c then s.stride
  else 0

def writeCrtc (s : AppleDisplayCard) (offset data : UInt32) : AppleDisplayCard :=
  let count := data.toUInt16 &&& 0x0fff
  match offset.toNat with
  | 0x08 => updateRaster { s with crtc.hhalf := count }
  | 0x0c => updateRaster { s with crtc.hactive := count }
  | 0x10 => updateRaster { s with crtc.hbporch := count }
  | 0x14 => updateRaster { s with crtc.hsync := count }
  | 0x18 => updateRaster { s with crtc.hfporch := count }
  | 0x24 => updateRaster { s with crtc.vactive := count }
  | 0x28 => updateRaster { s with crtc.vbporch := count }
  | 0x2c => updateRaster { s with crtc.vsync := count }
  | 0x30 => updateRaster { s with crtc.vfporch := count }
  | 0x3c => { s with vblDisabled := data &&& 2 != 0 }
  | 0x48 => { s with irqAsserted := false }
  | _ => s

/-- The status of the beam. -/
def beamStatus (s : AppleDisplayCard) : UInt32 :=
  let divider : Int := 256 - s.preload.toNat
  if s.vtotal = 0 ∨ s.crtc.vactive = 0 ∨ divider ≤ 0 then 0x0f
  else
    let interlace := s.vtotal % 2 != 0
    let htotal := s.crtc.hactive.toNat + s.crtc.hbporch.toNat + s.crtc.hsync.toNat + s.crtc.hfporch.toNat + 8
    let hpixels := max 1 ((s.scaled htotal).tdiv divider)
    let vlines : Int := max 1 ((s.vtotal >>> (if interlace then 0 else 1) : Nat) : Int)
    let beamPixel := (s.frameCyclePosition * (hpixels * vlines)) / cyclesPerVbl
    let vpos := beamPixel / hpixels
    let hpos := beamPixel % hpixels
    let hsplit := s.visibleLeft + s.halflinePixels.toNat
    let halfline := if interlace then vpos else vpos * 2 + (if hsplit ≤ hpos then 1 else 0)
    let blank : UInt32 := if hpos < s.visibleLeft ∨ s.visibleLeft + s.width ≤ hpos then 0x2f else 0x0f
    if halfline < s.crtc.vsync.toNat then blank &&& ~~~0x04
    else if halfline < s.crtc.vsync.toNat + s.crtc.vbporch.toNat then blank &&& ~~~0x02
    else if halfline < s.crtc.vsync.toNat + s.crtc.vbporch.toNat + s.crtc.vactive.toNat then blank &&& ~~~0x01
    else blank &&& ~~~0x08

def readCrtc (s : AppleDisplayCard) (offset : UInt32) : UInt32 :=
  match offset.toNat with
  | 0x08 => s.crtc.hhalf.toUInt32
  | 0x0c => s.crtc.hactive.toUInt32
  | 0x10 => s.crtc.hbporch.toUInt32
  | 0x14 => s.crtc.hsync.toUInt32
  | 0x18 => s.crtc.hfporch.toUInt32
  | 0x24 => s.crtc.vactive.toUInt32
  | 0x28 => s.crtc.vbporch.toUInt32
  | 0x2c => s.crtc.vsync.toUInt32
  | 0x30 => s.crtc.vfporch.toUInt32
  | 0xc0 => s.beamStatus
  | _ => 0

def writeRamdac (s : AppleDisplayCard) (offset data : UInt32) : AppleDisplayCard :=
  if offset = 0x00 then { s with clutAddress := data.toUInt8, clutComponent := 0 }
  else if offset = 0x04 then
    let latch := s.paletteLatch.set s.clutComponent data.toUInt8
    if s.clutComponent = 2 then
      { s with
        paletteLatch := latch
        palette := s.palette.set s.clutAddress.toNat (rgbColor (latch.get 0) (latch.get 1) (latch.get 2))
          s.clutAddress.toNat_lt
        clutAddress := s.clutAddress + 1
        clutComponent := 0 }
    else { s with paletteLatch := latch, clutComponent := s.clutComponent + 1 }
  else if offset = 0x08 then
    updateRaster
      { s with
        ramdacMode := (data.toUInt8 >>> 1) &&& 0x0f
        ramdacConvolution := data.toUInt8 &&& 1 }
  else s

def readRamdac (s : AppleDisplayCard) (offset : UInt32) : UInt32 :=
  if offset = 0x00 then s.clutAddress.toUInt32 else 0

/-- Four bits of a divider of the clock. -/
def writeNibble (register : UInt16) (offset data : UInt32) : UInt16 :=
  let shift := ((offset &&& 3) * 4).toUInt16
  (register &&& ~~~((0x0f : UInt16) <<< shift)) ||| (data.toUInt16 <<< shift)

def writeClockGenerator (s : AppleDisplayCard) (offset data : UInt32) : AppleDisplayCard :=
  let data := data &&& 0x0f
  if offset ≤ 0x0c then updateRaster { s with multiplier := writeNibble s.multiplier offset data }
  else if offset ≤ 0x18 then updateRaster { s with modulus := writeNibble s.modulus offset data }
  else if offset = 0x24 then updateRaster { s with pixelClockDivider := data.toUInt8 }
  else s

/-- The windows of the registers. -/
def inJmfb (localOffset : UInt32) : Prop := jmfbBase ≤ localOffset ∧ localOffset < jmfbBase + 0x10
def inCrtc (localOffset : UInt32) : Prop := crtcBase ≤ localOffset ∧ localOffset < crtcBase + 0x100
def inRamdac (localOffset : UInt32) : Prop := ramdacBase ≤ localOffset ∧ localOffset < ramdacBase + 0x10
def inClockGenerator (localOffset : UInt32) : Prop :=
  clockGeneratorBase ≤ localOffset ∧ localOffset < clockGeneratorBase + 0x40

instance : DecidablePred inJmfb := fun _ => inferInstanceAs (Decidable (_ ∧ _))
instance : DecidablePred inCrtc := fun _ => inferInstanceAs (Decidable (_ ∧ _))
instance : DecidablePred inRamdac := fun _ => inferInstanceAs (Decidable (_ ∧ _))
instance : DecidablePred inClockGenerator := fun _ => inferInstanceAs (Decidable (_ ∧ _))

def readRegisterByte (s : AppleDisplayCard) (localOffset : UInt32) : UInt8 :=
  let value :=
    if inJmfb localOffset then s.readJmfb ((localOffset - jmfbBase) &&& ~~~3)
    else if inCrtc localOffset then s.readCrtc ((localOffset - crtcBase) &&& ~~~3)
    else if inRamdac localOffset then s.readRamdac ((localOffset - ramdacBase) &&& ~~~3)
    else 0
  (value >>> (24 - (localOffset &&& 3) * 8)).toUInt8

/-- A write outside the windows of the registers does nothing. -/
def writeRegister (s : AppleDisplayCard) (localOffset data : UInt32) : AppleDisplayCard :=
  if inJmfb localOffset then s.writeJmfb ((localOffset - jmfbBase) &&& ~~~3) data
  else if inCrtc localOffset then s.writeCrtc ((localOffset - crtcBase) &&& ~~~3) data
  else if inRamdac localOffset then s.writeRamdac ((localOffset - ramdacBase) &&& ~~~3) data
  else if inClockGenerator localOffset then
    s.writeClockGenerator ((localOffset - clockGeneratorBase) &&& ~~~3) data
  else s

/-! ## The memory -/

def writeVram (s : AppleDisplayCard) (index : Nat) (byte : UInt8) : Option AppleDisplayCard :=
  if h : index < 1024 * clampVramKiB s.vramKiB then some { s with vram := s.vram.set index byte }
  else none

/-- Where the three bytes of a pixel of four are. -/
def colorOffset (localOffset : UInt32) : Nat := localOffset.toNat / 4 * 3

def packedRgbRead32 (s : AppleDisplayCard) (localOffset : UInt32) : Option UInt32 :=
  let color := colorOffset localOffset
  if s.vramBytes ≤ color + 2 then some 0
  else
    s.vram[color]?.bind fun red => s.vram[color + 1]?.bind fun green => s.vram[color + 2]?.bind fun blue =>
      some ((red.toUInt32 <<< 16) ||| (green.toUInt32 <<< 8) ||| blue.toUInt32)

def packedRgbWrite32 (s : AppleDisplayCard) (localOffset value : UInt32) : Option AppleDisplayCard :=
  let color := colorOffset localOffset
  if s.vramBytes ≤ color + 2 then some s
  else
    (s.writeVram color (value >>> 16).toUInt8).bind fun s =>
      (s.writeVram (color + 1) (value >>> 8).toUInt8).bind fun s =>
        s.writeVram (color + 2) value.toUInt8

/-! ## The accesses -/

/-- The declaration ROM that an offset falls into, when one is loaded. -/
def romIndex (s : AppleDisplayCard) (offset : UInt32) : Option Nat :=
  if ¬ s.declarationRomLoaded then none
  else if superDeclarationRomBase.toNat ≤ offset.toNat ∧
      offset.toNat < superDeclarationRomBase.toNat + mappedDeclarationRomBytes then
    some (offset.toNat - superDeclarationRomBase.toNat)
  else if standardDeclarationRomBase.toNat ≤ offset.toNat ∧
      offset.toNat < standardDeclarationRomBase.toNat + mappedDeclarationRomBytes then
    some (offset.toNat - standardDeclarationRomBase.toNat)
  else none

def readByte (s : AppleDisplayCard) (offset : UInt32) : Option UInt8 :=
  let localOffset := offset &&& 0x00ffffff
  match s.romIndex offset with
  | some index => s.declarationRom[index]?
  | none =>
    if localOffset < vramWindowLimit then
      if s.directRgbActive then
        (s.packedRgbRead32 (localOffset &&& ~~~3)).map fun value =>
          (value >>> (24 - (localOffset &&& 3) * 8)).toUInt8
      else if localOffset.toNat < s.vramBytes then s.vram[localOffset.toNat]?
      else some 0xff
    else if inJmfb localOffset ∨ inCrtc localOffset ∨ inRamdac localOffset then
      some (s.readRegisterByte localOffset)
    else some 0xff

/-- Reads leave the card as it is. -/
def read8 (s : AppleDisplayCard) (offset : UInt32) : Option (UInt8 × AppleDisplayCard) :=
  (s.readByte offset).map fun value => (value, s)

def write8 (s : AppleDisplayCard) (offset : UInt32) (value : UInt8) : Option AppleDisplayCard :=
  let localOffset := offset &&& 0x00ffffff
  if localOffset < vramWindowLimit then
    if s.directRgbActive then
      (s.packedRgbRead32 (localOffset &&& ~~~3)).bind fun current =>
        let shift := 24 - (localOffset &&& 3) * 8
        s.packedRgbWrite32 (localOffset &&& ~~~3)
          ((current &&& ~~~((0xff : UInt32) <<< shift)) ||| (value.toUInt32 <<< shift))
    else if localOffset.toNat < s.vramBytes then s.writeVram localOffset.toNat value
    else some s
  else some (s.writeRegister localOffset (smearRegisterByte value))

def write16 (s : AppleDisplayCard) (offset : UInt32) (value : UInt16) : Option AppleDisplayCard :=
  let localOffset := offset &&& 0x00ffffff
  if inJmfb localOffset ∨ inCrtc localOffset ∨ inRamdac localOffset ∨ inClockGenerator localOffset then
    some (s.writeRegister localOffset value.toUInt32)
  else
    (s.write8 offset (value >>> 8).toUInt8).bind fun s => s.write8 (offset + 1) value.toUInt8

/-- The bytes that fall into the memory are written, the others are dropped. -/
def writeLanes (s : AppleDisplayCard) (index : Nat) : List UInt8 → Option AppleDisplayCard
  | [] => some s
  | b :: bs =>
    if index < s.vramBytes then (s.writeVram index b).bind fun s => writeLanes s (index + 1) bs
    else writeLanes s (index + 1) bs

def write32 (s : AppleDisplayCard) (offset value : UInt32) : Option AppleDisplayCard :=
  let localOffset := offset &&& 0x00ffffff
  if localOffset < vramWindowLimit then
    if s.directRgbActive then s.packedRgbWrite32 localOffset value
    else s.writeLanes localOffset.toNat (bytes32 value)
  else some (s.writeRegister localOffset value)

def read16 := NuBusCard.read16 read8
def read32 := NuBusCard.read32 read8

/-! ## The frame -/

def indexedDepth (s : AppleDisplayCard) : Nat :=
  match s.ramdacMode.toNat with
  | 0x00 => 1
  | 0x04 => 2
  | 0x08 => 4
  | 0x0c => 8
  | _ => 8

def indexedStrideBytes (s : AppleDisplayCard) : Nat := s.stride.toNat * 4

def framebufferOffsetBytes (s : AppleDisplayCard) : Nat :=
  s.base.toNat * (if s.directRgbActive then 64 else 32)

/-- The rows that are left in the memory from the start of the picture on. -/
def scanoutPixels (s : AppleDisplayCard) (stride : Nat) : List UInt8 :=
  (s.vram.toList.drop s.framebufferOffsetBytes).take (stride * s.height.toNat)

def videoFrame (s : AppleDisplayCard) : VideoFrame :=
  if s.unsupportedInterlacedMode then {}
  else if s.directRgbActive ∧ s.ramdacMode = 0x0d then
    let stride := s.stride.toNat * 8
    { width := Int32.ofInt s.width
      height := Int32.ofInt s.height
      strideBytes := Int32.ofNat stride
      storage := .direct
      bitsPerPixel := 24
      pixels := scanoutDirectPixels (s.scanoutPixels stride) s.monitor
      channels := ⟨0xff0000, 0x00ff00, 0x0000ff, 0⟩
      grabbable := true }
  else
    { width := Int32.ofInt s.width
      height := Int32.ofInt s.height
      strideBytes := Int32.ofNat s.indexedStrideBytes
      storage := .indexed
      bitsPerPixel := Int32.ofNat s.indexedDepth
      pixels := s.scanoutPixels s.indexedStrideBytes
      colorTable := scanoutPalette s.palette.toList s.monitor s.indexedDepth
      pixelToColorIndex := (List.range (2 ^ s.indexedDepth)).map UInt16.ofNat
      grabbable := true }

end AppleDisplayCard

end CuteMac.Video
