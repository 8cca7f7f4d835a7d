/-
  The Macintosh II video card (`MacintoshIIVideoCard.cpp`).

  * `MacintoshIIVideoCard`: the memory, the TFB and RAMDAC registers, the vertical blank;
  * `read8`, `write8`, `write32`: the accesses, the memory behind inverted data lanes;
  * `loadDeclarationRom`, `reset`, `tick`.

  An access is `none` where it would use an element outside an array of the card.
-/
import CuteMac.NuBus.NuBusCard
import Mathlib.Tactic.SplitIfs
import CuteMac.Lib.BankSizes

namespace CuteMac.Video

open NuBus

namespace MacintoshII

def declarationRomBytes : Nat := 4096
def mappedDeclarationRomBytes : Nat := declarationRomBytes * 4
def vramBytes : Nat := 512 * 1024

def localMask : UInt32 := 0x000fffff
def declarationRomBase : UInt32 := 0x00ffc000
def cyclesPerVbl : Nat := 261379
def vblankDurationCycles : Nat := (cyclesPerVbl * 45) / 525
def vblankStartDelayCycles : Nat := cyclesPerVbl / 525

end MacintoshII

open MacintoshII

/-- `irqAsserted` is the line to the slot; the callback on it is not modelled. -/
structure MacintoshIIVideoCard where
  declarationRom : List UInt8 := []
  vram : Vector UInt8 vramBytes
  tfbRegisters : Vector UInt8 16
  palette : Vector UInt32 256
  paletteAddress : UInt8 := 0
  paletteComponent : Fin 3 := 0
  paletteLatch : Vector UInt8 3 := Vector.replicate 3 0
  mode : UInt8 := 0
  width : Nat := 640
  height : Nat := 480
  vblEnabled : Bool := false
  vblCycles : Nat := cyclesPerVbl
  vblankCycles : Nat := 0
  vblankStartCycles : Nat := 0
  vblStatusReads : UInt64 := 0
  vblAcks : UInt64 := 0
  vblAssertions : UInt64 := 0
  vblWriteOffsets : Vector UInt64 32 := Vector.replicate 32 0
  irqAsserted : Bool := false

/-- The opaque colour of three components. -/
def rgbColor (red green blue : UInt8) : UInt32 :=
  (0xff000000 : UInt32) ||| (red.toUInt32 <<< 16) ||| (green.toUInt32 <<< 8) ||| blue.toUInt32

/-- The grey ramp that the cards start with, apart from one black entry. -/
def resetPalette (black : Nat) : Vector UInt32 256 :=
  (Vector.ofFn fun index : Fin 256 =>
    let level := UInt8.ofNat (255 - index)
    rgbColor level level level).setIfInBounds black 0xff000000

namespace MacintoshIIVideoCard

def declarationRomLoaded (s : MacintoshIIVideoCard) : Bool :=
  s.declarationRom.length == mappedDeclarationRomBytes

/-- The image of the ROM is stored backwards, and may be inverted. -/
def loadDeclarationRom (s : MacintoshIIVideoCard) (bytes : List UInt8) : Option MacintoshIIVideoCard :=
  if bytes.length ≠ declarationRomBytes then none
  else
    let reversed := bytes.reverse
    let inverted := reversed.getD (declarationRomBytes - 2) 0 == 0xff
    let plain := fun value : UInt8 => if inverted then value ^^^ 0xff else value
    if plain (reversed.getD (declarationRomBytes - 1) 0) ≠ 0xe1 then none
    else
      some { s with declarationRom := reversed.flatMap fun value => [plain value, 0xff, 0xff, 0xff] }

def reset (s : MacintoshIIVideoCard) : MacintoshIIVideoCard :=
  { s with
    tfbRegisters := Vector.replicate 16 0
    vram := Vector.replicate vramBytes 0xff
    palette := resetPalette 0x80
    paletteAddress := 0
    paletteComponent := 0
    mode := 0
    width := 640
    height := 480
    vblEnabled := false
    vblCycles := cyclesPerVbl
    vblankCycles := 0
    vblankStartCycles := 0
    vblStatusReads := 0
    vblAcks := 0
    vblAssertions := 0
    vblWriteOffsets := Vector.replicate 32 0
    irqAsserted := false }

/-- A card as it is made. -/
def powerOn : MacintoshIIVideoCard :=
  reset
    { vram := Vector.replicate vramBytes 0xff
      tfbRegisters := Vector.replicate 16 0
      palette := Vector.replicate 256 0xff000000 }

def tick (s : MacintoshIIVideoCard) (cycles : Nat) : MacintoshIIVideoCard :=
  let blank := s.vblankCycles - cycles
  let (start, blank) :=
    if s.vblankStartCycles ≠ 0 then
      if s.vblankStartCycles ≤ cycles then (0, vblankDurationCycles - (cycles - s.vblankStartCycles))
      else (s.vblankStartCycles - cycles, blank)
    else (s.vblankStartCycles, blank)
  if s.vblCycles ≤ cycles then
    { s with
      vblCycles := cyclesPerVbl - (cycles - s.vblCycles) % cyclesPerVbl
      vblankStartCycles := vblankStartDelayCycles
      vblankCycles := blank
      vblAssertions := if s.vblEnabled then s.vblAssertions + 1 else s.vblAssertions
      irqAsserted := s.vblEnabled || s.irqAsserted }
  else
    { s with
      vblCycles := s.vblCycles - cycles
      vblankStartCycles := start
      vblankCycles := blank }

/-! ## The RAMDAC -/

def writeRamdac (s : MacintoshIIVideoCard) (offset : UInt32) (value : UInt8) : MacintoshIIVideoCard :=
  let value := value ^^^ 0xff
  if offset &&& 3 = 1 ∨ offset &&& 3 = 3 then
    { s with paletteAddress := value, paletteComponent := 0 }
  else if offset &&& 3 = 2 then
    let latch := s.paletteLatch.set s.paletteComponent value
    if s.paletteComponent = 2 then
      { s with
        paletteLatch := latch
        palette := s.palette.set s.paletteAddress.toNat (rgbColor (latch.get 0) (latch.get 1) (latch.get 2))
          s.paletteAddress.toNat_lt
        paletteAddress := s.paletteAddress + 1
        paletteComponent := 0 }
    else { s with paletteLatch := latch, paletteComponent := s.paletteComponent + 1 }
  else s

def readRamdac (s : MacintoshIIVideoCard) (offset : UInt32) : UInt8 × MacintoshIIVideoCard :=
  if offset &&& 3 = 1 ∨ offset &&& 3 = 3 then (s.paletteAddress ^^^ 0xff, s)
  else if offset &&& 3 = 2 then
    let color := s.palette.get ⟨s.paletteAddress.toNat, s.paletteAddress.toNat_lt⟩
    let value := (color >>> UInt32.ofNat (16 - s.paletteComponent * 8)).toUInt8
    if s.paletteComponent = 2 then
      (value ^^^ 0xff, { s with paletteComponent := 0, paletteAddress := s.paletteAddress + 1 })
    else (value ^^^ 0xff, { s with paletteComponent := s.paletteComponent + 1 })
  else (0xff, s)

theorem modeRegister_lt : 15 < 16 := by decide

/-- The raster has one size, whatever the timing registers say. -/
def updateMode (s : MacintoshIIVideoCard) : MacintoshIIVideoCard :=
  { s with mode := (s.tfbRegisters.get ⟨15, modeRegister_lt⟩ >>> 4) &&& 3, width := 640, height := 480 }

/-! ## The accesses -/

def readVram (s : MacintoshIIVideoCard) (index : Nat) : Option UInt8 := s.vram[index]?

def writeVram (s : MacintoshIIVideoCard) (index : Nat) (byte : UInt8) : Option MacintoshIIVideoCard :=
  if h : index < vramBytes then some { s with vram := s.vram.set index byte } else none

def read8 (s : MacintoshIIVideoCard) (offset : UInt32) : Option (UInt8 × MacintoshIIVideoCard) :=
  let localOffset := offset &&& localMask
  if declarationRomBase ≤ offset ∧ s.declarationRomLoaded then
    s.declarationRom[offset.toNat % mappedDeclarationRomBytes]?.map fun value => (value, s)
  else if localOffset < 0x80000 then
    (s.readVram localOffset.toNat).map fun value => (value ^^^ 0xff, s)
  else if 0x90000 ≤ localOffset ∧ localOffset < 0x90020 then
    -- the RAMDAC is on byte lane 0, the other lanes are not driven
    if localOffset &&& 3 = 0 then some (s.readRamdac ((localOffset - 0x90000) >>> 2))
    else some (0xff, s)
  else if 0xd0000 ≤ localOffset ∧ localOffset < 0xe0000 then
    let s := { s with vblStatusReads := s.vblStatusReads + 1 }
    if localOffset &&& 3 ≠ 3 then some (0xff, s)
    else some (if s.vblankCycles ≠ 0 then 0x00 else 0xff, s)
  else some (0xff, s)

/-- A register of the TFB, the value already on its lane. -/
def writeTfb (s : MacintoshIIVideoCard) (localOffset : UInt32) (value : UInt8) : MacintoshIIVideoCard :=
  let index := (((localOffset - 0x80000) >>> 2) &&& 0x0f).toNat
  let s := { s with tfbRegisters := s.tfbRegisters.setIfInBounds index (value ^^^ 0xff) }
  if index = 15 then s.updateMode else s

def writeVbl (s : MacintoshIIVideoCard) (localOffset : UInt32) : MacintoshIIVideoCard :=
  let index := (localOffset &&& 0x1f).toNat
  let s :=
    { s with
      vblWriteOffsets :=
        s.vblWriteOffsets.setIfInBounds index (s.vblWriteOffsets[index]?.getD 0 + 1) }
  if localOffset &&& 0x04 ≠ 0 then { s with vblEnabled := false }
  else { s with vblEnabled := true, vblAcks := s.vblAcks + 1, irqAsserted := false }

def write8 (s : MacintoshIIVideoCard) (offset : UInt32) (value : UInt8) :
    Option MacintoshIIVideoCard :=
  let localOffset := offset &&& localMask
  if localOffset < 0x80000 then s.writeVram localOffset.toNat (value ^^^ 0xff)
  else if localOffset < 0x90000 then
    let value := if localOffset &&& 3 = 1 ∨ localOffset &&& 3 = 2 then 0x00 else value
    some (s.writeTfb localOffset value)
  else if localOffset < 0x90020 then
    if localOffset &&& 3 = 0 then some (s.writeRamdac ((localOffset - 0x90000) >>> 2) value)
    else some s
  else if 0xa0000 ≤ localOffset ∧ localOffset < 0xb0000 then some (s.writeVbl localOffset)
  else some s

/-- The bytes go into the memory one after the other, without a look at its end. -/
def writeVramBytes (s : MacintoshIIVideoCard) (index : Nat) : List UInt8 → Option MacintoshIIVideoCard
  | [] => some s
  | b :: bs => (s.writeVram index (b ^^^ 0xff)).bind fun s => writeVramBytes s (index + 1) bs

def write32 (s : MacintoshIIVideoCard) (offset value : UInt32) : Option MacintoshIIVideoCard :=
  let localOffset := offset &&& localMask
  if localOffset < 0x80000 then s.writeVramBytes localOffset.toNat (bytes32 value)
  else if localOffset < 0x90000 then some (s.writeTfb localOffset value.toUInt8)
  else if localOffset < 0x90020 then
    some (s.writeRamdac ((localOffset - 0x90000) >>> 2) (value >>> 24).toUInt8)
  else if 0xa0000 ≤ localOffset ∧ localOffset < 0xb0000 then
    s.write8 localOffset (value >>> 24).toUInt8
  else some s

def read16 := NuBusCard.read16 read8
def read32 := NuBusCard.read32 read8
def write16 := NuBusCard.write16 write8

end MacintoshIIVideoCard

end CuteMac.Video
