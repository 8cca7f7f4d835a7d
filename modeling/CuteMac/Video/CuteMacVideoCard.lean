/-
  The card that is made for the emulator (`CuteMacVideoCard.cpp`).

  * `CuteMacVideoCard`: the memory, the palette, the vertical blank and the services for
    the guest;
  * `make`, `reset`, `tick`;
  * `read8`, `write8`: the accesses, `fillGrayScreen` behind one of the registers;
  * `videoFrame`: what is shown.

  The declaration ROM, whose driver is made by the build, is a field; an access is `none`
  where it would use a byte outside an array of the card.
-/
import CuteMac.Video.AcceleratedVideoCard
import CuteMac.Video.MacintoshIIVideoCard
import CuteMac.Video.VideoFrame

namespace CuteMac.Video

namespace CuteMacCard

def declarationRomBase : UInt32 := 0x00f00000
def standardSlotLocalMask : UInt32 := 0x000fffff
def modeRegister : UInt32 := 0x000e0000
def interruptRegister : UInt32 := 0x000e0001
def paletteAddressRegister : UInt32 := 0x000e0002
def paletteRedRegister : UInt32 := 0x000e0003
def paletteGreenRegister : UInt32 := 0x000e0004
def paletteBlueRegister : UInt32 := 0x000e0005
def grayScreenRegister : UInt32 := 0x000e0006
def guestServicesBase : UInt32 := 0x000e1000
def guestServicesCommand : UInt32 := 0x000e1010
def guestPointerBase : UInt32 := 0x000e1018
def guestServicesSignature : List UInt8 := [0x43, 0x54, 0x4d, 0x43]
def guestServicesVersion : UInt8 := 2
def guestServicesAbsolutePointer : UInt8 := 2
def declarationRomBytes : UInt32 := 4096
def cyclesPerVbl : Nat := 260608

/-- The depths, by the values of the mode register. -/
def depths : List Int32 := [1, 2, 4, 8, 16, 32]

def indexedGrayPatterns (depth : Int32) : UInt8 × UInt8 :=
  if depth = 1 then (0xaa, 0x55)
  else if depth = 2 then (0xcc, 0x33)
  else if depth = 4 then (0xf0, 0x0f)
  else if depth = 8 then (0xff, 0x00)
  else (0x88, 0x88)

/-- The palette entry of the highest pixel value. -/
def indexedEndpoint (depth : Int32) : UInt8 :=
  if depth = 1 then 1
  else if depth = 2 then 3
  else if depth = 4 then 15
  else 255

def white : UInt32 := 0xffffffff

def black : UInt32 := 0xff000000

/-- The two ends of the screen, at every depth. -/
def setEndpoints (palette : Vector UInt32 256) : Vector UInt32 256 :=
  ((((palette.setIfInBounds 0 white).setIfInBounds 1 black).setIfInBounds 3 black).setIfInBounds 15
    black).setIfInBounds 255 black

def initializePalette : Vector UInt32 256 :=
  setEndpoints <| Vector.ofFn fun index : Fin 256 =>
    let level := UInt8.ofNat (255 - index.val)
    rgbColor level level level

/-- The bytes of a memory of this size, within the limits. -/
def vramBytes (vramKiB : Int32) : Nat := (max 1024 (min (14 * 1024) vramKiB.toInt)).toNat * 1024

theorem vramBytes_le (vramKiB : Int32) : vramBytes vramKiB ≤ vramLimit := by
  unfold vramBytes vramLimit
  omega

theorem length_vramBytes (vramKiB : Int32) :
    (List.replicate (vramBytes vramKiB) (0 : UInt8)).length ≤ vramLimit :=
  (List.length_replicate ..).trans_le (vramBytes_le vramKiB)

theorem length_clear (v : Vram) : (List.replicate v.bytes.length (0 : UInt8)).length ≤ vramLimit :=
  (List.length_replicate ..).trans_le v.bounded

def clear (v : Vram) : Vram := ⟨List.replicate v.bytes.length 0, length_clear v⟩

inductive GuestPowerRequest where
  | none
  | powerOff
  | restart
  deriving DecidableEq, Repr

end CuteMacCard

open CuteMacCard

structure CuteMacVideoCard where
  width : Int32
  height : Int32
  depth : Int32
  maximumDepth : Int32
  acceleration : Bool
  absolutePointer : Bool
  vram : Vram
  declarationRom : List UInt8
  palette : Vector UInt32 256
  paletteAddress : UInt8 := 0
  paletteLatch : Vector UInt8 3 := Vector.replicate 3 0
  vblEnabled : Bool := false
  vblCycles : Nat := 0
  hostPointerX : Int16 := 0
  hostPointerY : Int16 := 0
  hostPointerSequence : UInt8 := 0
  hostPointerValid : Bool := false
  powerRequest : GuestPowerRequest := .none
  deferredPowerRequest : GuestPowerRequest := .none
  powerRequestDelayCycles : Nat := 0
  irqAsserted : Bool := false

namespace CuteMacVideoCard

def reset (s : CuteMacVideoCard) : CuteMacVideoCard :=
  { s with
    vram := clear s.vram
    palette := setEndpoints s.palette
    depth := 1
    vblEnabled := false
    vblCycles := cyclesPerVbl
    hostPointerSequence := 0
    hostPointerValid := false
    powerRequest := .none
    deferredPowerRequest := .none
    powerRequestDelayCycles := 0
    irqAsserted := false }

/-- A card of this size and depth, as far as there are such cards. -/
def make (width height depth vramKiB : Int32) (acceleration absolutePointer : Bool)
    (declarationRom : List UInt8) : CuteMacVideoCard :=
  let depth := if depth ∈ depths then depth else 8
  reset
    { width := max 320 (min 4096 width)
      height := max 200 (min 2160 height)
      depth := depth
      maximumDepth := depth
      acceleration := acceleration
      absolutePointer := absolutePointer
      vram := ⟨List.replicate (vramBytes vramKiB) 0, length_vramBytes vramKiB⟩
      declarationRom := declarationRom
      palette := initializePalette }

def tick (s : CuteMacVideoCard) (cycles : Nat) : CuteMacVideoCard :=
  let s :=
    if s.deferredPowerRequest ≠ .none then
      if s.powerRequestDelayCycles ≤ cycles then
        { s with
          powerRequest := s.deferredPowerRequest
          deferredPowerRequest := .none
          powerRequestDelayCycles := 0 }
      else { s with powerRequestDelayCycles := s.powerRequestDelayCycles - cycles }
    else s
  if s.vblCycles ≤ cycles then
    { s with
      vblCycles := cyclesPerVbl - (cycles - s.vblCycles) % cyclesPerVbl
      irqAsserted := s.vblEnabled || s.irqAsserted }
  else { s with vblCycles := s.vblCycles - cycles }

def strideBytes (s : CuteMacVideoCard) : Int32 := (s.width * s.depth + 31) / 32 * 4

/-! ## The registers -/

def entry (s : CuteMacVideoCard) (index : UInt8) : UInt32 :=
  s.palette.get ⟨index.toNat, index.toNat_lt⟩

/-- The value of the mode register at a depth. -/
def modeValue (depth : Int32) : UInt8 :=
  if depth = 1 then 0
  else if depth = 2 then 1
  else if depth = 4 then 2
  else if depth = 8 then 3
  else if depth = 16 then 4
  else 5

/-- Reads leave the card as it is. -/
def read8 (s : CuteMacVideoCard) (offset : UInt32) : Option UInt8 :=
  if declarationRomBase ≤ offset then s.declarationRom[(offset &&& (declarationRomBytes - 1)).toNat]?
  else
    let offset := offset &&& standardSlotLocalMask
    if offset = modeRegister then some (modeValue s.depth)
    else if offset = interruptRegister then some (if s.vblEnabled then 0 else 1)
    else if offset = paletteAddressRegister then some s.paletteAddress
    else if offset = paletteRedRegister then some (s.entry s.paletteAddress >>> 16).toUInt8
    else if offset = paletteGreenRegister then some (s.entry s.paletteAddress >>> 8).toUInt8
    else if offset = paletteBlueRegister then some (s.entry s.paletteAddress).toUInt8
    else if guestServicesBase ≤ offset ∧ offset < guestServicesBase + 4 then
      guestServicesSignature[(offset - guestServicesBase).toNat]?
    else if offset = guestServicesBase + 4 then some guestServicesVersion
    else if offset = guestServicesBase + 5 then
      some (if s.absolutePointer then guestServicesAbsolutePointer else 0)
    else if offset = guestServicesCommand then some 0
    else if offset = guestPointerBase then some (if s.hostPointerValid then 1 else 0)
    else if offset = guestPointerBase + 1 then some s.hostPointerSequence
    else if offset = guestPointerBase + 2 then some (s.hostPointerX.toUInt16 >>> 8).toUInt8
    else if offset = guestPointerBase + 3 then some s.hostPointerX.toUInt16.toUInt8
    else if offset = guestPointerBase + 4 then some (s.hostPointerY.toUInt16 >>> 8).toUInt8
    else if offset = guestPointerBase + 5 then some s.hostPointerY.toUInt16.toUInt8
    else some (s.vram.bytes[offset.toNat]?.getD 0xff)

/-- The pixels of a gray row, which has this many bytes. -/
def grayRow (depth : Int32) (y count : Nat) : List UInt8 :=
  let patterns := indexedGrayPatterns depth
  if depth = 8 then
    (List.range count).map fun x => if (x + y) % 2 = 0 then patterns.1 else patterns.2
  else List.replicate count (if y % 2 = 0 then patterns.1 else patterns.2)

/-- The bytes from `first` on, below `last`; a row that begins behind its end is not to be
    filled. -/
def fillGrayRow (v : Vram) (depth : Int32) (y first last : Nat) : Option Vram :=
  if last < first then (if depth = 8 then some v else none)
  else v.write first (grayRow depth y (last - first))

/-- The bytes of the screen that are in the memory. -/
def requiredBytes (s : CuteMacVideoCard) : Nat :=
  min s.vram.bytes.length (s.strideBytes.toInt * s.height.toInt).toNat

def fillGrayScreen (s : CuteMacVideoCard) : Option CuteMacVideoCard :=
  let stride := s.strideBytes.toInt.toNat
  let required := s.requiredBytes
  (if s.depth ≤ 8 then
      (List.range s.height.toInt.toNat).foldlM
        (fun v y => fillGrayRow v s.depth y (y * stride) (min required (y * stride + stride))) s.vram
    else s.vram.memset 0 0x88 required).map fun vram => { s with vram := vram }

/-- The component of the colour that is latched last completes it. -/
def writeBlue (s : CuteMacVideoCard) (value : UInt8) : CuteMacVideoCard :=
  let latch := s.paletteLatch.setIfInBounds 2 value
  let palette :=
    if s.paletteAddress ≠ 0 ∧ s.paletteAddress ≠ indexedEndpoint s.depth then
      s.palette.set s.paletteAddress.toNat (rgbColor (latch.get 0) (latch.get 1) (latch.get 2))
        s.paletteAddress.toNat_lt
    else s.palette
  { s with paletteLatch := latch, palette := palette, paletteAddress := s.paletteAddress + 1 }

/-- A depth above the one the card was made with is not selected. -/
def writeMode (s : CuteMacVideoCard) (value : UInt8) : CuteMacVideoCard :=
  match depths[value.toNat]? with
  | some depth => if depth ≤ s.maximumDepth then { s with depth := depth } else s
  | none => s

def writeCommand (s : CuteMacVideoCard) (value : UInt8) : CuteMacVideoCard :=
  if value = 1 then { s with deferredPowerRequest := .none, powerRequestDelayCycles := 0 }
  else if value = 2 then { s with powerRequest := .restart }
  else s

def write8 (s : CuteMacVideoCard) (offset : UInt32) (value : UInt8) : Option CuteMacVideoCard :=
  if declarationRomBase ≤ offset then some s
  else
    let offset := offset &&& standardSlotLocalMask
    if offset = modeRegister then some (s.writeMode value)
    else if offset = interruptRegister then
      some { s with vblEnabled := value == 0, irqAsserted := value != 0 && s.irqAsserted }
    else if offset = paletteAddressRegister then some { s with paletteAddress := value }
    else if offset = paletteRedRegister then some { s with paletteLatch := s.paletteLatch.setIfInBounds 0 value }
    else if offset = paletteGreenRegister then some { s with paletteLatch := s.paletteLatch.setIfInBounds 1 value }
    else if offset = paletteBlueRegister then some (s.writeBlue value)
    else if offset = grayScreenRegister then s.fillGrayScreen
    else if offset = guestServicesCommand then some (s.writeCommand value)
    else if offset.toNat < s.vram.bytes.length then
      (s.vram.write offset.toNat [value]).map fun vram => { s with vram := vram }
    else some s

/-- The offset is the register whose writes complete a colour. -/
def IsBlue (offset : UInt32) : Prop :=
  ¬ declarationRomBase ≤ offset ∧ offset &&& standardSlotLocalMask = paletteBlueRegister

instance (offset : UInt32) : Decidable (IsBlue offset) := inferInstanceAs (Decidable (_ ∧ _))

/-- What a write can do. -/
inductive Written (s : CuteMacVideoCard) (offset : UInt32) (value : UInt8) :
    Option CuteMacVideoCard → Prop where
  | nothing (h : ¬ IsBlue offset) : Written s offset value (some s)
  | mode (h : ¬ IsBlue offset) : Written s offset value (some (s.writeMode value))
  | interrupt (h : ¬ IsBlue offset) :
    Written s offset value
      (some { s with vblEnabled := value == 0, irqAsserted := value != 0 && s.irqAsserted })
  | address (h : ¬ IsBlue offset) : Written s offset value (some { s with paletteAddress := value })
  | latch (h : ¬ IsBlue offset) (component : Nat) :
    Written s offset value
      (some { s with paletteLatch := s.paletteLatch.setIfInBounds component value })
  | blue (h : IsBlue offset) : Written s offset value (some (s.writeBlue value))
  | gray (h : ¬ IsBlue offset) : Written s offset value s.fillGrayScreen
  | command (h : ¬ IsBlue offset) : Written s offset value (some (s.writeCommand value))
  | memory (h : ¬ IsBlue offset) (address : Nat) (inside : address < s.vram.bytes.length) :
    Written s offset value
      ((s.vram.write address [value]).map fun vram => { s with vram := vram })

theorem write8_written (s : CuteMacVideoCard) (offset : UInt32) (value : UInt8) :
    Written s offset value (s.write8 offset value) := by
  have hother : ∀ register, offset &&& standardSlotLocalMask = register →
      register ≠ paletteBlueRegister → ¬ IsBlue offset := fun _ h hne hblue => hne (h ▸ hblue.2)
  unfold write8
  dsimp only
  by_cases hrom : declarationRomBase ≤ offset
  · rw [if_pos hrom]
    exact .nothing fun h => h.1 hrom
  rw [if_neg hrom]
  by_cases hmode : offset &&& standardSlotLocalMask = modeRegister
  · rw [if_pos hmode]
    exact .mode (hother _ hmode (by decide))
  rw [if_neg hmode]
  by_cases hinterrupt : offset &&& standardSlotLocalMask = interruptRegister
  · rw [if_pos hinterrupt]
    exact .interrupt (hother _ hinterrupt (by decide))
  rw [if_neg hinterrupt]
  by_cases haddress : offset &&& standardSlotLocalMask = paletteAddressRegister
  · rw [if_pos haddress]
    exact .address (hother _ haddress (by decide))
  rw [if_neg haddress]
  by_cases hred : offset &&& standardSlotLocalMask = paletteRedRegister
  · rw [if_pos hred]
    exact .latch (hother _ hred (by decide)) 0
  rw [if_neg hred]
  by_cases hgreen : offset &&& standardSlotLocalMask = paletteGreenRegister
  · rw [if_pos hgreen]
    exact .latch (hother _ hgreen (by decide)) 1
  rw [if_neg hgreen]
  by_cases hblue : offset &&& standardSlotLocalMask = paletteBlueRegister
  · rw [if_pos hblue]
    exact .blue ⟨hrom, hblue⟩
  rw [if_neg hblue]
  have hnot : ¬ IsBlue offset := fun h => hblue h.2
  by_cases hgray : offset &&& standardSlotLocalMask = grayScreenRegister
  · rw [if_pos hgray]
    exact .gray hnot
  rw [if_neg hgray]
  by_cases hcommand : offset &&& standardSlotLocalMask = guestServicesCommand
  · rw [if_pos hcommand]
    exact .command hnot
  rw [if_neg hcommand]
  by_cases hinside : (offset &&& standardSlotLocalMask).toNat < s.vram.bytes.length
  · rw [if_pos hinside]
    exact .memory hnot _ hinside
  · rw [if_neg hinside]
    exact .nothing hnot

/-! ## The host -/

def setHostPointerPosition (s : CuteMacVideoCard) (x y : Int16) : CuteMacVideoCard :=
  if !s.absolutePointer then s
  else
    let clampedX := (max 0 (min x.toInt32 (s.width - 1))).toInt16
    let clampedY := (max 0 (min y.toInt32 (s.height - 1))).toInt16
    if s.hostPointerValid ∧ clampedX = s.hostPointerX ∧ clampedY = s.hostPointerY then s
    else
      { s with
        hostPointerX := clampedX
        hostPointerY := clampedY
        hostPointerSequence := s.hostPointerSequence + 1
        hostPointerValid := true }

def takePowerRequest (s : CuteMacVideoCard) : GuestPowerRequest × CuteMacVideoCard :=
  (s.powerRequest, { s with powerRequest := .none })

def channelLayout (s : CuteMacVideoCard) : ChannelLayout :=
  if s.depth = 16 then ⟨0x7c00, 0x03e0, 0x001f, 0⟩ else ⟨0x00ff0000, 0x0000ff00, 0x000000ff, 0⟩

def videoFrame (s : CuteMacVideoCard) : VideoFrame :=
  let required := s.strideBytes.toInt * s.height.toInt
  if s.vram.bytes.length < required then {}
  else if s.depth ≤ 8 then
    { width := s.width
      height := s.height
      strideBytes := s.strideBytes
      storage := .indexed
      bitsPerPixel := s.depth
      pixels := s.vram.bytes.take required.toNat
      colorTable := s.palette.toList
      pixelToColorIndex := (List.range (2 ^ s.depth.toInt.toNat)).map UInt16.ofNat
      grabbable := !s.absolutePointer }
  else
    { width := s.width
      height := s.height
      strideBytes := s.strideBytes
      storage := .direct
      bitsPerPixel := s.depth
      pixels := s.vram.bytes.take required.toNat
      channels := s.channelLayout
      grabbable := !s.absolutePointer }

end CuteMacVideoCard

end CuteMac.Video
