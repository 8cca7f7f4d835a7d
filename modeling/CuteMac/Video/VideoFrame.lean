/-
  Frames and what looks at their pixels (`VideoFrame.h`, `FramebufferRenderer.cpp`,
  `SadMacDetector.cpp`).

  * `VideoFrame`, `valid`: the frame that a video device publishes;
  * `render`: the picture of a frame;
  * `detect`: the search for the Sad Mac.

  A read of a byte outside the pixels is `none`, and so is all that needs it. The
  numbers that are `int` in the source wrap around as `Int32`.
-/
import Mathlib.Data.List.Basic

namespace CuteMac.Video

inductive PixelStorage where
  | indexed
  | direct
  deriving DecidableEq, Repr

inductive ByteOrder where
  | bigEndian
  | littleEndian
  deriving DecidableEq, Repr

inductive BitOrder where
  | mostSignificantFirst
  | leastSignificantFirst
  deriving DecidableEq, Repr

structure ChannelLayout where
  redMask : UInt32 := 0
  greenMask : UInt32 := 0
  blueMask : UInt32 := 0
  alphaMask : UInt32 := 0
  deriving DecidableEq, Repr

structure VideoFrame where
  width : Int32 := 0
  height : Int32 := 0
  strideBytes : Int32 := 0
  storage : PixelStorage := .indexed
  bitsPerPixel : Int32 := 1
  byteOrder : ByteOrder := .bigEndian
  bitOrder : BitOrder := .mostSignificantFirst
  pixels : List UInt8 := []
  colorTable : List UInt32 := []
  pixelToColorIndex : List UInt16 := []
  channels : ChannelLayout := {}
  grabbable : Bool := false
  deriving DecidableEq, Repr

namespace VideoFrame

/-- The depths that the storage can have. -/
def SupportedDepth (frame : VideoFrame) : Prop :=
  match frame.storage with
  | .indexed =>
    frame.bitsPerPixel = 1 ∨ frame.bitsPerPixel = 2 ∨ frame.bitsPerPixel = 4 ∨ frame.bitsPerPixel = 8
  | .direct =>
    frame.bitsPerPixel = 15 ∨ frame.bitsPerPixel = 16 ∨ frame.bitsPerPixel = 24 ∨
      frame.bitsPerPixel = 32

instance (frame : VideoFrame) : Decidable frame.SupportedDepth := by
  unfold SupportedDepth
  split <;> infer_instance

structure Valid (frame : VideoFrame) : Prop where
  width_pos : 0 < frame.width.toInt
  height_pos : 0 < frame.height.toInt
  stride_pos : 0 < frame.strideBytes.toInt
  depth : frame.SupportedDepth
  rows : frame.strideBytes.toInt * frame.height.toInt ≤ frame.pixels.length

theorem valid_iff (frame : VideoFrame) :
    frame.Valid ↔ 0 < frame.width.toInt ∧ 0 < frame.height.toInt ∧ 0 < frame.strideBytes.toInt ∧
      frame.SupportedDepth ∧ frame.strideBytes.toInt * frame.height.toInt ≤ frame.pixels.length :=
  ⟨fun h => ⟨h.1, h.2, h.3, h.4, h.5⟩, fun ⟨h1, h2, h3, h4, h5⟩ => ⟨h1, h2, h3, h4, h5⟩⟩

instance (frame : VideoFrame) : Decidable frame.Valid := decidable_of_iff' _ frame.valid_iff

/-- The byte of the pixels at an address from their start. -/
def byteAt (frame : VideoFrame) (index : Int) : Option UInt8 :=
  if 0 ≤ index then frame.pixels[index.toNat]? else none

/-! ## The renderer -/

/-- `source` is the address of the row. -/
def indexedValue (frame : VideoFrame) (source : Int) (x : Int32) : Option UInt32 :=
  if frame.bitsPerPixel = 8 then (frame.byteAt (source + x.toInt)).map UInt8.toUInt32
  else
    let pixelsPerByte := 8 / frame.bitsPerPixel
    let position := x % pixelsPerByte
    let shift :=
      match frame.bitOrder with
      | .mostSignificantFirst => 8 - frame.bitsPerPixel * (position + 1)
      | .leastSignificantFirst => frame.bitsPerPixel * position
    (frame.byteAt (source + (x / pixelsPerByte).toInt)).map fun byte =>
      (byte.toUInt32 >>> shift.toUInt32) &&& (((1 : UInt32) <<< frame.bitsPerPixel.toUInt32) - 1)

def qRgb (red green blue : UInt32) : UInt32 :=
  (0xff000000 : UInt32) ||| ((red &&& 0xff) <<< 16) ||| ((green &&& 0xff) <<< 8) ||| (blue &&& 0xff)

def indexedColor (frame : VideoFrame) (pixelValue : UInt32) : UInt32 :=
  let colorIndex := (frame.pixelToColorIndex[pixelValue.toNat]?.map UInt16.toUInt32).getD pixelValue
  frame.colorTable[colorIndex.toNat]?.getD <|
    let maximum := max 1 (((1 : UInt32) <<< frame.bitsPerPixel.toUInt32) - 1)
    let value := 255 - pixelValue * 255 / maximum
    qRgb value value value

/-- The value of some bytes, the high one first. -/
def bytesValue (bytes : List UInt8) : UInt32 :=
  bytes.foldl (fun value byte => (value <<< 8) ||| byte.toUInt32) 0

def directValue (frame : VideoFrame) (source : Int) (x : Int32) : Option UInt32 :=
  let bytesPerPixel := (frame.bitsPerPixel + 7) / 8
  let pixel := source + (x * bytesPerPixel).toInt
  ((List.range bytesPerPixel.toNatClampNeg).mapM fun byte : Nat =>
    frame.byteAt (pixel + (byte : Int))).map fun bytes =>
    match frame.byteOrder with
    | .bigEndian => bytesValue bytes
    | .littleEndian => bytesValue bytes.reverse

/-- How far the low bit of a mask is from bit 0. -/
def maskShift : Nat → UInt32 → Nat
  | 0, _ => 0
  | fuel + 1, mask => if mask &&& 1 = 0 then maskShift fuel (mask >>> 1) + 1 else 0

def channel (value mask : UInt32) : UInt32 :=
  if mask = 0 then 0
  else
    let shift := UInt32.ofNat (maskShift 32 mask)
    ((value >>> shift) &&& (mask >>> shift)) * 255 / (mask >>> shift)

/-- The address of a row. -/
def row (frame : VideoFrame) (y : Nat) : Int := (Int32.ofNat y * frame.strideBytes).toInt

def renderPixel (frame : VideoFrame) (y x : Nat) : Option UInt32 :=
  match frame.storage with
  | .indexed => (frame.indexedValue (frame.row y) (Int32.ofNat x)).map frame.indexedColor
  | .direct =>
    (frame.directValue (frame.row y) (Int32.ofNat x)).map fun value =>
      qRgb (channel value frame.channels.redMask) (channel value frame.channels.greenMask)
        (channel value frame.channels.blueMask)

/-- The rows of the picture; the one of an invalid frame is empty. -/
def render (frame : VideoFrame) : Option (List (List UInt32)) :=
  if frame.Valid then
    (List.range frame.height.toNatClampNeg).mapM fun y =>
      (List.range frame.width.toNatClampNeg).mapM fun x => frame.renderPixel y x
  else some []

/-! ## The Sad Mac -/

def darkPixel (frame : VideoFrame) (x y : Int32) : Option Bool :=
  if ¬ frame.Valid ∨ frame.storage ≠ .indexed ∨ x < 0 ∨ y < 0 ∨ frame.width ≤ x ∨ frame.height ≤ y then
    some false
  else
    let bit := x * frame.bitsPerPixel
    (frame.byteAt (y * frame.strideBytes + bit / 8).toInt).map fun byte =>
      let shift :=
        match frame.bitOrder with
        | .mostSignificantFirst => 8 - frame.bitsPerPixel - (bit &&& 7)
        | .leastSignificantFirst => bit &&& 7
      let mask := ((1 : UInt32) <<< frame.bitsPerPixel.toUInt32) - 1
      let value := (byte.toUInt32 >>> shift.toUInt32) &&& mask
      let index := (frame.pixelToColorIndex[value.toNat]?.map UInt16.toUInt32).getD value
      match frame.colorTable[index.toNat]? with
      | none => index != 0
      | some color =>
        let red : UInt32 := (color >>> 16) &&& 0xff
        let green : UInt32 := (color >>> 8) &&& 0xff
        let blue : UInt32 := color &&& 0xff
        decide (red + green + blue < 3 * 128)

/-- The numbers from `first` on, below `last`. -/
def span (first last : Int32) : List Int32 :=
  (List.range (last.toInt - first.toInt).toNat).map fun i => first + Int32.ofNat i

def darkCount (frame : VideoFrame) (y halfWidth : Int32) : Option Nat :=
  let center := frame.width / 2
  (span (max 0 (center - halfWidth)) (min frame.width (center + halfWidth))).foldlM (fun count x =>
    (frame.darkPixel x y).map fun dark => if dark then count + 1 else count) 0

/-- Rows of the two lines of glyphs, as far as they look like glyphs. -/
def glyphRows (frame : VideoFrame) (y : Int32) : List Int32 → Option Bool
  | [] => some true
  | row :: rows =>
    (frame.darkCount (y + row) 48).bind fun first =>
      (frame.darkCount (y + 12 + row) 48).bind fun second =>
        if first < 8 ∨ 55 < first ∨ second < 8 ∨ 55 < second then some false
        else frame.glyphRows y rows

def gapInk (frame : VideoFrame) (y : Int32) : Option Nat :=
  (span 6 12).foldlM (fun ink row => (frame.darkCount (y + row) 48).map (ink + ·)) 0

/-- The ink of the icon, and the rows that have some. -/
def iconInk (frame : VideoFrame) (y : Int32) : Option (Nat × Nat) :=
  (span (max 0 (y - 42)) (y - 4)).foldlM (fun count row =>
    (frame.darkCount row 28).map fun ink =>
      (count.1 + ink, if 2 ≤ ink then count.2 + 1 else count.2)) (0, 0)

/-- The Sad Mac with its glyphs at one of the rows. -/
def detectAt (frame : VideoFrame) : List Int32 → Option Bool
  | [] => some false
  | y :: ys =>
    (frame.glyphRows y (span 0 6)).bind fun glyphs =>
      if !glyphs then frame.detectAt ys
      else
        (frame.gapInk y).bind fun gap =>
          if 4 < gap then frame.detectAt ys
          else
            (frame.iconInk y).bind fun icon =>
              if 100 ≤ icon.1 ∧ 18 ≤ icon.2 then some true else frame.detectAt ys

def detect (frame : VideoFrame) : Option Bool :=
  if ¬ frame.Valid ∨ frame.storage ≠ .indexed then some false
  else frame.detectAt (span (frame.height / 3) (frame.height * 3 / 4 - 18))

end VideoFrame

end CuteMac.Video
