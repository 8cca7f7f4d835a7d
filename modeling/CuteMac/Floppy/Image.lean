/-
  The floppy image in a drive.

  * `FloppyDiskImage`: the state of an image, and the files around it;
  * `buildTrackBytes`, `buildMfmTrack`: the bytes of a track;
  * `commitSector`, `persistImage`: a sector is written, and the backing file;
  * `load`: the image of a file.
-/
import CuteMac.Floppy.Container
import CuteMac.Floppy.Mfm

namespace CuteMac.Floppy

open Slice

/-! ## State -/

/-- The bytes of the track under the head. -/
structure TrackCache where
  track : Int := -1
  side : Int := -1
  bytes : List UInt8 := []
  marks : List Bool := []
  cursor : Nat := 0

/-- The files around the emulator; `saveOk n` says whether the `n`-th save succeeds. -/
structure Host where
  files : String → Option (List UInt8)
  isWritable : String → Bool
  saveOk : Nat → Bool
  saves : Nat := 0

/-- A file without a name cannot be opened. -/
def Host.readAll (host : Host) (path : String) : Option (List UInt8) :=
  if path = "" then none else host.files path

/-- A save replaces the file or leaves it as it is. -/
def Host.save (host : Host) (path : String) (output : List UInt8) : Host × Bool :=
  if host.saveOk host.saves then
    ({ host with
      files := fun p => if p = path then some output else host.files p
      saves := host.saves + 1 }, true)
  else ({ host with saves := host.saves + 1 }, false)

/-- A sector that was written into the image. -/
structure Commit where
  block : Nat
  data : List UInt8
  tags : List UInt8
  saved : Bool
  deriving DecidableEq

/-- The members of the source's class; `host` are the files, `commits` records the sectors
written. -/
structure FloppyDiskImage where
  path : String := ""
  kind : Kind := .empty
  data : List UInt8 := []
  tags : List (List UInt8) := []
  diskCopyHeader : List UInt8 := []
  writable : Bool := false
  forceReadOnly : Bool := false
  doubleSided : Bool := false
  highDensity : Bool := false
  mediaChanged : Bool := false
  motorOn : Bool := false
  currentTrack : Nat := 0
  currentSide : Nat := 0
  trackCache : TrackCache := {}
  writeBytes : List UInt8 := []
  writeMarks : List Bool := []
  writeMfmSector : Int := -1
  writeFailed : Bool := false
  traceEnabled : Bool := false
  traceShift : UInt32 := 0
  traceEvents : List String := []
  lastNibbles : List UInt8 := []
  host : Host
  commits : List Commit := []

namespace FloppyDiskImage

def inserted (d : FloppyDiskImage) : Bool := d.kind != .empty

def invalidateTrackCache (d : FloppyDiskImage) : FloppyDiskImage := { d with trackCache := {} }

/-! ## Tracks -/

/-- The tag and the data of a sector; zeros where the image has none. -/
def sectorPayload (d : FloppyDiskImage) (physicalTrack side logicalSector : Nat) : List UInt8 :=
  let blk := firstBlockForTrack physicalTrack side d.doubleSided + logicalSector
  if blk < d.data.length / bytesPerSector then
    let tag := d.tags.getD blk []
    (if tag.length = tagBytesPerSector then tag else List.replicate tagBytesPerSector 0) ++
      block bytesPerSector d.data blk
  else List.replicate encodedPayloadBytes 0

/-- What `appendSector` appends. -/
def sectorBytes (d : FloppyDiskImage) (physicalTrack side logicalSector : Nat) : List UInt8 :=
  let formatByte : UInt8 := if d.doubleSided then 0x22 else 0x02
  let trackLow := UInt8.ofNat physicalTrack &&& 0x3f
  let sideAndTrackHigh :=
    (UInt8.ofNat (physicalTrack / 64) &&& 0x01) ||| (if side ≠ 0 then 0x20 else 0x00)
  let addressChecksum :=
    formatByte ^^^ trackLow ^^^ sideAndTrackHigh ^^^ UInt8.ofNat logicalSector
  List.replicate 18 0xff ++ [0xd5, 0xaa, 0x96] ++
    [gcr trackLow, gcr (UInt8.ofNat logicalSector), gcr sideAndTrackHigh, gcr formatByte,
      gcr addressChecksum] ++
    [0xde, 0xaa, 0xff] ++ List.replicate 14 0xff ++ [0xd5, 0xaa, 0xad] ++
    [gcr (UInt8.ofNat logicalSector)] ++
    encodedPayload (d.sectorPayload physicalTrack side logicalSector) ++ [0xde, 0xaa, 0xff] ++
    List.replicate 8 0xff

def buildTrackBytes (d : FloppyDiskImage) (physicalTrack side : Nat) : List UInt8 :=
  if !d.inserted then []
  else
    List.replicate 48 0xff ++
      (interleavedSectorOrder (sectorsForTrack physicalTrack)).flatMap
        (d.sectorBytes physicalTrack side) ++
      List.replicate 128 0xff

def buildMfmTrack (d : FloppyDiskImage) (physicalTrack side : Nat) : List DiskByte :=
  mfmTrack d.data physicalTrack side

def rebuildTrackCache (d : FloppyDiskImage) : FloppyDiskImage :=
  { d with
    trackCache := {
      track := d.currentTrack
      side := d.currentSide
      cursor := 0
      bytes :=
        if d.highDensity then (d.buildMfmTrack d.currentTrack d.currentSide).map DiskByte.value
        else d.buildTrackBytes d.currentTrack d.currentSide
      marks :=
        if d.highDensity then (d.buildMfmTrack d.currentTrack d.currentSide).map DiskByte.mark
        else [] } }

/-- The cache is rebuilt when it is not the one of the track under the head. -/
def ensureTrackCache (d : FloppyDiskImage) : FloppyDiskImage :=
  if d.trackCache.bytes = [] ∨ d.trackCache.track ≠ d.currentTrack ∨
      d.trackCache.side ≠ d.currentSide then d.rebuildTrackCache
  else d

/-! ## The backing file -/

/-- The file that `persistImage` writes. -/
def imageBytes (d : FloppyDiskImage) : Option (List UInt8) :=
  if d.kind = .diskCopy42 then
    if d.diskCopyHeader.length ≠ headerBytes then none
    else
      let tagBytes := d.tags.flatten
      let output := d.diskCopyHeader ++ d.data ++ tagBytes
      let output := writeBe32 output 72 (diskCopyChecksum d.data)
      -- the first sector's tag is excluded from the tag check sum
      some (writeBe32 output 76 (diskCopyChecksum (tagBytes.drop tagBytesPerSector)))
  else some d.data

def persistImage (d : FloppyDiskImage) : FloppyDiskImage × Bool :=
  if !d.writable ∨ d.path = "" then (d, false)
  else
    match d.imageBytes with
    | none => (d, false)
    | some output =>
      let (host, ok) := d.host.save d.path output
      ({ d with host := host }, ok)

/-- The block of a sector of the track under the head. -/
def sectorBlock (d : FloppyDiskImage) (logicalSector : Int) : Int :=
  if d.highDensity then
    ((d.currentTrack * 2 + d.currentSide) * sectorsPerTrack : Nat) + logicalSector
  else (firstBlockForTrack d.currentTrack d.currentSide d.doubleSided : Nat) + logicalSector

/-- The copy of a sector in memory; a tag is kept where the image has tags. -/
def putSector (d : FloppyDiskImage) (blk : Nat) (data tags : List UInt8) : FloppyDiskImage :=
  { d with
    data := putBlock bytesPerSector d.data blk data
    tags :=
      if tags ≠ [] ∧ blk < d.tags.length ∧ tags.length = tagBytesPerSector then d.tags.set blk tags
      else d.tags }

def commitSector (d : FloppyDiskImage) (logicalSector : Int) (data : List UInt8)
    (tags : List UInt8 := []) : FloppyDiskImage × Bool :=
  if data.length ≠ bytesPerSector then (d, false)
  else
    let blk := d.sectorBlock logicalSector
    if blk < 0 ∨ (d.data.length / bytesPerSector : Nat) ≤ blk then (d, false)
    else
      let (d, ok) := (d.putSector blk.toNat data tags).persistImage
      let commit : Commit := { block := blk.toNat, data := data, tags := tags, saved := ok }
      let d := { d with commits := d.commits ++ [commit] }
      if !ok then ({ d with writeFailed := true }, false)
      else (d.invalidateTrackCache, true)

/-! ## Loading -/

/-- What `loadRaw` and `loadDiskCopy42` do once the file is accepted. -/
def insert (d : FloppyDiskImage) (path : String) (kind : Kind) (header data : List UInt8)
    (tags : List (List UInt8)) (doubleSided highDensity : Bool) : FloppyDiskImage :=
  { d with
    path := path
    kind := kind
    diskCopyHeader := header
    data := data
    tags := tags
    writable := !d.forceReadOnly && d.host.isWritable path
    doubleSided := doubleSided
    highDensity := highDensity
    currentTrack := 0
    currentSide := 0
    mediaChanged := d.kind != .empty || d.path != path || d.mediaChanged
    trackCache := {}
    writeBytes := []
    writeMarks := []
    writeMfmSector := -1
    writeFailed := false }

def loadRaw (d : FloppyDiskImage) (path : String) (bytes : List UInt8) (kind : Kind) :
    FloppyDiskImage × Bool :=
  (d.insert path kind [] bytes [] (kind != .raw400K) (kind == .raw1440K), true)

/-- The sums of sizes are 32-bit, as in the source. -/
def loadDiskCopy42 (d : FloppyDiskImage) (path : String) (bytes : List UInt8) :
    FloppyDiskImage × Bool :=
  let dataSize := (readBe32 bytes 64).toNat
  let tagSize := (readBe32 bytes 68).toNat
  if (dataSize ≠ raw400KBytes ∧ dataSize ≠ raw800KBytes ∧ dataSize ≠ raw1440KBytes) ∨
      bytes.length < (headerBytes + dataSize + tagSize) % 2 ^ 32 then (d, false)
  else if tagSize ≠ 0 ∧ tagSize ≠ dataSize / bytesPerSector * tagBytesPerSector then (d, false)
  else
    let tagBytes := mid bytes (headerBytes + dataSize) tagSize
    let tags := (List.range (tagSize / tagBytesPerSector)).map (block tagBytesPerSector tagBytes)
    (d.insert path .diskCopy42 (bytes.take headerBytes) (mid bytes headerBytes dataSize) tags
      (dataSize != raw400KBytes) (dataSize == raw1440KBytes), true)

/-- A file cut short is filled up with zeros. -/
def padded (bytes : List UInt8) (size : Nat) : List UInt8 :=
  bytes.take size ++ List.replicate (size - bytes.length) 0

def load (d : FloppyDiskImage) (path : String) (readOnly : Bool := false) :
    FloppyDiskImage × Bool :=
  let d := { d with forceReadOnly := readOnly }
  match d.host.readAll path with
  | none => (d, false)
  | some bytes =>
    if bytes.length = raw400KBytes then d.loadRaw path bytes .raw400K
    else if bytes.length = raw800KBytes then d.loadRaw path bytes .raw800K
    else if bytes.length = raw1440KBytes then d.loadRaw path bytes .raw1440K
    else if truncatedRawHfsKind bytes = .raw800K then
      d.loadRaw path (padded bytes raw800KBytes) .raw800K
    else if truncatedRawHfsKind bytes = .raw1440K then
      d.loadRaw path (padded bytes raw1440KBytes) .raw1440K
    else if headerBytes ≤ bytes.length then d.loadDiskCopy42 path bytes
    else (d, false)

end FloppyDiskImage

end CuteMac.Floppy
