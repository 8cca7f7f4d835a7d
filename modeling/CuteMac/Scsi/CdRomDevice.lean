/-
  The SCSI CD-ROM drive (`ScsiCdRomDevice.h`, `ScsiCdRomDevice.cpp`).

  The drive holds the disc image (empty without a disc), the sense data of the
  last failure, the pending unit attention and the logical block size that
  MODE SELECT negotiates.

  `executeCommand` is the command dispatcher, `apply` the machine whose
  inputs are the calls of the host and the commands of the controllers.
-/
import CuteMac.Scsi.BlockDevice

namespace CuteMac.Scsi

open Slice (mid overwrite)

structure ScsiCdRomDevice where
  image : List UInt8 := []
  imagePath : String := ""
  senseKey : UInt8 := 0
  additionalSenseCode : UInt8 := 0
  unitAttention : Bool := false
  logicalBlockSize : Nat := 2048
  activityCounter : UInt64 := 0
deriving DecidableEq, Repr

namespace ScsiCdRomDevice

def blockSize : Nat := 2048
def senseNoSense : UInt8 := 0x00
def senseNotReady : UInt8 := 0x02
def senseIllegalRequest : UInt8 := 0x05
def senseUnitAttention : UInt8 := 0x06
def ascMediumChanged : UInt8 := 0x28
def ascMediumNotPresent : UInt8 := 0x3a

def be16 (value : Nat) : List UInt8 := [UInt8.ofNat (value >>> 8), UInt8.ofNat value]

/-- A block address as it stands in the table of contents; `frames` is a 32-bit
    number. -/
def address (lba : Nat) (msf : Bool) : List UInt8 :=
  if !msf then be32 lba
  else
    let frames := (lba + 150) % 2 ^ 32
    [0, UInt8.ofNat (frames / (60 * 75)), UInt8.ofNat (frames / 75 % 60), UInt8.ofNat (frames % 75)]

/-! ## Medium -/

/-- `loadImage`; what is refused leaves the drive as it is. -/
def loadImage (host : Host) (d : ScsiCdRomDevice) (path : String) : Bool × ScsiCdRomDevice :=
  match host.readAll path with
  | none => (false, d)
  | some image =>
    if image = [] ∨ image.length % blockSize ≠ 0 then (false, d)
    else
      (true, { d with
        image := image, imagePath := path, senseKey := senseUnitAttention,
        additionalSenseCode := ascMediumChanged, unitAttention := true, activityCounter := 0 })

def eject (d : ScsiCdRomDevice) : ScsiCdRomDevice :=
  { d with
    image := [], imagePath := "", senseKey := senseUnitAttention,
    additionalSenseCode := ascMediumChanged, unitAttention := true, activityCounter := 0 }

def ready (d : ScsiCdRomDevice) : Bool := !d.image.isEmpty

/-- The attention is consumed; the sense data tell whether there is a disc. -/
def acknowledgeMediaChange (d : ScsiCdRomDevice) : ScsiCdRomDevice :=
  { d with
    unitAttention := false
    senseKey := if d.ready then senseNoSense else senseNotReady
    additionalSenseCode := if d.ready then 0 else ascMediumNotPresent }

/-! ## Results -/

def good (data : List UInt8 := []) : ScsiCommandResult :=
  { data := data, status := 0, message := 0, senseKey := senseNoSense }

/-- A CHECK CONDITION that leaves the stored sense data as they are. -/
def refused (senseKey : UInt8) : ScsiCommandResult :=
  { data := [], status := 0x02, message := 0, senseKey := senseKey }

def checkCondition (d : ScsiCdRomDevice) (senseKey asc : UInt8) :
    ScsiCommandResult × ScsiCdRomDevice :=
  (refused senseKey, { d with senseKey := senseKey, additionalSenseCode := asc })

/-! ## Reading -/

/-- `blockCount`, a 32-bit number of 2048-byte blocks. -/
def blockCount (d : ScsiCdRomDevice) : Nat := d.image.length / blockSize % 2 ^ 32

/-- READ of logical blocks, with 64-bit arithmetic. -/
def read (d : ScsiCdRomDevice) (lba blocks : Nat) : ScsiCommandResult × ScsiCdRomDevice :=
  let logicalBlocks := d.image.length / d.logicalBlockSize
  if logicalBlocks < lba ∨ logicalBlocks - lba < blocks then
    d.checkCondition senseIllegalRequest 0x21
  else
    (good (mid d.image (lba * d.logicalBlockSize) (blocks * d.logicalBlockSize)), { d with
      senseKey := senseNoSense, additionalSenseCode := 0,
      activityCounter := d.activityCounter + UInt64.ofNat blocks })

/-- A raw sector of 2352 bytes: sync pattern, address in minutes, seconds and
    frames, mode, data. -/
def rawSector (d : ScsiCdRomDevice) (block : Nat) : List UInt8 :=
  let frames := (block + 150) % 2 ^ 32
  [0] ++ List.replicate 10 0xff ++ [0, UInt8.ofNat (frames / (60 * 75)),
    UInt8.ofNat (frames / 75 % 60), UInt8.ofNat (frames % 75), 1] ++
  mid d.image (block * blockSize) blockSize ++ List.replicate 288 0

def readAppleRaw (d : ScsiCdRomDevice) (lba blocks : Nat) : ScsiCommandResult × ScsiCdRomDevice :=
  if d.blockCount < lba ∨ d.blockCount - lba < blocks then
    d.checkCondition senseIllegalRequest 0x21
  else
    (good ((List.range blocks).flatMap fun block => d.rawSector (lba + block)),
      { d with activityCounter := d.activityCounter + UInt64.ofNat blocks })

/-! ## Commands -/

def modeSelect (d : ScsiCdRomDevice) (tenByte : Bool) (parameters : List UInt8) :
    ScsiCommandResult × ScsiCdRomDevice :=
  let headerSize := if tenByte then 8 else 4
  let descriptorLength := if tenByte then be16At parameters 6 else (byteAt parameters 3).toNat
  let requestedBlockSize :=
    (byteAt parameters (headerSize + 5)).toNat <<< 16 |||
      (byteAt parameters (headerSize + 6)).toNat <<< 8 ||| (byteAt parameters (headerSize + 7)).toNat
  if parameters = [] then (good, d)
  else if parameters.length < headerSize then d.checkCondition senseIllegalRequest 0x26
  else if descriptorLength = 0 then (good, d)
  else if descriptorLength < 8 ∨ parameters.length < headerSize + descriptorLength then
    d.checkCondition senseIllegalRequest 0x26
  else if requestedBlockSize ≠ 512 ∧ requestedBlockSize ≠ 1024 ∧ requestedBlockSize ≠ blockSize then
    d.checkCondition senseIllegalRequest 0x26
  else (good, { d with logicalBlockSize := requestedBlockSize })

def inquiry (allocationLength : UInt8) : ScsiCommandResult :=
  good (([0x05, 0x80, 0x02, 0x01, 31, 0, 0, 0] ++ ascii "MATSHITA" ++ ascii "CD-ROM CR-8004  " ++
    ascii "1.1f").take allocationLength.toNat)

/-- The sense data of the drive. -/
def senseData (d : ScsiCdRomDevice) : List UInt8 :=
  [0x70, 0, d.senseKey, 0, 0, 0, 0, 10, 0, 0, 0, 0, d.additionalSenseCode, 0, 0, 0, 0, 0]

/-- REQUEST SENSE reports the sense data and acknowledges the media change. -/
def requestSense (d : ScsiCdRomDevice) (allocationLength : UInt8) :
    ScsiCommandResult × ScsiCdRomDevice :=
  (good (d.senseData.take allocationLength.toNat), d.acknowledgeMediaChange)

/-- The block descriptor of MODE SENSE. -/
def blockDescriptor (d : ScsiCdRomDevice) : List UInt8 :=
  let blocks := min (d.image.length / d.logicalBlockSize) 0x00ffffff
  [0, UInt8.ofNat (blocks >>> 16), UInt8.ofNat (blocks >>> 8), UInt8.ofNat blocks, 0,
    UInt8.ofNat (d.logicalBlockSize >>> 16), UInt8.ofNat (d.logicalBlockSize >>> 8),
    UInt8.ofNat d.logicalBlockSize]

def errorRecoveryPage : List UInt8 := [0x01, 0x06, 0, 0, 0, 0, 0, 0]
def cdRomPage : List UInt8 := [0x0d, 0x06, 0x00, 0x0d, 0x00, 0x3c, 0x00, 0x4b]
def capabilitiesPage : List UInt8 :=
  [0x2a, 0x0e, 0x00, 0x00, 0x00, 0x03, 0x28, 0x00, 0x05, 0x62, 0x00, 0x00, 0x00, 0x40, 0x05, 0x62]

/-- The mode pages that `modeSense` answers. -/
def hasModePage (pageCode : UInt8) : Bool :=
  pageCode == 0x00 || pageCode == 0x01 || pageCode == 0x0d || pageCode == 0x2a || pageCode == 0x3f

/-- MODE SENSE; a page it does not have is refused with the stored sense data
    left alone. -/
def modeSense (d : ScsiCdRomDevice) (tenByte disableBlockDescriptors : Bool) (pageCode : UInt8)
    (allocationLength : Nat) : ScsiCommandResult :=
  let descriptor := if disableBlockDescriptors then [] else d.blockDescriptor
  let pages :=
    (if pageCode = 0x01 ∨ pageCode = 0x3f then errorRecoveryPage else []) ++
    (if pageCode = 0x0d ∨ pageCode = 0x3f then cdRomPage else []) ++
    (if pageCode = 0x2a ∨ pageCode = 0x3f then capabilitiesPage else [])
  let descriptorLength : UInt8 := if disableBlockDescriptors then 0 else 8
  let size := (if tenByte then 8 else 4) + descriptor.length + pages.length
  let header : List UInt8 :=
    if tenByte then be16 ((size - 2) % 2 ^ 16) ++ [0, 0x80, 0, 0, 0, descriptorLength]
    else [UInt8.ofNat (size - 1), 0, 0x80, descriptorLength]
  if !hasModePage pageCode then refused senseIllegalRequest
  else good ((header ++ descriptor ++ pages).take allocationLength)

def readCapacity (d : ScsiCdRomDevice) : ScsiCommandResult :=
  let blocks := d.image.length / d.logicalBlockSize % 2 ^ 32
  good (be32 (if blocks = 0 then 0 else blocks - 1) ++ be32 d.logicalBlockSize)

/-- READ TOC; what it refuses leaves the stored sense data alone. -/
def readToc (d : ScsiCdRomDevice) (cdb : List UInt8) : ScsiCommandResult :=
  if cdb.length < 10 then refused senseIllegalRequest
  else
    let msf : Bool := byteAt cdb 1 &&& 0x02 ≠ 0
    let firstRequested := byteAt cdb 6
    let allocationLength := be16At cdb 7
    if firstRequested ≠ 0 ∧ firstRequested ≠ 1 ∧ firstRequested ≠ 0xaa then
      refused senseIllegalRequest
    else
      let descriptors :=
        (if firstRequested ≠ 0xaa then [0, 0x14, 1, 0] ++ address 0 msf else []) ++
        [0, 0x14, 0xaa, 0] ++ address d.blockCount msf
      let data := be16 ((descriptors.length + 2) % 2 ^ 16) ++ [1, 1] ++ descriptors
      good (data.take allocationLength)

/-- A time in minutes, seconds and frames, as a number of frames. -/
def msfFrames (minutes seconds frames : UInt8) : Nat :=
  (minutes.toNat * 60 + seconds.toNat) * 75 + frames.toNat

/-- The commands that an empty drive answers. -/
def allowedWithoutMedium (opcode : UInt8) : Bool :=
  opcode == 0x03 || opcode == 0x12 || opcode == 0x15 || opcode == 0x1a || opcode == 0x1b ||
    opcode == 0x1e || opcode == 0x55 || opcode == 0x5a

/-- Whether START STOP UNIT asks for the disc to be ejected. -/
def ejects (cdb : List UInt8) : Bool :=
  4 < cdb.length ∧ byteAt cdb 4 &&& 0x02 ≠ 0 ∧ byteAt cdb 4 &&& 0x01 = 0

/-- The commands, once neither a unit attention nor a missing disc stops them. -/
def dispatch (d : ScsiCdRomDevice) (cdb dataOut : List UInt8) :
    ScsiCommandResult × ScsiCdRomDevice :=
  match (byteAt cdb 0).toNat with
  | 0x00 => (good, d)
  | 0x03 => d.requestSense (if 4 < cdb.length then byteAt cdb 4 else 18)
  | 0x08 =>
    if cdb.length < 6 then d.checkCondition senseIllegalRequest 0x24
    else d.read (sixByteLba cdb) (sixByteBlocks cdb)
  | 0x12 => (inquiry (if 4 < cdb.length then byteAt cdb 4 else 36), d)
  | 0x15 => d.modeSelect false dataOut
  | 0x1a =>
    (d.modeSense false (1 < cdb.length ∧ byteAt cdb 1 &&& 0x08 ≠ 0)
      (if 2 < cdb.length then byteAt cdb 2 &&& 0x3f else 0x3f)
      (if 4 < cdb.length then (byteAt cdb 4).toNat else 4), d)
  | 0x1b => (good, if ejects cdb then d.eject else d)
  | 0x1e => (good, d)
  | 0x25 => (d.readCapacity, d)
  | 0x28 =>
    if cdb.length < 10 then d.checkCondition senseIllegalRequest 0x24
    else d.read (be32At cdb 2) (be16At cdb 7)
  | 0x43 => (d.readToc cdb, d)
  | 0x55 => d.modeSelect true dataOut
  | 0x5a =>
    if cdb.length < 10 then d.checkCondition senseIllegalRequest 0x24
    else
      (d.modeSense true (byteAt cdb 1 &&& 0x08 ≠ 0) (byteAt cdb 2 &&& 0x3f) (be16At cdb 7), d)
  | 0xa8 =>
    if cdb.length < 12 then d.checkCondition senseIllegalRequest 0x24
    else d.read (be32At cdb 2) (be32At cdb 6)
  | 0xd8 =>
    if cdb.length < 12 ∨ byteAt cdb 10 ≠ 0 then d.checkCondition senseIllegalRequest 0x24
    else d.readAppleRaw (be32At cdb 2) (be32At cdb 6)
  | 0xd9 =>
    let startFrames := msfFrames (byteAt cdb 3) (byteAt cdb 4) (byteAt cdb 5)
    let endFrames := msfFrames (byteAt cdb 7) (byteAt cdb 8) (byteAt cdb 9)
    if cdb.length < 12 ∨ byteAt cdb 10 ≠ 0 then d.checkCondition senseIllegalRequest 0x24
    else if startFrames < 150 ∨ endFrames < startFrames then
      d.checkCondition senseIllegalRequest 0x24
    else d.readAppleRaw (startFrames - 150) (endFrames - startFrames)
  | _ => d.checkCondition senseIllegalRequest 0x20

def executeCommand (d : ScsiCdRomDevice) (cdb dataOut : List UInt8) :
    ScsiCommandResult × ScsiCdRomDevice :=
  let opcode := byteAt cdb 0
  if cdb = [] then d.checkCondition senseIllegalRequest 0x24
  else if d.unitAttention ∧ opcode ≠ 0x03 ∧ opcode ≠ 0x12 then
    { d with unitAttention := false }.checkCondition senseUnitAttention ascMediumChanged
  else if !d.ready ∧ !allowedWithoutMedium opcode then
    d.checkCondition senseNotReady ascMediumNotPresent
  else d.dispatch cdb dataOut

/-- A call of the host program, or a command from a controller. -/
inductive Op where
  | loadImage (path : String)
  | eject
  | acknowledgeMediaChange
  | executeCommand (cdb dataOut : List UInt8)
deriving DecidableEq, Repr

def apply (d : ScsiCdRomDevice) : Host × Op → ScsiCdRomDevice
  | (host, .loadImage path) => (d.loadImage host path).2
  | (_, .eject) => d.eject
  | (_, .acknowledgeMediaChange) => d.acknowledgeMediaChange
  | (_, .executeCommand cdb dataOut) => (d.executeCommand cdb dataOut).2

end ScsiCdRomDevice

end CuteMac.Scsi
