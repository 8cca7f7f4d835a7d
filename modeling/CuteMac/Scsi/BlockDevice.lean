/-
  The SCSI hard disk (`ScsiBlockDevice.h`, `ScsiBlockDevice.cpp`).

  The disk keeps the whole image in memory and writes every changed block
  through to the image file.  What the host file system answers at a call is a
  value `host : Host`.

  `executeCommand` is the command dispatcher, `apply` the machine whose
  inputs are the calls of the host and the commands of the controllers.
-/
import CuteMac.Lib.Machine
import CuteMac.Lib.Slice
import CuteMac.Scsi.Target
import Mathlib.Algebra.Group.Nat.Defs

namespace CuteMac.Scsi

open Slice (mid overwrite)

/-- The host file system at one call: what `readAll` gives for a path (`none`
    if it cannot be opened), and whether the bytes can be written to the file
    at an offset. -/
structure Host where
  readAll : String → Option (List UInt8)
  writeAt : String → Nat → List UInt8 → Bool

/-! ## Bytes -/

/-- The bytes of an ASCII text. -/
def ascii (text : String) : List UInt8 := text.toList.map fun c => UInt8.ofNat c.toNat

def padded (text : String) (width : Nat) : List UInt8 :=
  let bytes := (ascii text).take width
  bytes ++ List.replicate (width - bytes.length) 0x20

/-- The four bytes of a 32-bit value, the high one first. -/
def be32 (value : Nat) : List UInt8 :=
  [UInt8.ofNat (value >>> 24), UInt8.ofNat (value >>> 16), UInt8.ofNat (value >>> 8),
    UInt8.ofNat value]

/-- Four bytes of a byte array from index `i`, the high one first. -/
def be32At (bytes : List UInt8) (i : Nat) : Nat :=
  (byteAt bytes i).toNat <<< 24 ||| (byteAt bytes (i + 1)).toNat <<< 16 |||
    (byteAt bytes (i + 2)).toNat <<< 8 ||| (byteAt bytes (i + 3)).toNat

/-- The 21-bit block address of a six-byte CDB. -/
def sixByteLba (cdb : List UInt8) : Nat :=
  (byteAt cdb 1 &&& 0x1f).toNat <<< 16 ||| (byteAt cdb 2).toNat <<< 8 ||| (byteAt cdb 3).toNat

/-- The block count of a six-byte CDB, where zero stands for 256. -/
def sixByteBlocks (cdb : List UInt8) : Nat :=
  if byteAt cdb 4 = 0 then 256 else (byteAt cdb 4).toNat

/-! ## The device -/

structure ScsiBlockDevice where
  image : List UInt8 := []
  imagePath : String := ""
  readOnly : Bool := false
  senseKey : UInt8 := 0
  activityCounter : UInt64 := 0
deriving DecidableEq, Repr

/-- `ScsiDiskIdentity` -/
structure ScsiDiskIdentity where
  vendor : List UInt8
  product : List UInt8
  revision : List UInt8
deriving DecidableEq, Repr

namespace ScsiBlockDevice

def blockSize : Nat := 512
def statusGood : UInt8 := 0x00
def statusCheckCondition : UInt8 := 0x02
def messageCommandComplete : UInt8 := 0x00
def senseNoSense : UInt8 := 0x00
def senseNotReady : UInt8 := 0x02
def senseIllegalRequest : UInt8 := 0x05
def MiB : Nat := 1024 * 1024

def identityForSize (sizeBytes : Nat) : ScsiDiskIdentity :=
  let identity (vendor product : String) : ScsiDiskIdentity :=
    ⟨padded vendor 8, padded product 16, padded "1.0" 4⟩
  if sizeBytes = 20 * MiB then identity "CONNER" "CP2025-20mb"
  else if sizeBytes = 40 * MiB then identity "QUANTUM" "GO40S"
  else if sizeBytes = 80 * MiB then identity "QUANTUM" "GO80S1"
  else if sizeBytes = 160 * MiB then identity "QUANTUM" "GO160S"
  else if sizeBytes = 230 * MiB then identity "QUANTUM" "LP240S"
  else if sizeBytes = 500 * MiB then identity "QUANTUM" "LPS540S"
  else if sizeBytes = 1024 * MiB then identity "IBM" "DPES-31080"
  else identity "QUANTUM" "FIREBALL1"

/-! ## Medium -/

/-- `loadImage`; an empty file replaces the image, yet the load fails. -/
def loadImage (host : Host) (d : ScsiBlockDevice) (path : String) (readOnly : Bool) :
    Bool × ScsiBlockDevice :=
  match host.readAll path with
  | none => (false, d)
  | some [] => (false, { d with image := [], imagePath := "" })
  | some image =>
    (true, { d with
      image := image, imagePath := path, readOnly := readOnly, senseKey := senseNoSense,
      activityCounter := 0 })

def eject (d : ScsiBlockDevice) : ScsiBlockDevice :=
  { d with image := [], imagePath := "", senseKey := senseNotReady, activityCounter := 0 }

def ready (d : ScsiBlockDevice) : Bool := !d.image.isEmpty

/-- `blockCount`, a 32-bit number. -/
def blockCount (d : ScsiBlockDevice) : Nat := d.image.length / blockSize % 2 ^ 32

/-- The byte offset of a block, a 32-bit product. -/
def byteOffset (lba : Nat) : Nat := lba * blockSize % 2 ^ 32

/-! ## Results -/

def good (data : List UInt8 := []) : ScsiCommandResult :=
  { data := data, status := statusGood, message := messageCommandComplete,
    senseKey := senseNoSense }

def checkCondition (d : ScsiBlockDevice) (senseKey : UInt8) : ScsiCommandResult × ScsiBlockDevice :=
  ({ data := [], status := statusCheckCondition, message := messageCommandComplete,
     senseKey := senseKey }, { d with senseKey := senseKey })

/-- The first `allocationLength` bytes. -/
def clipped (bytes : List UInt8) (allocationLength : UInt8) : List UInt8 :=
  bytes.take allocationLength.toNat

/-! ## Reading and writing blocks -/

def readBlocks (d : ScsiBlockDevice) (lba blocks : Nat) : List UInt8 × ScsiBlockDevice :=
  let offset := byteOffset lba
  let length := byteOffset blocks
  if d.blockCount ≤ lba ∨ d.image.length < offset + length then
    ([], { d with senseKey := senseIllegalRequest })
  else
    (mid d.image offset length, { d with
      senseKey := senseNoSense
      activityCounter := d.activityCounter + UInt64.ofNat blocks })

def writeBlocks (host : Host) (d : ScsiBlockDevice) (lba : Nat) (bytes : List UInt8) :
    Bool × ScsiBlockDevice :=
  let offset := byteOffset lba
  if bytes.length % blockSize ≠ 0 ∨ d.blockCount ≤ lba ∨ d.image.length < offset + bytes.length then
    (false, { d with senseKey := senseIllegalRequest })
  else if !host.writeAt d.imagePath offset bytes then
    (false, { d with senseKey := senseIllegalRequest })
  else
    (true, { d with
      image := overwrite d.image offset bytes
      senseKey := senseNoSense
      activityCounter := d.activityCounter + UInt64.ofNat (bytes.length / blockSize) })

/-! ## Commands -/

/-- The pages of vital product data. -/
def vitalProductData : UInt8 → Option (List UInt8)
  | 0x00 => some [0x00, 0x00, 0x00, 0x05, 0x00, 0x80, 0x81, 0x82, 0x83]
  | 0x80 => some ([0x00, 0x80, 0x00, 0x10] ++ ascii "CUTEMAC000000001")
  | 0x81 => some [0x00, 0x81, 0x00, 0x03, 0x03, 0x03, 0x03]
  | 0x82 => some ([0x00, 0x82, 0x00, 0x07, 0x06] ++ ascii "SCSI-2")
  | 0x83 =>
    let identifier := ascii "CUTEMAC:SCSI:DISK:00000001"
    some ([0x00, 0x83, 0x00, UInt8.ofNat (identifier.length + 4), 0x02, 0x01, 0x00,
      UInt8.ofNat identifier.length] ++ identifier)
  | _ => none

/-- The standard INQUIRY data of a disk of the given size. -/
def inquiryData (sizeBytes : Nat) : List UInt8 :=
  let identity := identityForSize sizeBytes
  [0x00, 0x00, 0x02, 0x01, 31, 0x00, 0x00, 0x18] ++ identity.vendor ++ identity.product ++
    identity.revision

def inquiry (d : ScsiBlockDevice) (evpd : Bool) (pageCode allocationLength : UInt8) :
    ScsiCommandResult × ScsiBlockDevice :=
  if evpd then
    match vitalProductData pageCode with
    | some data => (good (clipped data allocationLength), d)
    | none => d.checkCondition senseIllegalRequest
  else if pageCode ≠ 0 then d.checkCondition senseIllegalRequest
  else (good (clipped (inquiryData d.image.length) allocationLength), d)

/-- The sense data: the stored key is reported and kept. -/
def senseData (senseKey : UInt8) : List UInt8 :=
  [0x70, 0, senseKey, 0, 0, 0, 0, 10, 0, 0, 0, 0, 0, 0, 0, 0, 0, 0]

def requestSense (d : ScsiBlockDevice) (allocationLength : UInt8) : ScsiCommandResult :=
  good (clipped (senseData d.senseKey) allocationLength)

/-- The block descriptor of MODE SENSE. -/
def blockDescriptor (d : ScsiBlockDevice) : List UInt8 :=
  let blocks := min d.blockCount 0x00ffffff
  [0, UInt8.ofNat (blocks >>> 16), UInt8.ofNat (blocks >>> 8), UInt8.ofNat blocks, 0,
    UInt8.ofNat (blockSize >>> 16), UInt8.ofNat (blockSize >>> 8), UInt8.ofNat blockSize]

def formatPage : List UInt8 :=
  [0x83, 0x16, 0, 0, 0, 0, 0, 0, 0, 0, 0x00, 0x20, 0x02, 0x00, 0, 0x01, 0, 0, 0, 0, 0xc0, 0, 0, 0]

def geometryPage (d : ScsiBlockDevice) : List UInt8 :=
  let heads := 16
  let sectorsPerTrack := 32
  let cylinders := max 1
    ((d.blockCount + heads * sectorsPerTrack - 1) % 2 ^ 32 / (heads * sectorsPerTrack))
  let c2 := UInt8.ofNat (cylinders >>> 16)
  let c1 := UInt8.ofNat (cylinders >>> 8)
  let c0 := UInt8.ofNat cylinders
  [0x04, 0x16, c2, c1, c0, UInt8.ofNat heads, c2, c1, c0, c2, c1, c0, 0, 0x01, 0, 0, 0, 0, 0, 0,
    UInt8.ofNat (5400 >>> 8), UInt8.ofNat 5400, 0, 0]

def applePage : List UInt8 := [0x30, 0x16] ++ ascii "APPLE COMPUTER, INC   "

/-- The mode pages that `modeSense` answers. -/
def hasModePage (pageCode : UInt8) : Bool :=
  pageCode == 0x00 || pageCode == 0x03 || pageCode == 0x04 || pageCode == 0x30 || pageCode == 0x3f

def modeSense (d : ScsiBlockDevice) (disableBlockDescriptors : Bool)
    (pageCode allocationLength : UInt8) : ScsiCommandResult × ScsiBlockDevice :=
  -- page 0 has no block descriptor
  let describes := !disableBlockDescriptors && hasModePage pageCode && pageCode != 0x00
  let body :=
    (if describes then d.blockDescriptor else []) ++
    (if pageCode = 0x03 ∨ pageCode = 0x3f then formatPage else []) ++
    (if pageCode = 0x04 ∨ pageCode = 0x3f then d.geometryPage else []) ++
    (if pageCode = 0x30 ∨ pageCode = 0x3f then applePage else [])
  if !hasModePage pageCode then d.checkCondition senseIllegalRequest
  else
    let data := [UInt8.ofNat (4 + body.length - 1), 0, (if d.readOnly then 0x80 else 0x00),
      (if describes then 8 else 0)] ++ body
    (good (clipped data allocationLength), d)

def readCapacity (d : ScsiBlockDevice) : ScsiCommandResult :=
  good (be32 (if d.blockCount = 0 then 0 else d.blockCount - 1) ++ be32 blockSize)

/-- READ(6), READ(10): the answer is read off the sense key that `readBlocks` left. -/
def read (d : ScsiBlockDevice) (lba blocks : Nat) : ScsiCommandResult × ScsiBlockDevice :=
  let (data, d) := d.readBlocks lba blocks
  if d.senseKey = senseNoSense then (good data, d) else d.checkCondition d.senseKey

/-- WRITE(6), WRITE(10) -/
def write (host : Host) (d : ScsiBlockDevice) (lba : Nat) (dataOut : List UInt8) :
    ScsiCommandResult × ScsiBlockDevice :=
  let (written, d) := d.writeBlocks host lba dataOut
  if written then (good, d) else d.checkCondition senseIllegalRequest

/-- The commands of a disk that is ready, and INQUIRY and REQUEST SENSE. -/
def dispatch (host : Host) (d : ScsiBlockDevice) (cdb dataOut : List UInt8) :
    ScsiCommandResult × ScsiBlockDevice :=
  match (byteAt cdb 0).toNat with
  | 0x00 | 0x01 | 0x04 => (good, d)
  | 0x03 => (d.requestSense (if 4 < cdb.length then byteAt cdb 4 else 4), d)
  | 0x08 =>
    if cdb.length < 6 then d.checkCondition senseIllegalRequest
    else d.read (sixByteLba cdb) (sixByteBlocks cdb)
  | 0x0a =>
    if cdb.length < 6 ∨ d.readOnly then d.checkCondition senseIllegalRequest
    else d.write host (sixByteLba cdb) dataOut
  | 0x0b => (good, d)
  | 0x12 =>
    d.inquiry (1 < cdb.length ∧ byteAt cdb 1 &&& 0x01 ≠ 0) (if 2 < cdb.length then byteAt cdb 2 else 0)
      (if 4 < cdb.length then byteAt cdb 4 else 36)
  | 0x15 => (good, d)
  | 0x1a =>
    d.modeSense (1 < cdb.length ∧ byteAt cdb 1 &&& 0x08 ≠ 0)
      (if 2 < cdb.length then byteAt cdb 2 &&& 0x3f else 0x3f)
      (if 4 < cdb.length then byteAt cdb 4 else 4)
  | 0x25 => (d.readCapacity, d)
  | 0x28 =>
    if cdb.length < 10 then d.checkCondition senseIllegalRequest
    else if be16At cdb 7 = 0 then (good, d)
    else d.read (be32At cdb 2) (be16At cdb 7)
  | 0x2a =>
    if cdb.length < 10 ∨ d.readOnly then d.checkCondition senseIllegalRequest
    else if dataOut.length ≠ be16At cdb 7 * blockSize then d.checkCondition senseIllegalRequest
    else if be16At cdb 7 = 0 then (good, d)
    else d.write host (be32At cdb 2) dataOut
  | 0x2b | 0x35 => (good, d)
  | 0x2f =>
    if cdb.length < 10 ∨ byteAt cdb 1 &&& 0x02 ≠ 0 then d.checkCondition senseIllegalRequest
    else if be32At cdb 2 ≤ d.blockCount ∧ be16At cdb 7 ≤ d.blockCount - be32At cdb 2 then (good, d)
    else d.checkCondition senseIllegalRequest
  | 0x37 =>
    if cdb.length < 10 then d.checkCondition senseIllegalRequest
    else (good ([0, byteAt cdb 2, 0, 0].take (be16At cdb 7)), d)
  | _ => d.checkCondition senseIllegalRequest

def executeCommand (host : Host) (d : ScsiBlockDevice) (cdb dataOut : List UInt8) :
    ScsiCommandResult × ScsiBlockDevice :=
  if cdb = [] then d.checkCondition senseIllegalRequest
  else if !d.ready ∧ byteAt cdb 0 ≠ 0x03 ∧ byteAt cdb 0 ≠ 0x12 then d.checkCondition senseNotReady
  else d.dispatch host cdb dataOut

/-- A call of the host program, or a command from a controller. -/
inductive Op where
  | loadImage (path : String) (readOnly : Bool)
  | eject
  | executeCommand (cdb dataOut : List UInt8)
deriving DecidableEq, Repr

def apply (d : ScsiBlockDevice) : Host × Op → ScsiBlockDevice
  | (host, .loadImage path readOnly) => (d.loadImage host path readOnly).2
  | (_, .eject) => d.eject
  | (host, .executeCommand cdb dataOut) => (d.executeCommand host cdb dataOut).2

end ScsiBlockDevice

end CuteMac.Scsi
