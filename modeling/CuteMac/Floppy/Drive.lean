/-
  The operations of a drive.

  * `setCurrentTrack`, `setCurrentSide`, `setMotorOn`: the head and the motor;
  * `nextDiskByte`: the byte under the head is read;
  * `processGcrWrites`, `processMfmWrites`: the records of the bytes written;
  * `writeDiskByte`, `flushWrites`: a byte is written, a write session ends;
  * `Op`, `apply`: all of them, as one step of the drive.
-/
import CuteMac.Floppy.Image

namespace CuteMac.Floppy.FloppyDiskImage

open Slice

/-! ## Reading -/

def peekDiskByte (d : FloppyDiskImage) : FloppyDiskImage × DiskByte :=
  if !d.inserted || !d.motorOn then (d, {})
  else
    let d := d.ensureTrackCache
    if d.trackCache.bytes = [] then (d, {})
    else
      (d, { value := d.trackCache.bytes.getD d.trackCache.cursor 0
            mark := d.trackCache.marks.getD d.trackCache.cursor false })

def maxTraceEvents : Nat := 4096
def maxLastNibbles : Nat := 4096

/-- The mark that a trace reports for the last three bytes read. -/
def traceMark (shift : UInt32) : Option String :=
  if shift = 0x00d5aa96 then some "addr"
  else if shift = 0x00d5aaad then some "data"
  else if shift = 0x00deaaff then some "trailer"
  else none

/-- The trace of a byte read, while traces are on. -/
def traceNibble (d : FloppyDiskImage) (value : UInt8) : FloppyDiskImage :=
  if !d.traceEnabled then d
  else
    let lastNibbles := d.lastNibbles ++ [value]
    let shift := ((d.traceShift <<< (8 : UInt32)) ||| value.toUInt32) &&& 0x00ffffff
    let d := { d with
      lastNibbles := lastNibbles.drop (lastNibbles.length - maxLastNibbles)
      traceShift := shift }
    match traceMark shift with
    | none => d
    | some mark =>
      let events := if d.traceEvents.length = maxTraceEvents then d.traceEvents.tail else d.traceEvents
      { d with
        traceEvents := events ++ ["floppy mark=" ++ mark ++ " track=" ++ toString d.currentTrack ++
          " side=" ++ toString d.currentSide ++ " cursor=" ++ toString d.trackCache.cursor] }

/-- The disk turns by one byte. -/
def advanceCursor (d : FloppyDiskImage) : FloppyDiskImage :=
  { d with
    trackCache :=
      { d.trackCache with cursor := (d.trackCache.cursor + 1) % d.trackCache.bytes.length } }

def nextDiskByte (d : FloppyDiskImage) : FloppyDiskImage × DiskByte :=
  let (d, diskByte) := d.peekDiskByte
  if !d.inserted || !d.motorOn || d.trackCache.bytes = [] then (d, diskByte)
  else (d.advanceCursor.traceNibble diskByte.value, diskByte)

/-! ## Writing -/

/-- The first bytes of the write buffer are removed, with their marks. -/
def removeWrites (d : FloppyDiskImage) (count : Nat) : FloppyDiskImage :=
  { d with writeBytes := d.writeBytes.drop count, writeMarks := d.writeMarks.drop count }

/-- Four hexadecimal digits. -/
def hex4 (value : UInt16) : String :=
  let digits := Nat.toDigits 16 value.toNat
  String.ofList (List.replicate (4 - digits.length) '0' ++ digits)

/-- A sector of a GCR track: its number, its tag and its data. -/
def gcrRecord (d : FloppyDiskImage) (record : List UInt8) : FloppyDiskImage × Bool :=
  match decodeGcr (record.getD 3 0), decodeGcrPayload (mid record 4 703) with
  | some sector, some payload =>
    if sector.toNat < sectorsForTrack d.currentTrack then
      d.commitSector sector.toNat (mid payload tagBytesPerSector bytesPerSector)
        (payload.take tagBytesPerSector)
    else ({ d with writeFailed := true }, false)
  | _, _ => ({ d with writeFailed := true }, false)

/-- The ID field of a sector of an MFM track says where the next data field goes. -/
def mfmIdField (d : FloppyDiskImage) (record : List UInt8) : FloppyDiskImage :=
  let expected := mfmCrc (record.take 8)
  let actual := be16 (record.getD 8 0) (record.getD 9 0)
  if expected = actual ∧ (record.getD 4 0).toNat = d.currentTrack ∧
      (record.getD 5 0).toNat = d.currentSide ∧ record.getD 7 0 = 2 then
    { d with writeMfmSector := (record.getD 6 0).toNat - 1 }
  else if d.traceEnabled then
    { d with
      traceEvents := d.traceEvents ++ ["MFM rejected ID field track=" ++ toString d.currentTrack ++
        " side=" ++ toString d.currentSide ++ " crc=" ++ hex4 actual ++ "/" ++ hex4 expected] }
  else d

/-- The data field of a sector of an MFM track. -/
def mfmDataField (d : FloppyDiskImage) (record : List UInt8) : FloppyDiskImage × Bool :=
  let expected := mfmCrc (record.take (4 + bytesPerSector))
  let actual := be16 (record.getD (4 + bytesPerSector) 0) (record.getD (5 + bytesPerSector) 0)
  if 0 ≤ d.writeMfmSector ∧ d.writeMfmSector < sectorsPerTrack ∧ expected = actual then
    d.commitSector d.writeMfmSector (mid record 4 bytesPerSector)
  else
    let d := { d with writeFailed := true }
    if d.traceEnabled then
      ({ d with
        traceEvents := d.traceEvents ++ ["MFM rejected data field sector=" ++
          toString d.writeMfmSector ++ " crc=" ++ hex4 actual ++ "/" ++ hex4 expected] }, false)
    else (d, false)

@[simp] theorem writeBytes_persistImage (d : FloppyDiskImage) :
    d.persistImage.1.writeBytes = d.writeBytes := by
  unfold persistImage
  split
  · rfl
  · split <;> rfl

@[simp] theorem writeBytes_commitSector (d : FloppyDiskImage) (k : Int) (data tags : List UInt8) :
    (d.commitSector k data tags).1.writeBytes = d.writeBytes := by
  simp only [commitSector]
  split
  · rfl
  · split
    · rfl
    · split <;> simp [invalidateTrackCache, putSector]

@[simp] theorem writeBytes_gcrRecord (d : FloppyDiskImage) (record : List UInt8) :
    (d.gcrRecord record).1.writeBytes = d.writeBytes := by
  simp only [gcrRecord]
  split
  · split
    · exact writeBytes_commitSector ..
    · rfl
  · rfl

@[simp] theorem writeBytes_mfmIdField (d : FloppyDiskImage) (record : List UInt8) :
    (d.mfmIdField record).writeBytes = d.writeBytes := by
  simp only [mfmIdField]
  split
  · rfl
  · split <;> rfl

@[simp] theorem writeBytes_mfmDataField (d : FloppyDiskImage) (record : List UInt8) :
    (d.mfmDataField record).1.writeBytes = d.writeBytes := by
  simp only [mfmDataField]
  split
  · exact writeBytes_commitSector ..
  · split <;> rfl

def gcrSync : List UInt8 := [0xd5, 0xaa, 0xad]
def gcrTrailer : List UInt8 := [0xde, 0xaa, 0xff]
def gcrRecordBytes : Nat := 710

/-- The loop over the records of a GCR track. -/
def processGcrWrites (d : FloppyDiskImage) (committed : Bool := false) : FloppyDiskImage × Bool :=
  match _h : indexOf gcrSync d.writeBytes with
  | none => (if 2 < d.writeBytes.length then d.removeWrites (d.writeBytes.length - 2) else d, committed)
  | some prologue =>
    let d' := d.removeWrites prologue
    if _hl : d'.writeBytes.length < gcrRecordBytes then (d', committed)
    else if mid d'.writeBytes 707 3 ≠ gcrTrailer then
      processGcrWrites (d'.removeWrites 1) committed
    else
      let r := d'.gcrRecord (d'.writeBytes.take gcrRecordBytes)
      processGcrWrites (r.1.removeWrites gcrRecordBytes) (committed || r.2)
termination_by d.writeBytes.length
decreasing_by
  all_goals
    have hi := indexOf_lt (by decide) _h
    simp only [removeWrites, gcrRecordBytes, writeBytes_gcrRecord, List.length_drop] at _hl ⊢
    omega

def mfmSync : List UInt8 := [0xa1, 0xa1, 0xa1]
def addressBytes : Nat := 10
def dataRecordBytes : Nat := 3 + 1 + bytesPerSector + 2

/-- The loop over the fields of an MFM track. -/
def processMfmWrites (d : FloppyDiskImage) (committed : Bool := false) : FloppyDiskImage × Bool :=
  match _h : indexOf mfmSync d.writeBytes with
  | none => (if 2 < d.writeBytes.length then d.removeWrites (d.writeBytes.length - 2) else d, committed)
  | some prologue =>
    let d' := d.removeWrites prologue
    if _hl : d'.writeBytes.length < 4 then (d', committed)
    else if d'.writeBytes.getD 3 0 = 0xfe then
      if d'.writeBytes.length < addressBytes then (d', committed)
      else
        processMfmWrites ((d'.mfmIdField (d'.writeBytes.take addressBytes)).removeWrites addressBytes)
          committed
    else if d'.writeBytes.getD 3 0 = 0xfb ∨ d'.writeBytes.getD 3 0 = 0xf8 then
      if d'.writeBytes.length < dataRecordBytes then (d', committed)
      else
        let r := d'.mfmDataField (d'.writeBytes.take dataRecordBytes)
        processMfmWrites (r.1.removeWrites dataRecordBytes) (committed || r.2)
    else processMfmWrites (d'.removeWrites 1) committed
termination_by d.writeBytes.length
decreasing_by
  all_goals
    have hi := indexOf_lt (by decide) _h
    simp only [removeWrites, addressBytes, dataRecordBytes, writeBytes_mfmIdField,
      writeBytes_mfmDataField, List.length_drop] at _hl ⊢
    omega

def processWrites (d : FloppyDiskImage) : FloppyDiskImage × Bool :=
  if d.highDensity then d.processMfmWrites else d.processGcrWrites

/-- The sector of the last ID field that has passed under the head. -/
def inferMfmSectorAtCursor (d : FloppyDiskImage) : Int :=
  if d.trackCache.bytes = [] then -1
  else
    let limit := min d.trackCache.cursor d.trackCache.bytes.length
    (List.range (limit - 7)).foldl (fun sector offset =>
      if mid d.trackCache.bytes offset 4 = [0xa1, 0xa1, 0xa1, 0xfe] then
        ((d.trackCache.bytes.getD (offset + 6) 0).toNat : Int) - 1
      else sector) (-1)

def maximumWriteWindow : Nat := 16384

/-- At the start of a write session, the sector under the head is looked up. -/
def inferSector (d : FloppyDiskImage) : FloppyDiskImage :=
  if d.highDensity && d.writeBytes.isEmpty && decide (d.writeMfmSector < 0) then
    { d with writeMfmSector := d.inferMfmSectorAtCursor }
  else d

/-- What happens before the bytes written are looked at. -/
def takeByte (d : FloppyDiskImage) : FloppyDiskImage :=
  let d := d.ensureTrackCache.inferSector
  if d.trackCache.bytes = [] then d else d.advanceCursor

def writeDiskByte (d : FloppyDiskImage) (value : UInt8) (mark : Bool := false) :
    FloppyDiskImage × Bool :=
  if !d.writable || !d.inserted || !d.motorOn then ({ d with writeFailed := true }, false)
  else
    let d := d.takeByte
    let d := { d with writeBytes := d.writeBytes ++ [value], writeMarks := d.writeMarks ++ [mark] }
    let (d, committed) := d.processWrites
    let d := d.removeWrites (d.writeBytes.length - maximumWriteWindow)
    (d, committed || !d.writeFailed)

def flushWrites (d : FloppyDiskImage) : FloppyDiskImage × Bool :=
  let d := if d.writeBytes ≠ [] then d.processWrites.1 else d
  ({ d with writeBytes := [], writeMarks := [], writeMfmSector := -1, writeFailed := false },
    !d.writeFailed)

/-! ## The head and the motor -/

def clampTrack (track : Int) : Nat := (max 0 (min track (tracksPerSide - 1))).toNat

def setCurrentTrack (d : FloppyDiskImage) (track : Int) : FloppyDiskImage :=
  if d.currentTrack ≠ clampTrack track then
    { d.flushWrites.1 with currentTrack := clampTrack track }.invalidateTrackCache
  else d

def step (d : FloppyDiskImage) (towardTrackZero : Bool) : FloppyDiskImage :=
  d.setCurrentTrack (d.currentTrack + if towardTrackZero then -1 else 1)

def clampSide (doubleSided : Bool) (side : Int) : Nat :=
  if doubleSided then (max 0 (min side 1)).toNat else 0

def setCurrentSide (d : FloppyDiskImage) (side : Int) : FloppyDiskImage :=
  if d.currentSide ≠ clampSide d.doubleSided side then
    { d.flushWrites.1 with currentSide := clampSide d.doubleSided side }.invalidateTrackCache
  else d

def setMotorOn (d : FloppyDiskImage) (on : Bool) : FloppyDiskImage :=
  let d := if d.motorOn && !on then d.flushWrites.1 else d
  { d with motorOn := on }

def eject (d : FloppyDiskImage) : FloppyDiskImage :=
  let d := d.flushWrites.1
  { d with
    mediaChanged := d.kind != .empty || d.mediaChanged
    path := ""
    kind := .empty
    data := []
    tags := []
    diskCopyHeader := []
    writable := false
    doubleSided := false
    highDensity := false
    motorOn := false
    currentTrack := 0
    currentSide := 0
    trackCache := {}
    writeBytes := []
    writeMarks := []
    writeMfmSector := -1
    writeFailed := false }

def clearTrace (d : FloppyDiskImage) : FloppyDiskImage :=
  { d with traceShift := 0, traceEvents := [], lastNibbles := [] }

end FloppyDiskImage

/-! ## Runs -/

open FloppyDiskImage

/-- The operations of a drive; `world` changes the files around it. -/
inductive Op
  | load (path : String) (readOnly : Bool)
  | eject
  | setCurrentTrack (track : Int)
  | step (towardTrackZero : Bool)
  | setCurrentSide (side : Int)
  | setMotorOn (on : Bool)
  | peekDiskByte
  | nextDiskByte
  | writeDiskByte (value : UInt8) (mark : Bool)
  | flushWrites
  | invalidateTrackCache
  | clearMediaChanged
  | setTraceEnabled (enabled : Bool)
  | clearTrace
  | world (host : Host)

def FloppyDiskImage.apply (d : FloppyDiskImage) : Op → FloppyDiskImage
  | .load path readOnly => (d.load path readOnly).1
  | .eject => d.eject
  | .setCurrentTrack track => d.setCurrentTrack track
  | .step towardTrackZero => d.step towardTrackZero
  | .setCurrentSide side => d.setCurrentSide side
  | .setMotorOn on => d.setMotorOn on
  | .peekDiskByte => d.peekDiskByte.1
  | .nextDiskByte => d.nextDiskByte.1
  | .writeDiskByte value mark => (d.writeDiskByte value mark).1
  | .flushWrites => d.flushWrites.1
  | .invalidateTrackCache => d.invalidateTrackCache
  | .clearMediaChanged => { d with mediaChanged := false }
  | .setTraceEnabled enabled => { d with traceEnabled := enabled }
  | .clearTrace => d.clearTrace
  | .world host => { d with host := host }

end CuteMac.Floppy
