/-
  The floppy controller of the machines (`IwmController.cpp`): an IWM, which a sequence
  of mode-register writes turns into a SWIM in its ISM mode.

  * `IwmController`: the lines, the two drives and the registers of both modes;
  * `readRegister`, `writeRegister`, `setLine`: the IWM mode;
  * `swimAccess`: the ISM mode;
  * `access`: one access of the processor;
  * `unlockBit`, `signals`: what the accesses of a run say to the recogniser;
  * `step_counts`, `run_counts`: the transition counter is that of a recogniser;
  * `entersIsm_iff`: where the controller enters the ISM mode when it should.

  The traces, and the callback of an ejection, are left out.
-/
import CuteMac.Floppy.Drive
import CuteMac.Lib.Machine
import CuteMac.Lib.Recogniser

namespace CuteMac.Floppy

open FloppyDiskImage Machine

/-! ## The controller -/

namespace Line

def ca0 : UInt8 := 0
def ca1 : UInt8 := 1
def ca2 : UInt8 := 2
def lstrb : UInt8 := 3
def motor : UInt8 := 4
def selectDrive : UInt8 := 5
def q6 : UInt8 := 6
def q7 : UInt8 := 7

end Line

structure IwmController where
  lines : UInt8 → Bool := fun _ => false
  internalDrive : FloppyDiskImage
  externalDrive : FloppyDiskImage
  mode : UInt8 := 0
  status : UInt8 := 0
  selectedDriveRegister : UInt8 := 0
  stepTowardTrackZero : Bool := false
  sideSelect : Bool := false
  tach : Bool := false
  dataReads : UInt64 := 0
  statusReads : UInt64 := 0
  handshakeReads : UInt64 := 0
  dataWrites : UInt64 := 0
  swimMode : Bool := false
  swimTransition : UInt8 := 0
  swimModeRegister : UInt8 := 0
  swimSetup : UInt8 := 0
  swimPhases : UInt8 := 0
  swimParameters : UInt8 → UInt8 := fun _ => 0
  swimParameterIndex : UInt8 := 0
  swimError : UInt8 := 0
  swimPhaseStrobe : Bool := false

namespace IwmController

def reset (s : IwmController) : IwmController where
  internalDrive := s.internalDrive.setMotorOn false
  externalDrive := s.externalDrive.setMotorOn false

def selectedDrive (s : IwmController) : FloppyDiskImage :=
  if s.lines Line.selectDrive then s.externalDrive else s.internalDrive

def setSelectedDrive (s : IwmController) (d : FloppyDiskImage) : IwmController :=
  if s.lines Line.selectDrive then { s with externalDrive := d } else { s with internalDrive := d }

/-- The selected drive does something. -/
def onSelected (s : IwmController) (f : FloppyDiskImage → FloppyDiskImage) : IwmController :=
  s.setSelectedDrive (f s.selectedDrive)

def flushSelected (s : IwmController) : IwmController := s.onSelected fun d => d.flushWrites.1

def lineBit (s : IwmController) (line bit : UInt8) : UInt8 := if s.lines line then bit else 0

def driveRegister (s : IwmController) : UInt8 :=
  s.lineBit Line.ca0 0x04 ||| s.lineBit Line.ca1 0x08 ||| s.lineBit Line.ca2 0x01 |||
    if s.sideSelect then 0x02 else 0x00

def sideIndex (s : IwmController) : Int := if s.sideSelect then 1 else 0

def updateSelectedDriveRegister (s : IwmController) : IwmController :=
  { s with selectedDriveRegister := s.driveRegister }.onSelected fun d => d.setCurrentSide s.sideIndex

def ejectSelectedDrive (s : IwmController) : IwmController :=
  s.flushSelected.onSelected FloppyDiskImage.eject

def stepSelected (s : IwmController) : IwmController :=
  s.flushSelected.onSelected fun d => d.step s.stepTowardTrackZero

def applyDriveStrobe (s : IwmController) : IwmController :=
  match s.selectedDriveRegister.toNat with
  | 0x00 => { s with stepTowardTrackZero := false }
  | 0x01 => { s with stepTowardTrackZero := true }
  | 0x04 => s.stepSelected
  | 0x08 => s.onSelected fun d => d.setMotorOn true
  | 0x09 => s.flushSelected.onSelected fun d => d.setMotorOn false
  | 0x0d => s.ejectSelectedDrive
  | _ => s

/-- Some drive registers are multiplexed differently in the two modes. -/
def driveSenseHigh (s : IwmController) : IwmController × Bool :=
  let drive := s.selectedDrive
  if s.swimMode then
    match (s.selectedDriveRegister &&& 0x0f).toNat with
    | 0x00 => (s, s.stepTowardTrackZero)
    | 0x01 => (s, true)
    | 0x02 => (s, !drive.motorOn)
    | 0x03 => (s, !drive.inserted)
    | 0x04 => (s, true)
    | 0x05 => (s, true)
    | 0x06 => (s, drive.doubleSided)
    | 0x07 => (s, false)
    | 0x08 => (s, !drive.inserted)
    | 0x09 => (s, drive.writable)
    | 0x0a => (s, drive.currentTrack != 0)
    | 0x0b => ({ s with tach := !s.tach }, !s.tach)
    | 0x0c => (s, drive.mediaChanged)
    | 0x0d => (s, drive.highDensity)
    | 0x0e => (s, !drive.inserted || !drive.motorOn)
    | 0x0f => (s, !drive.highDensity)
    | _ => (s, false)
  else
    match (s.selectedDriveRegister &&& 0x0f).toNat with
    | 0x02 => (s, !drive.inserted)
    | 0x04 => (s, true)
    | 0x06 => (s, drive.writable)
    | 0x08 => (s, !drive.motorOn)
    | 0x09 => (s, drive.doubleSided)
    | 0x0a => (s, drive.currentTrack != 0)
    | 0x0b => (s, false)
    | 0x0c => (s, !drive.doubleSided)
    | 0x0d => (s, s.lines Line.selectDrive)
    | 0x0e => ({ s with tach := !s.tach }, !s.tach)
    | 0x0f => (s, !drive.highDensity)
    | _ => (s, true)

/-! ## The IWM mode -/

def readRegister (s : IwmController) : IwmController × UInt8 :=
  match s.lines Line.q6, s.lines Line.q7 with
  | false, false =>
    let (drive, diskByte) := s.selectedDrive.nextDiskByte
    ({ s with dataReads := s.dataReads + 1 }.setSelectedDrive drive, diskByte.value)
  | true, false =>
    let modeBits := (s.mode &&& 0x1f) ||| (s.status &&& 0x20)
    let (s, high) := { s with statusReads := s.statusReads + 1 }.driveSenseHigh
    let status := (if high then 0x80 else 0x00) ||| modeBits
    ({ s with status := status }, status)
  | false, true => ({ s with handshakeReads := s.handshakeReads + 1 }, 0xc0)
  | true, true => (s, s.mode)

def writeRegister (s : IwmController) (value : UInt8) : IwmController :=
  if !s.lines Line.motor then
    { s with mode := value, status := (s.status &&& 0xc0) ||| (value &&& 0x3f) }
  else { s with dataWrites := s.dataWrites + 1 }.onSelected fun d => (d.writeDiskByte value).1

/-- What a line does when it is set. -/
def lineSet (s : IwmController) (line : UInt8) (wasOn on : Bool) : IwmController :=
  if line = Line.motor then
    { s with status := if on then s.status ||| 0x20 else s.status &&& ~~~0x20 }
  else if line = Line.ca0 ∨ line = Line.ca1 ∨ line = Line.ca2 ∨ line = Line.selectDrive then
    s.updateSelectedDriveRegister
  else if line = Line.lstrb ∧ wasOn ∧ !on then s.applyDriveStrobe
  else s

def setLine (s : IwmController) (line : UInt8) (on : Bool) : IwmController :=
  let wasOn := s.lines line
  let s := if line = Line.q7 ∧ wasOn ∧ !on then s.flushSelected else s
  { s with lines := Function.update s.lines line on }.lineSet line wasOn on

/-! ## The ISM mode -/

def applySwimStrobe (s : IwmController) : IwmController :=
  match s.selectedDriveRegister.toNat with
  | 0x00 => { s with stepTowardTrackZero := false }
  | 0x01 => s.stepSelected
  | 0x02 => s.onSelected fun d => d.setMotorOn true
  | 0x04 => { s with stepTowardTrackZero := true }
  | 0x06 => s.flushSelected.onSelected fun d => d.setMotorOn false
  | 0x07 => s.ejectSelectedDrive
  | 0x09 => { s with swimSetup := s.swimSetup &&& ~~~0x04 }
  | 0x0c => s.onSelected fun d => { d with mediaChanged := false }
  | 0x0d => { s with swimSetup := s.swimSetup ||| 0x04 }
  | _ => s

def applySwimPhases (s : IwmController) (phases : UInt8) : IwmController :=
  let strobe := phases &&& 0x08 != 0
  let s :=
    { s with
      selectedDriveRegister := (phases &&& 0x07) ||| if s.sideSelect then 0x08 else 0x00
      }.onSelected fun d => d.setCurrentSide s.sideIndex
  let s := if strobe && !s.swimPhaseStrobe then s.applySwimStrobe else s
  { s with swimPhaseStrobe := strobe }

def swimWriteRegister (s : IwmController) (reg value : UInt8) : IwmController :=
  match reg.toNat with
  | 0 | 1 =>
    let s := { s with dataWrites := s.dataWrites + 1 }
    if s.swimModeRegister &&& 0x18 = 0x10 then
      let (drive, ok) := s.selectedDrive.writeDiskByte value (reg == 1)
      let s := s.setSelectedDrive drive
      if !ok then { s with swimError := s.swimError ||| 0x04 } else s
    else s
  | 3 =>
    { s with
      swimParameters := Function.update s.swimParameters s.swimParameterIndex value
      swimParameterIndex := (s.swimParameterIndex + 1) &&& 15 }
  | 4 => { s with swimPhases := value }.applySwimPhases value
  | 5 => { s with swimSetup := value }
  | 6 =>
    { s with
      swimModeRegister := s.swimModeRegister &&& ~~~value
      swimParameterIndex := 0
      swimMode := s.swimMode && s.swimModeRegister &&& ~~~value &&& 0x40 != 0 }
  | 7 => { s with swimModeRegister := s.swimModeRegister ||| value }
  | _ => s

/-- On a read ACTION the synchronizer consumes the gap bytes in front of a mark. -/
def seekMark (d : FloppyDiskImage) : Nat → FloppyDiskImage
  | 0 => d
  | n + 1 =>
    let (d, diskByte) := d.peekDiskByte
    if diskByte.mark then d else seekMark d.nextDiskByte.1 n

/-- The bytes of the track under the head. -/
def bytesOnTrack (d : FloppyDiskImage) : Nat :=
  let track := clampTrack d.currentTrack
  let side := clampSide d.doubleSided d.currentSide
  if d.highDensity then (d.buildMfmTrack track side).length else (d.buildTrackBytes track side).length

/-- Bit 0 of the mode register clears the error. -/
def clearSwimError (s : IwmController) : IwmController :=
  if s.swimModeRegister &&& 0x01 ≠ 0 then { s with swimError := 0 } else s

/-- A write ACTION ends. -/
def endSwimWrites (s : IwmController) (previousMode : UInt8) : IwmController :=
  if previousMode &&& 0x18 = 0x10 ∧ s.swimModeRegister &&& 0x18 ≠ 0x10 then
    let (drive, ok) := s.selectedDrive.flushWrites
    let s := s.setSelectedDrive drive
    if !ok then { s with swimError := s.swimError ||| 0x04 } else s
  else s

def setSwimMotors (s : IwmController) : IwmController :=
  { s with
    internalDrive := s.internalDrive.setMotorOn (s.swimModeRegister &&& 0x82 == 0x82)
    externalDrive := s.externalDrive.setMotorOn (s.swimModeRegister &&& 0x84 == 0x84) }

/-- A read ACTION begins. -/
def beginSwimReads (s : IwmController) (previousMode : UInt8) : IwmController :=
  if previousMode &&& 0x08 = 0 ∧ s.swimModeRegister &&& 0x18 = 0x08 then
    s.onSelected fun d => seekMark d (max (bytesOnTrack d) 1)
  else s

def swimWrite (s : IwmController) (reg value : UInt8) : IwmController :=
  let previousMode := s.swimModeRegister
  let s := (s.swimWriteRegister reg value).clearSwimError.endSwimWrites previousMode
  s.setSwimMotors.beginSwimReads previousMode

/-- During an ACTION the handshake says what is under the head. -/
def actionBits (s : IwmController) : IwmController × UInt8 :=
  if s.swimModeRegister &&& 0x08 ≠ 0 ∧ s.selectedDrive.inserted ∧ s.selectedDrive.motorOn then
    let (drive, diskByte) := s.selectedDrive.peekDiskByte
    (s.setSelectedDrive drive, (0xc0 : UInt8) ||| if diskByte.mark then 0x01 else 0x00)
  else (s, 0)

def swimHandshake (s : IwmController) : IwmController × UInt8 :=
  let (s, action) := { s with handshakeReads := s.handshakeReads + 1 }.actionBits
  let (s, high) := s.driveSenseHigh
  (s, action ||| (if high then 0x0c else 0) ||| (if s.selectedDrive.motorOn then 0x10 else 0) |||
    if s.swimError ≠ 0 then 0x20 else 0)

def swimRead (s : IwmController) (reg : UInt8) : IwmController × UInt8 :=
  match reg.toNat with
  | 0 =>
    let (drive, diskByte) := s.selectedDrive.nextDiskByte
    let s := { s with dataReads := s.dataReads + 1 }.setSelectedDrive drive
    (if diskByte.mark then { s with swimError := s.swimError ||| 0x02 } else s, diskByte.value)
  | 1 =>
    let (drive, diskByte) := s.selectedDrive.nextDiskByte
    ({ s with dataReads := s.dataReads + 1 }.setSelectedDrive drive, diskByte.value)
  | 2 => ({ s with swimError := 0 }, s.swimError)
  | 3 =>
    ({ s with swimParameterIndex := (s.swimParameterIndex + 1) &&& 15 },
      s.swimParameters s.swimParameterIndex)
  | 4 => (s, s.swimPhases)
  | 5 => (s, s.swimSetup)
  | 6 => (s, s.swimModeRegister)
  | _ => s.swimHandshake

def swimAccess (s : IwmController) (registerIndex value : UInt8) (write : Bool) :
    IwmController × UInt8 :=
  if write then (s.swimWrite (registerIndex &&& 7) value, 0xff)
  else s.swimRead (registerIndex &&& 7)

/-! ## Accesses -/

/-- An access behind the recogniser of the mode-register writes. -/
def iwmAccess (s : IwmController) (registerIndex value : UInt8) (write : Bool) :
    IwmController × UInt8 :=
  let s := s.setLine (registerIndex >>> 1) (registerIndex &&& 1 != 0)
  let s := if write ∧ s.lines Line.q6 ∧ s.lines Line.q7 then s.writeRegister value else s
  s.readRegister

/-- A write to the mode register while the motor line is off. -/
def modeWrite (s : IwmController) (registerIndex value : UInt8) : IwmController × UInt8 :=
  let expected := if s.swimTransition = 1 then value &&& 0x40 == 0 else value &&& 0x40 != 0
  if expected then
    let s := { s with swimTransition := s.swimTransition + 1 }
    if s.swimTransition = 4 then
      ({ s with swimMode := true, swimModeRegister := 0x40, swimTransition := 0 }, 0xff)
    else s.iwmAccess registerIndex value true
  else { s with swimTransition := 0 }.iwmAccess registerIndex value true

def access (s : IwmController) (registerIndex value : UInt8) (write : Bool) :
    IwmController × UInt8 :=
  let registerIndex := registerIndex &&& 0x0f
  if s.swimMode then s.swimAccess registerIndex value write
  else if write ∧ registerIndex = 0x0f ∧ !s.lines Line.motor then s.modeWrite registerIndex value
  else { s with swimTransition := 0 }.iwmAccess registerIndex value write

end IwmController

/-- The arguments of an access. -/
structure Access where
  registerIndex : UInt8
  value : UInt8 := 0
  write : Bool := false

namespace IwmController

def step (s : IwmController) (a : Access) : IwmController :=
  (s.access a.registerIndex a.value a.write).1

/-- Bit 6 of a write to the mode register, which is there in the IWM mode while the motor line is
    off. -/
def unlockBit (s : IwmController) (a : Access) : Option Bool :=
  if s.swimMode = false ∧ a.write ∧ a.registerIndex &&& 0x0f = 0x0f ∧ s.lines Line.motor = false then
    some (a.value &&& 0x40 != 0)
  else none

def signals (s : IwmController) : List Access → List (Option Bool)
  | [] => []
  | a :: as => s.unlockBit a :: signals (s.step a) as

/-- The bits that unlock the ISM mode. -/
def unlockWord : List Bool := [true, false, true, true]

/-- The access is the last one of four that unlock the ISM mode. -/
def Unlocks (s : IwmController) (as : List Access) (a : Access) : Prop :=
  unlockWord.map some <:+ s.signals (as ++ [a])

/-- The controller enters the ISM mode. -/
def EntersIsm (s : IwmController) (a : Access) : Prop :=
  s.swimMode = false ∧ (s.step a).swimMode = true

/-! ## The recogniser -/

/-- What the registers of the drives leave as it is. -/
structure SameMode (s t : IwmController) : Prop where
  swimMode : t.swimMode = s.swimMode
  swimTransition : t.swimTransition = s.swimTransition

section
variable {s t u : IwmController} {a : Access} {as : List Access}

theorem SameMode.refl (s : IwmController) : SameMode s s := ⟨rfl, rfl⟩

theorem SameMode.trans (h : SameMode s t) (h' : SameMode t u) : SameMode s u :=
  ⟨h'.swimMode.trans h.swimMode, h'.swimTransition.trans h.swimTransition⟩

theorem sameMode_setSelectedDrive (s : IwmController) (d : FloppyDiskImage) :
    SameMode s (s.setSelectedDrive d) := by
  unfold setSelectedDrive
  split_ifs <;> exact ⟨rfl, rfl⟩

theorem sameMode_onSelected (s : IwmController) (f : FloppyDiskImage → FloppyDiskImage) :
    SameMode s (s.onSelected f) := sameMode_setSelectedDrive s _

theorem sameMode_flush_onSelected (s : IwmController) (f : FloppyDiskImage → FloppyDiskImage) :
    SameMode s (s.flushSelected.onSelected f) :=
  (sameMode_onSelected s _).trans (sameMode_onSelected _ f)

theorem sameMode_applyDriveStrobe (s : IwmController) : SameMode s s.applyDriveStrobe := by
  unfold applyDriveStrobe
  split
  · exact ⟨rfl, rfl⟩
  · exact ⟨rfl, rfl⟩
  · exact sameMode_flush_onSelected s _
  · exact sameMode_onSelected s _
  · exact sameMode_flush_onSelected s _
  · exact sameMode_flush_onSelected s _
  · exact .refl s

theorem sameMode_driveSenseHigh (s : IwmController) : SameMode s s.driveSenseHigh.1 := by
  unfold driveSenseHigh
  dsimp only
  split_ifs
  · split <;> exact ⟨rfl, rfl⟩
  · split <;> exact ⟨rfl, rfl⟩

theorem sameMode_readRegister (s : IwmController) : SameMode s s.readRegister.1 := by
  unfold readRegister
  split
  · exact (⟨rfl, rfl⟩ : SameMode s { s with dataReads := s.dataReads + 1 }).trans
      (sameMode_setSelectedDrive _ _)
  · have hsense := sameMode_driveSenseHigh { s with statusReads := s.statusReads + 1 }
    exact ⟨hsense.swimMode, hsense.swimTransition⟩
  · exact ⟨rfl, rfl⟩
  · exact .refl s

theorem sameMode_writeRegister (s : IwmController) (value : UInt8) :
    SameMode s (s.writeRegister value) := by
  unfold writeRegister
  split_ifs
  · exact ⟨rfl, rfl⟩
  · exact (⟨rfl, rfl⟩ : SameMode s { s with dataWrites := s.dataWrites + 1 }).trans
      (sameMode_onSelected _ _)

theorem sameMode_lineSet (s : IwmController) (line : UInt8) (wasOn on : Bool) :
    SameMode s (s.lineSet line wasOn on) := by
  unfold lineSet
  split_ifs
  · exact ⟨rfl, rfl⟩
  · exact ⟨rfl, rfl⟩
  · exact (⟨rfl, rfl⟩ : SameMode s { s with selectedDriveRegister := s.driveRegister }).trans
      (sameMode_onSelected _ _)
  · exact sameMode_applyDriveStrobe s
  · exact .refl s

theorem sameMode_setLine (s : IwmController) (line : UInt8) (on : Bool) :
    SameMode s (s.setLine line on) := by
  unfold setLine
  refine SameMode.trans ?_ (sameMode_lineSet _ _ _ _)
  split_ifs
  · exact ⟨(sameMode_onSelected s _).swimMode, (sameMode_onSelected s _).swimTransition⟩
  · exact ⟨rfl, rfl⟩

theorem sameMode_iwmAccess (s : IwmController) (registerIndex value : UInt8) (write : Bool) :
    SameMode s (s.iwmAccess registerIndex value write).1 := by
  unfold iwmAccess
  refine SameMode.trans ?_ (sameMode_readRegister _)
  split_ifs
  · exact (sameMode_setLine s _ _).trans (sameMode_writeRegister _ _)
  · exact sameMode_setLine s _ _

theorem sameMode_applySwimStrobe (s : IwmController) : SameMode s s.applySwimStrobe := by
  unfold applySwimStrobe
  split
  · exact ⟨rfl, rfl⟩
  · exact sameMode_flush_onSelected s _
  · exact sameMode_onSelected s _
  · exact ⟨rfl, rfl⟩
  · exact sameMode_flush_onSelected s _
  · exact sameMode_flush_onSelected s _
  · exact ⟨rfl, rfl⟩
  · exact sameMode_onSelected s _
  · exact ⟨rfl, rfl⟩
  · exact .refl s

theorem sameMode_applySwimPhases (s : IwmController) (phases : UInt8) :
    SameMode s (s.applySwimPhases phases) := by
  unfold applySwimPhases
  dsimp only
  obtain ⟨t, ht⟩ : ∃ t, t = ({ s with
    selectedDriveRegister := (phases &&& 0x07) ||| if s.sideSelect then 0x08 else 0x00 }).onSelected
      fun d => d.setCurrentSide s.sideIndex := ⟨_, rfl⟩
  have hselected : SameMode s t := by
    rw [ht]
    exact (⟨rfl, rfl⟩ : SameMode s { s with
      selectedDriveRegister := (phases &&& 0x07) ||| if s.sideSelect then 0x08 else 0x00 }).trans
        (sameMode_onSelected _ _)
  rw [← ht]
  split_ifs
  · have hstrobe := hselected.trans (sameMode_applySwimStrobe t)
    exact ⟨hstrobe.swimMode, hstrobe.swimTransition⟩
  · exact ⟨hselected.swimMode, hselected.swimTransition⟩

/-- The counter rests in the ISM mode. -/
theorem transition_swimWriteRegister (s : IwmController) (reg value : UInt8) :
    (s.swimWriteRegister reg value).swimTransition = s.swimTransition := by
  unfold swimWriteRegister
  split
  · dsimp only
    split_ifs
    · exact (sameMode_setSelectedDrive _ _).swimTransition
    · exact (sameMode_setSelectedDrive _ _).swimTransition
    · rfl
  · dsimp only
    split_ifs
    · exact (sameMode_setSelectedDrive _ _).swimTransition
    · exact (sameMode_setSelectedDrive _ _).swimTransition
    · rfl
  · rfl
  · exact (sameMode_applySwimPhases _ value).swimTransition
  · rfl
  · rfl
  · rfl
  · rfl

theorem sameMode_clearSwimError (s : IwmController) : SameMode s s.clearSwimError := by
  unfold clearSwimError
  split_ifs <;> exact ⟨rfl, rfl⟩

theorem sameMode_endSwimWrites (s : IwmController) (previousMode : UInt8) :
    SameMode s (s.endSwimWrites previousMode) := by
  have hset := sameMode_setSelectedDrive s s.selectedDrive.flushWrites.1
  unfold endSwimWrites
  dsimp only
  split_ifs
  · exact ⟨hset.swimMode, hset.swimTransition⟩
  · exact hset
  · exact .refl s

theorem sameMode_beginSwimReads (s : IwmController) (previousMode : UInt8) :
    SameMode s (s.beginSwimReads previousMode) := by
  unfold beginSwimReads
  split_ifs
  · exact sameMode_onSelected s _
  · exact .refl s

theorem transition_swimWrite (s : IwmController) (reg value : UInt8) :
    (s.swimWrite reg value).swimTransition = s.swimTransition := by
  unfold swimWrite
  have hmotors : ∀ t : IwmController, SameMode t t.setSwimMotors := fun _ => ⟨rfl, rfl⟩
  have hrest := (sameMode_clearSwimError (s.swimWriteRegister reg value)).trans
    (sameMode_endSwimWrites _ s.swimModeRegister) |>.trans (hmotors _) |>.trans
    (sameMode_beginSwimReads _ s.swimModeRegister)
  exact hrest.swimTransition.trans (transition_swimWriteRegister s reg value)

theorem sameMode_actionBits (s : IwmController) : SameMode s s.actionBits.1 := by
  unfold actionBits
  split_ifs
  · exact sameMode_setSelectedDrive s _
  · exact .refl s

theorem sameMode_swimHandshake (s : IwmController) : SameMode s s.swimHandshake.1 :=
  (⟨rfl, rfl⟩ : SameMode s { s with handshakeReads := s.handshakeReads + 1 }).trans
    ((sameMode_actionBits _).trans (sameMode_driveSenseHigh _))

theorem transition_swimRead (s : IwmController) (reg : UInt8) :
    (s.swimRead reg).1.swimTransition = s.swimTransition := by
  have hread : ∀ d, ({ s with dataReads := s.dataReads + 1 }.setSelectedDrive d).swimTransition =
      s.swimTransition := fun d => (sameMode_setSelectedDrive _ d).swimTransition
  unfold swimRead
  split
  · dsimp only
    split_ifs
    · exact hread _
    · exact hread _
  · exact hread _
  · rfl
  · rfl
  · rfl
  · rfl
  · rfl
  · exact (sameMode_swimHandshake s).swimTransition

theorem transition_swimAccess (s : IwmController) (registerIndex value : UInt8) (write : Bool) :
    (s.swimAccess registerIndex value write).1.swimTransition = s.swimTransition := by
  unfold swimAccess
  split_ifs
  · exact transition_swimWrite s _ _
  · exact transition_swimRead s _

/-! ## Runs -/

/-- The counter of the recogniser, which rests in the ISM mode. -/
structure Counts (s : IwmController) : Prop where
  low : s.swimTransition.toNat < 4
  rests : s.swimMode = true → s.swimTransition = 0

theorem unlockWord_getElem (n : UInt8) (hn : n.toNat < 4) :
    unlockWord[n.toNat]? = some (n != 1) := by
  have hall : ∀ n : Fin 4, unlockWord[n.val]? = some (UInt8.ofNat n.val != 1) := by decide
  have h := hall ⟨n.toNat, hn⟩
  rwa [UInt8.ofNat_toNat] at h

/-- A bit that is expected is the next one of the word. -/
theorem expected_iff {n : UInt8} (hn : n.toNat < 4) (bit : Bool) :
    (if n = 1 then !bit else bit) = true ↔ some bit = unlockWord[n.toNat]? := by
  rw [unlockWord_getElem n hn, Option.some_inj]
  by_cases h1 : n = 1
  · simp [h1]
  · rw [if_neg h1, bne_iff_ne.2 h1]

theorem advance_expected {n : UInt8} (hn : n.toNat < 4) {bit : Bool}
    (h : (if n = 1 then !bit else bit) = true) :
    Recogniser.advance unlockWord n.toNat (some bit) = n.toNat + 1 :=
  if_pos ⟨rfl, (expected_iff hn bit).1 h⟩

theorem advance_unexpected {n : UInt8} (hn : n.toNat < 4) {bit : Bool}
    (h : (if n = 1 then !bit else bit) ≠ true) :
    Recogniser.advance unlockWord n.toNat (some bit) = 0 :=
  if_neg fun hx => h ((expected_iff hn bit).2 hx.2)

/-- The access takes the counter back. -/
theorem counts_of_zero (ht : SameMode { s with swimTransition := 0 } t)
    {x : Option Bool} {n : Nat} (hx : Recogniser.advance unlockWord n x = 0)
    (hswim : s.swimMode = false) :
    t.Counts ∧ t.swimTransition.toNat = Recogniser.next unlockWord n x ∧
      (s.swimMode = false ∧ t.swimMode = true ↔ Recogniser.Hits unlockWord n x) := by
  have hnot : ¬ Recogniser.Hits unlockWord n x := by
    rw [Recogniser.Hits, hx]
    decide
  have hzero : t.swimTransition = 0 := ht.swimTransition
  have hmode : t.swimMode = false := ht.swimMode.trans hswim
  refine ⟨⟨by rw [hzero]; decide, fun _ => hzero⟩, ?_, ?_⟩
  · rw [Recogniser.next, if_neg hnot, hx, hzero]
    rfl
  · refine iff_of_false (fun h => ?_) hnot
    rw [hmode] at h
    cases h.2

/-- A bit of a mode-register write. -/
theorem modeWrite_counts (hs : s.Counts) (hswim : s.swimMode = false) (registerIndex value : UInt8) :
    (s.modeWrite registerIndex value).1.Counts ∧
      (s.modeWrite registerIndex value).1.swimTransition.toNat =
        Recogniser.next unlockWord s.swimTransition.toNat (some (value &&& 0x40 != 0)) ∧
      (s.swimMode = false ∧ (s.modeWrite registerIndex value).1.swimMode = true ↔
        Recogniser.Hits unlockWord s.swimTransition.toNat (some (value &&& 0x40 != 0))) := by
  have hbit : (if s.swimTransition = 1 then value &&& 0x40 == 0 else value &&& 0x40 != 0) =
      if s.swimTransition = 1 then !(value &&& 0x40 != 0) else (value &&& 0x40 != 0) := by
    split_ifs
    · exact (Bool.not_not _).symm
    · rfl
  have hlow := hs.low
  unfold modeWrite
  dsimp only
  rw [hbit]
  generalize (value &&& 0x40 != 0) = bit
  by_cases hexpected : (if s.swimTransition = 1 then !bit else bit) = true
  · have hadvance := advance_expected hs.low hexpected
    have hnext : (s.swimTransition + 1).toNat = s.swimTransition.toNat + 1 := by
      rw [UInt8.toNat_add, Nat.mod_eq_of_lt]
      · rfl
      · show s.swimTransition.toNat + 1 < 256
        omega
    rw [if_pos hexpected]
    by_cases hlast : s.swimTransition + 1 = 4
    · have hhits : Recogniser.Hits unlockWord s.swimTransition.toNat (some bit) := by
        rw [Recogniser.Hits, hadvance, ← hnext, hlast]
        rfl
      rw [if_pos hlast]
      refine ⟨⟨(by decide : (0 : UInt8).toNat < 4), fun _ => rfl⟩, ?_,
        iff_of_true ⟨hswim, rfl⟩ hhits⟩
      rw [Recogniser.next, if_pos hhits]
      rfl
    · have hsame := sameMode_iwmAccess { s with swimTransition := s.swimTransition + 1 }
        registerIndex value true
      have hne : s.swimTransition.toNat + 1 ≠ 4 := by
        rw [← hnext]
        exact fun h => hlast (UInt8.toNat_inj.1 h)
      have hnot : ¬ Recogniser.Hits unlockWord s.swimTransition.toNat (some bit) := by
        rw [Recogniser.Hits, hadvance]
        exact hne
      have hmode := hsame.swimMode.trans hswim
      have hcount := congrArg UInt8.toNat hsame.swimTransition
      rw [if_neg hlast, Recogniser.next, if_neg hnot, hadvance]
      refine ⟨⟨?_, fun h => ?_⟩, hcount.trans hnext, iff_of_false (fun h => ?_) hnot⟩
      · rw [hcount]
        show (s.swimTransition + 1).toNat < 4
        omega
      · rw [hmode] at h
        cases h
      · rw [hmode] at h
        cases h.2
  · rw [if_neg hexpected]
    exact counts_of_zero (sameMode_iwmAccess _ _ _ _) (advance_unexpected hs.low hexpected) hswim

/-- What an access makes of the counter and of the mode. -/
theorem step_counts (hs : s.Counts) (a : Access) :
    (s.step a).Counts ∧
      (s.step a).swimTransition.toNat =
        Recogniser.next unlockWord s.swimTransition.toNat (s.unlockBit a) ∧
      (EntersIsm s a ↔ Recogniser.Hits unlockWord s.swimTransition.toNat (s.unlockBit a)) := by
  cases hswim : s.swimMode with
  | true =>
    have hnone : s.unlockBit a = none := if_neg fun h => by rw [hswim] at h; cases h.1
    have hstep : (s.step a).swimTransition = 0 := by
      unfold step access
      rw [hswim, if_pos rfl, transition_swimAccess]
      exact hs.rests hswim
    have hnot : ¬ Recogniser.Hits unlockWord s.swimTransition.toNat none := by
      rw [Recogniser.Hits, Recogniser.advance_none]
      decide
    rw [hnone]
    refine ⟨⟨by rw [hstep]; decide, fun _ => hstep⟩, ?_, iff_of_false (fun h => ?_) hnot⟩
    · rw [Recogniser.next, if_neg hnot, Recogniser.advance_none, hstep]
      rfl
    · rw [EntersIsm, hswim] at h
      cases h.1
  | false =>
    have hnot : ¬ s.swimMode = true := by
      rw [hswim]
      exact Bool.false_ne_true
    by_cases hwrite : a.write = true ∧ a.registerIndex &&& 0x0f = 0x0f ∧ s.lines Line.motor = false
    · have hstep : s.step a = (s.modeWrite (a.registerIndex &&& 0x0f) a.value).1 := by
        unfold step access
        rw [if_neg hnot, if_pos (by simpa using hwrite)]
      rw [EntersIsm, hstep, unlockBit, if_pos ⟨hswim, hwrite⟩]
      exact modeWrite_counts hs hswim _ _
    · have hstep : s.step a = ({ s with swimTransition := 0 }.iwmAccess (a.registerIndex &&& 0x0f)
          a.value a.write).1 := by
        unfold step access
        rw [if_neg hnot, if_neg (by simpa using hwrite)]
      rw [EntersIsm, hstep, unlockBit, if_neg fun h => hwrite h.2]
      exact counts_of_zero (sameMode_iwmAccess _ _ _ _) (Recogniser.advance_none _) hswim

theorem signals_append (s : IwmController) (as bs : List Access) :
    s.signals (as ++ bs) = s.signals as ++ (run step s as).signals bs := by
  induction as generalizing s with
  | nil => rfl
  | cons a as ih => simp [signals, ih]

theorem length_signals (s : IwmController) (as : List Access) :
    (s.signals as).length = as.length := by
  induction as generalizing s with
  | nil => rfl
  | cons a as ih => simp [signals, ih]

theorem counts_reset (c : IwmController) : c.reset.Counts :=
  ⟨(by decide : (0 : UInt8).toNat < 4), fun _ => rfl⟩

/-- The counter is that of the recogniser. -/
theorem run_counts (c : IwmController) (as : List Access) :
    (run step c.reset as).Counts ∧
      (run step c.reset as).swimTransition.toNat =
        Recogniser.count unlockWord (c.reset.signals as) := by
  induction as using List.reverseRecOn with
  | nil => exact ⟨counts_reset c, rfl⟩
  | append_singleton as a ih =>
    obtain ⟨hcounts, hcount⟩ := ih
    obtain ⟨hstep, hnext, -⟩ := step_counts hcounts a
    rw [run_append, signals_append]
    refine ⟨hstep, ?_⟩
    show ((run step c.reset as).step a).swimTransition.toNat = Recogniser.count unlockWord
      (c.reset.signals as ++ [(run step c.reset as).unlockBit a])
    rw [Recogniser.count_append_singleton, ← hcount, hnext]

/-- The controller enters the ISM mode at the end of the unlocking bits exactly where no attempt is
    unfinished in front of them. -/
theorem entersIsm_iff (c : IwmController) (as : List Access) (a : Access) :
    (EntersIsm (run step c.reset as) a ↔ Unlocks c.reset as a) ↔
      ∀ pre bits, as ++ [a] = pre ++ bits →
        (run step c.reset pre).signals bits = unlockWord.map some →
          (run step c.reset pre).swimTransition = 0 := by
  obtain ⟨hcounts, hcount⟩ := run_counts c as
  have henters : EntersIsm (run step c.reset as) a ↔
      ∃ pre, c.reset.signals (as ++ [a]) = pre ++ unlockWord.map some ∧
        Recogniser.count unlockWord pre = 0 := by
    rw [(step_counts hcounts a).2.2, hcount, signals_append]
    exact Recogniser.hits_iff (by decide) _ _
  -- where the signals are split, the accesses are
  have hsplit : ∀ pre, c.reset.signals (as ++ [a]) = pre ++ unlockWord.map some →
      ∃ before bits, as ++ [a] = before ++ bits ∧ c.reset.signals before = pre ∧
        (run step c.reset before).signals bits = unlockWord.map some := by
    intro pre hpre
    refine ⟨(as ++ [a]).take pre.length, (as ++ [a]).drop pre.length,
      (List.take_append_drop _ _).symm, ?_⟩
    have hboth := hpre
    rw [← List.take_append_drop pre.length (as ++ [a]), signals_append] at hboth
    refine List.append_inj hboth ?_
    have hlength : pre.length ≤ (as ++ [a]).length := by
      rw [← length_signals c.reset, hpre, List.length_append]
      exact Nat.le_add_right _ _
    rw [length_signals, List.length_take, Nat.min_eq_left hlength]
  rw [henters]
  constructor
  · intro h pre bits hbits hsignals
    have hunlocks : Unlocks c.reset as a := by
      refine ⟨c.reset.signals pre, ?_⟩
      rw [hbits, signals_append, hsignals]
    obtain ⟨pre', hpre', hzero⟩ := h.2 hunlocks
    rw [hbits, signals_append, hsignals] at hpre'
    have heq := List.append_inj_left' hpre' rfl
    refine UInt8.toNat_inj.1 ?_
    rw [(run_counts c pre).2, heq, hzero]
    rfl
  · intro h
    constructor
    · rintro ⟨pre, hpre, -⟩
      exact ⟨pre, hpre.symm⟩
    · rintro ⟨pre, hpre⟩
      obtain ⟨before, bits, hbits, hbefore, hsignals⟩ := hsplit pre hpre.symm
      refine ⟨pre, hpre.symm, ?_⟩
      rw [← hbefore, ← (run_counts c before).2, h before bits hbits hsignals]
      rfl

end

/-- A new controller with empty drives. -/
def powerOn : IwmController :=
  let drive : FloppyDiskImage :=
    { host := { files := fun _ => none, isWritable := fun _ => true, saveOk := fun _ => true } }
  { internalDrive := drive, externalDrive := drive }

/-- After an extra one the unlocking bits are missed. -/
theorem extra_one_locks :
    Unlocks powerOn.reset ([0x40, 0x40, 0x00, 0x40].map fun value => ⟨0x0f, value, true⟩)
        ⟨0x0f, 0x40, true⟩ ∧
      ¬ EntersIsm (run step powerOn.reset
        ([0x40, 0x40, 0x00, 0x40].map fun value => ⟨0x0f, value, true⟩)) ⟨0x0f, 0x40, true⟩ :=
  ⟨⟨[some true], rfl⟩, fun h => Bool.false_ne_true h.2⟩

end IwmController

end CuteMac.Floppy
