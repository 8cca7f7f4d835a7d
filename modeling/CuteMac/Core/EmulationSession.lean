/-
  The media of a session (`EmulationSession.cpp`, and the loaders of
  `MacPlusMachine.cpp`, `MacIIcxMachine.cpp` and `Quadra700Machine.cpp`).

  * `Machine`: the floppy drives and the SCSI devices of a machine;
  * `loadScsiDisk`, `loadScsiCdRom`, `loadFloppyImage`: the loaders;
  * `Configuration`, `EmulationSession`: what the session remembers;
  * `insertDisk`, `insertScsiDevice`, `insertFloppy`: media are put in.

  The loaders of the three machines differ in what they refuse and in the paths
  they keep.  The files behind a floppy drive are a member of the drive; those
  behind the SCSI devices are an argument.
-/
import CuteMac.Floppy.Invariant
import CuteMac.Scsi.CdRomDevice
import Mathlib.Data.Fintype.Basic
import Mathlib.Logic.Function.Basic

namespace CuteMac.Core

open CuteMac.Floppy CuteMac.Scsi

/-! ## Machines -/

inductive Model where
  | macintosh128K
  | macintosh512K
  | macintosh512Ke
  | macintoshPlus
  | macintoshIIcx
  | quadra700
  deriving DecidableEq

/-- The models of `MacPlusMachine`. -/
def Model.compact : Model → Bool
  | macintosh128K | macintosh512K | macintosh512Ke | macintoshPlus => true
  | macintoshIIcx | quadra700 => false

/-- `modelHasScsi`; the other machines do not ask. -/
def Model.hasScsi (model : Model) : Bool := !model.compact || model == .macintoshPlus

/-- `modelSupportsDoubleSidedFloppy`; the other machines do not ask. -/
def Model.supportsDoubleSidedFloppy (model : Model) : Bool :=
  !model.compact || model == .macintosh512Ke || model == .macintoshPlus

/-- The device that answers to a SCSI id. -/
inductive ScsiTarget where
  | none
  | disk
  | cdRom
  deriving DecidableEq

/-- What `m_scsiDisks`, `m_scsiCdRoms` and the controller have for a SCSI id. -/
structure ScsiSlot where
  disk : Option ScsiBlockDevice := none
  cdRom : Option ScsiCdRomDevice := none
  target : ScsiTarget := .none

structure Machine where
  model : Model
  floppies : Fin 2 → FloppyDiskImage
  scsi : Fin 7 → ScsiSlot := fun _ => {}
  /-- of a compact machine -/
  diskImagePath : String := ""
  /-- of the others -/
  floppyPaths : Fin 2 → String := fun _ => ""

namespace Machine

/-- The entry of an array of `n` that an index names. -/
def index (n : Nat) (i : Int) : Option (Fin n) :=
  if h : 0 ≤ i ∧ i.toNat < n then some ⟨i.toNat, h.2⟩ else none

def loadScsiDisk (host : Scsi.Host) (m : Machine) (id : Int) (path : String) (readOnly : Bool) :
    Bool × Machine :=
  if !m.model.hasScsi then (false, m)
  else
    match index 7 id with
    | none => (false, m)
    | some k =>
      let (loaded, disk) := ScsiBlockDevice.loadImage host {} path readOnly
      if !loaded then (false, m)
      else
        (true, { m with
          scsi := Function.update m.scsi k { disk := some disk, target := .disk }
          diskImagePath := if m.model.compact ∧ id = 0 then path else m.diskImagePath })

def loadScsiCdRom (host : Scsi.Host) (m : Machine) (id : Int) (path : String) : Bool × Machine :=
  if !m.model.hasScsi then (false, m)
  else
    match index 7 id with
    | none => (false, m)
    | some k =>
      let cdRom := (m.scsi k).cdRom.getD {}
      let (loaded, cdRom) := if path = "" then (true, cdRom) else cdRom.loadImage host path
      if !loaded then (false, m)
      else
        (true, { m with
          scsi := Function.update m.scsi k { cdRom := some cdRom, target := .cdRom } })

def loadDiskImage (host : Scsi.Host) (m : Machine) (path : String) : Bool × Machine :=
  m.loadScsiDisk host 0 path false

/-- `IwmController::loadFloppyImage`. -/
def iwmLoadFloppyImage (m : Machine) (drive : Int) (path : String) (readOnly : Bool) :
    Bool × Machine :=
  match index 2 drive with
  | none => (false, m)
  | some k =>
    let (floppy, loaded) := (m.floppies k).flushWrites.1.load path readOnly
    (loaded, { m with floppies := Function.update m.floppies k floppy })

/-- `IwmController::ejectFloppyImage`. -/
def iwmEjectFloppyImage (m : Machine) (drive : Int) : Machine :=
  match index 2 drive with
  | none => m
  | some k => { m with floppies := Function.update m.floppies k (m.floppies k).eject }

/-- A compact machine with single-sided drives ejects what it cannot read; the others keep the
    path. -/
def loadFloppyImage (m : Machine) (drive : Int) (path : String) (readOnly : Bool) :
    Bool × Machine :=
  match index 2 drive with
  | none => (false, m)
  | some k =>
    let (loaded, m) := m.iwmLoadFloppyImage drive path readOnly
    if !loaded then (false, m)
    else if m.model.compact then
      if !m.model.supportsDoubleSidedFloppy ∧
          ((m.floppies k).doubleSided ∨ (m.floppies k).highDensity) then
        (false, m.iwmEjectFloppyImage drive)
      else (true, m)
    else (true, { m with floppyPaths := Function.update m.floppyPaths k path })

end Machine

/-! ## The session -/

inductive ScsiDeviceType where
  | hardDisk
  | cdRom
  deriving DecidableEq

structure IwmDeviceConfiguration where
  imagePath : String := ""
  readOnly : Bool := false
  deriving DecidableEq

structure ScsiDeviceConfiguration where
  id : Int := 0
  type : ScsiDeviceType := .hardDisk
  imagePath : String := ""
  readOnly : Bool := false
  deriving DecidableEq

structure Configuration where
  diskPath : String := ""
  floppyPath : String := ""
  iwmDevices : List IwmDeviceConfiguration := []
  scsiDevices : List ScsiDeviceConfiguration := []
  deriving DecidableEq

/-- There are two drives, if there are any. -/
def ensureFloppyDriveCount (c : Configuration) : Configuration :=
  if c.iwmDevices = [] then c
  else
    let blank : IwmDeviceConfiguration := {}
    let devices := (c.iwmDevices ++ List.replicate (2 - c.iwmDevices.length) blank).take 2
    { c with iwmDevices := devices, floppyPath := (devices.headD blank).imagePath }

/-- The first device with the id gets an image; nothing, if there is no such device. -/
def assignImage (id : Int) (type : ScsiDeviceType) (path : String) (readOnly : Bool) :
    List ScsiDeviceConfiguration → Option (List ScsiDeviceConfiguration)
  | [] => none
  | device :: devices =>
    if device.id ≠ id then (assignImage id type path readOnly devices).map (device :: ·)
    else
      some ({ device with
        type := type
        imagePath := path
        readOnly := type == .cdRom || readOnly } :: devices)

structure EmulationSession where
  configuration : Configuration
  machine : Option Machine

namespace EmulationSession

def insertDisk (host : Scsi.Host) (s : EmulationSession) (path : String) :
    Bool × EmulationSession :=
  match s.machine with
  | none => (false, s)
  | some m =>
    let (loaded, m) := m.loadDiskImage host path
    let s := { s with machine := some m }
    if !loaded then (false, s) else (true, { s with configuration.diskPath := path })

def insertScsiDevice (host : Scsi.Host) (s : EmulationSession) (id : Int) (type : ScsiDeviceType)
    (path : String) (readOnly : Bool) : Bool × EmulationSession :=
  match s.machine with
  | none => (false, s)
  | some m =>
    if path = "" then (false, s)
    else
      let (loaded, m) :=
        if type = .cdRom then m.loadScsiCdRom host id path
        else m.loadScsiDisk host id path readOnly
      let s := { s with machine := some m }
      if !loaded then (false, s)
      else
        match assignImage id type path readOnly s.configuration.scsiDevices with
        | none => (false, s)
        | some devices => (true, { s with configuration.scsiDevices := devices })

def insertFloppy (s : EmulationSession) (drive : Int) (path : String) (readOnly : Bool) :
    Bool × EmulationSession :=
  if drive < 0 ∨ 2 ≤ drive then (false, s)
  else
    match s.machine with
    | none => (false, s)
    | some m =>
      let (loaded, m) := m.loadFloppyImage drive path readOnly
      let s := { s with machine := some m }
      if !loaded then (false, s)
      else if s.configuration.iwmDevices = [] then (false, s)
      else
        let c := ensureFloppyDriveCount s.configuration
        (true, { s with
          configuration :=
            { c with
              iwmDevices := c.iwmDevices.set drive.toNat ⟨path, readOnly⟩
              floppyPath := if drive = 0 then path else c.floppyPath } })

end EmulationSession

end CuteMac.Core
