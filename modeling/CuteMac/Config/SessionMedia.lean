/-
  A session's profile under media operations (`EmulationSession.cpp`).

  * `Session`: the profile of a session, and whether it has a machine;
  * `insertDisk`, `ejectDisk`, `insertScsiDevice`, `ejectScsiDevice`,
    `insertFloppy`, `ejectFloppy`: what the operations do to it;
  * `Tracks`: the insertions are those of `Core.EmulationSession`;
  * `Harmless`: the calls that keep a profile valid; ejecting a SCSI device is
    not one, as the entry stays without an image.

  What the machine answers to a load is an argument of the call.
-/
import CuteMac.Config.Configuration
import CuteMac.Core.FailedInsertion

namespace CuteMac.Config

open CuteMac.Core

structure Session where
  machine : Bool
  configuration : Configuration
  deriving DecidableEq

/-- `ensureFloppyDriveCount`, on a whole profile. -/
def ensureFloppyDriveCount (c : Configuration) : Configuration :=
  { c with toConfiguration := Core.ensureFloppyDriveCount c.toConfiguration }

/-- The first device with the id loses its image. -/
def clearImage (id : Int) : List ScsiDeviceConfiguration → List ScsiDeviceConfiguration
  | [] => []
  | device :: devices =>
    if device.id ≠ id then device :: clearImage id devices
    else { device with imagePath := "" } :: devices

namespace Session

def insertDisk (s : Session) (path : String) (loaded : Bool) : Bool × Session :=
  if !s.machine || !loaded then (false, s)
  else (true, { s with configuration.diskPath := path })

def ejectDisk (s : Session) : Session := { s with configuration.diskPath := "" }

def insertScsiDevice (s : Session) (id : Int) (type : ScsiDeviceType) (path : String)
    (readOnly loaded : Bool) : Bool × Session :=
  if !s.machine ∨ path = "" then (false, s)
  else if !loaded then (false, s)
  else
    match assignImage id type path readOnly s.configuration.scsiDevices with
    | none => (false, s)
    | some devices => (true, { s with configuration.scsiDevices := devices })

def ejectScsiDevice (s : Session) (id : Int) : Session :=
  if !s.machine then s
  else { s with configuration.scsiDevices := clearImage id s.configuration.scsiDevices }

def insertFloppy (s : Session) (drive : Int) (path : String) (readOnly loaded : Bool) :
    Bool × Session :=
  if drive < 0 ∨ 2 ≤ drive ∨ !s.machine ∨ !loaded then (false, s)
  else if s.configuration.iwmDevices = [] then (false, s)
  else
    let c := ensureFloppyDriveCount s.configuration
    (true, { s with
      configuration :=
        { c with
          iwmDevices := c.iwmDevices.set drive.toNat ⟨path, readOnly⟩
          floppyPath := if drive = 0 then path else c.floppyPath } })

def ejectFloppy (s : Session) (drive : Int) : Session :=
  if drive < 0 ∨ 2 ≤ drive then s
  else if s.configuration.iwmDevices = [] then s
  else
    let c := ensureFloppyDriveCount s.configuration
    { s with
      configuration :=
        { c with
          iwmDevices := c.iwmDevices.modify drive.toNat ({ · with imagePath := "" })
          floppyPath := if drive = 0 then "" else c.floppyPath } }

end Session

/-- A call on a session, with the answer of the machine if it loads something. -/
inductive MediaCall where
  | insertDisk (path : String) (loaded : Bool)
  | ejectDisk
  | insertScsiDevice (id : Int) (type : ScsiDeviceType) (path : String) (readOnly loaded : Bool)
  | ejectScsiDevice (id : Int)
  | insertFloppy (drive : Int) (path : String) (readOnly loaded : Bool)
  | ejectFloppy (drive : Int)

def Session.step (s : Session) : MediaCall → Session
  | .insertDisk path loaded => (s.insertDisk path loaded).2
  | .ejectDisk => s.ejectDisk
  | .insertScsiDevice id type path readOnly loaded =>
    (s.insertScsiDevice id type path readOnly loaded).2
  | .ejectScsiDevice id => s.ejectScsiDevice id
  | .insertFloppy drive path readOnly loaded => (s.insertFloppy drive path readOnly loaded).2
  | .ejectFloppy drive => s.ejectFloppy drive

/-! ## The same session with its machine -/

/-- `s` has the profile of `t`, and a machine if `t` has one. -/
structure Tracks (s : Session) (t : EmulationSession) : Prop where
  machine : s.machine = t.machine.isSome
  configuration : s.configuration.toConfiguration = t.configuration

section
variable {s : Session} {t : EmulationSession} {host : Scsi.Host}

theorem insertDisk_tracks (h : Tracks s t) (path : String) :
    ∃ loaded, (s.insertDisk path loaded).1 = (t.insertDisk host path).1 ∧
      Tracks (s.insertDisk path loaded).2 (t.insertDisk host path).2 := by
  obtain ⟨machine, c⟩ := s
  obtain ⟨media, m⟩ := t
  obtain ⟨hmachine, hmedia⟩ := h
  dsimp only at hmachine hmedia
  subst hmachine hmedia
  unfold EmulationSession.insertDisk Session.insertDisk
  cases m with
  | none => exact ⟨false, rfl, rfl, rfl⟩
  | some m =>
    refine ⟨(m.loadDiskImage host path).1, ?_⟩
    cases hload : (m.loadDiskImage host path).1 with
    | false =>
      simp only [hload]
      exact ⟨rfl, rfl, rfl⟩
    | true =>
      simp only [hload]
      exact ⟨rfl, rfl, rfl⟩

theorem insertScsiDevice_tracks (h : Tracks s t) (id : Int) (type : ScsiDeviceType) (path : String)
    (readOnly : Bool) :
    ∃ loaded, (s.insertScsiDevice id type path readOnly loaded).1 =
        (t.insertScsiDevice host id type path readOnly).1 ∧
      Tracks (s.insertScsiDevice id type path readOnly loaded).2
        (t.insertScsiDevice host id type path readOnly).2 := by
  obtain ⟨machine, c⟩ := s
  obtain ⟨media, m⟩ := t
  obtain ⟨hmachine, hmedia⟩ := h
  dsimp only at hmachine hmedia
  subst hmachine hmedia
  unfold EmulationSession.insertScsiDevice Session.insertScsiDevice
  cases m with
  | none => exact ⟨false, rfl, rfl, rfl⟩
  | some m =>
    by_cases hpath : path = ""
    · simp only [hpath]
      exact ⟨false, rfl, rfl, rfl⟩
    · cases hload : (if type = .cdRom then m.loadScsiCdRom host id path
          else m.loadScsiDisk host id path readOnly) with
      | mk loaded m' =>
        refine ⟨loaded, ?_⟩
        simp only [hload, hpath]
        cases loaded with
        | false => exact ⟨rfl, rfl, rfl⟩
        | true =>
          cases assignImage id type path readOnly c.scsiDevices with
          | none => exact ⟨rfl, rfl, rfl⟩
          | some devices => exact ⟨rfl, rfl, rfl⟩

theorem insertFloppy_tracks (h : Tracks s t) (drive : Int) (path : String) (readOnly : Bool) :
    ∃ loaded, (s.insertFloppy drive path readOnly loaded).1 =
        (t.insertFloppy drive path readOnly).1 ∧
      Tracks (s.insertFloppy drive path readOnly loaded).2
        (t.insertFloppy drive path readOnly).2 := by
  obtain ⟨machine, c⟩ := s
  obtain ⟨media, m⟩ := t
  obtain ⟨hmachine, hmedia⟩ := h
  dsimp only at hmachine hmedia
  subst hmachine hmedia
  unfold EmulationSession.insertFloppy Session.insertFloppy
  by_cases hdrive : drive < 0 ∨ 2 ≤ drive
  · rw [if_pos hdrive]
    refine ⟨false, ?_⟩
    rw [if_pos (by rcases hdrive with h | h <;> simp [h])]
    exact ⟨rfl, rfl, rfl⟩
  rw [if_neg hdrive]
  obtain ⟨hlow, hhigh⟩ := not_or.mp hdrive
  cases m with
  | none =>
    refine ⟨false, ?_⟩
    rw [if_pos (by simp)]
    exact ⟨rfl, rfl, rfl⟩
  | some m =>
    cases hload : m.loadFloppyImage drive path readOnly with
    | mk loaded m' =>
      refine ⟨loaded, ?_⟩
      simp only [hload, hlow, hhigh, false_or]
      cases loaded with
      | false => exact ⟨rfl, rfl, rfl⟩
      | true =>
        by_cases hnone : c.iwmDevices = []
        · simp only [hnone, if_true]
          exact ⟨rfl, rfl, rfl⟩
        · simp only [hnone]
          exact ⟨rfl, rfl, rfl⟩

end

/-! ## Valid profiles stay valid -/

/-- What a call must not do to a valid profile: name a disk where there is no SCSI, or leave a
    SCSI device without an image. -/
def Harmless (s : Session) : MediaCall → Prop
  | .insertDisk path loaded =>
    s.machine → loaded → path = "" ∨
      MachineCatalog.hasDevicePrefix s.configuration.machineId "device.scsi."
  | .insertScsiDevice id _ path _ loaded =>
    s.machine → loaded → path ≠ "" → id ∈ s.configuration.scsiDevices.map (·.id) →
      trimmed path ≠ ""
  | .ejectScsiDevice id => s.machine → id ∉ s.configuration.scsiDevices.map (·.id)
  | .ejectDisk | .insertFloppy .. | .ejectFloppy _ => True

section
variable {slirp : Bool} {machine : MachineProfile} {c : Configuration}

theorem hasDevicePrefix_of_valid (valid : Valid slirp machine c) (devices : String) :
    MachineCatalog.hasDevicePrefix c.machineId devices = machine.hasPrefix devices := by
  unfold MachineCatalog.hasDevicePrefix
  rw [valid.found]
  rfl

end

section
variable {machine : MachineProfile} {c : Core.Configuration}

theorem validMedia_diskPath (media : ValidMedia machine c) (path : String) :
    ValidMedia machine { c with diskPath := path } ↔
      path = "" ∨ machine.hasPrefix "device.scsi." := by
  constructor
  · intro h
    rcases h.scsi with hscsi | ⟨-, hpath⟩
    · exact .inr hscsi
    · exact .inl hpath
  · intro h
    refine ⟨media.floppy, media.drives, ?_, media.devices, media.ids⟩
    rcases h with hpath | hscsi
    · rcases media.scsi with hscsi | ⟨hnone, -⟩
      · exact .inl hscsi
      · exact .inr ⟨hnone, hpath⟩
    · exact .inl hscsi

/-- The drives of a machine that has some may hold anything. -/
theorem validMedia_drives (media : ValidMedia machine c) (hsome : c.iwmDevices ≠ [])
    {devices : List IwmDeviceConfiguration} (hcount : devices.length ≤ 2) (path : String) :
    ValidMedia machine { c with iwmDevices := devices, floppyPath := path } := by
  refine ⟨?_, hcount, media.scsi, media.devices, media.ids⟩
  rcases media.floppy with hfloppy | ⟨hnone, -⟩
  · exact .inl hfloppy
  · exact absurd hnone hsome

theorem ensureFloppyDriveCount_length (hsome : c.iwmDevices ≠ []) :
    (Core.ensureFloppyDriveCount c).iwmDevices.length = 2 := by
  unfold Core.ensureFloppyDriveCount
  rw [if_neg hsome]
  simp only [List.length_take, List.length_append, List.length_replicate]
  omega

theorem validMedia_ensureFloppyDriveCount (media : ValidMedia machine c) :
    ValidMedia machine (Core.ensureFloppyDriveCount c) := by
  by_cases hnone : c.iwmDevices = []
  · unfold Core.ensureFloppyDriveCount
    rw [if_pos hnone]
    exact media
  · have hcount := ensureFloppyDriveCount_length hnone
    unfold Core.ensureFloppyDriveCount at hcount ⊢
    rw [if_neg hnone] at hcount ⊢
    exact validMedia_drives media hnone hcount.le _

theorem assignImage_eq_some {id : Int} {type : ScsiDeviceType} {path : String} {readOnly : Bool}
    {devices devices' : List ScsiDeviceConfiguration}
    (h : assignImage id type path readOnly devices = some devices') :
    ∃ before device after, devices = before ++ device :: after ∧ device.id = id ∧
      devices' = before ++ { device with
        type := type
        imagePath := path
        readOnly := type == .cdRom || readOnly } :: after := by
  induction devices generalizing devices' with
  | nil => cases h
  | cons device devices ih =>
    rw [assignImage] at h
    by_cases hid : device.id = id
    · rw [if_neg (not_not_intro hid)] at h
      exact ⟨[], device, devices, rfl, hid, (Option.some.inj h).symm⟩
    · rw [if_pos hid] at h
      obtain ⟨rest, hrest, rfl⟩ := Option.map_eq_some_iff.mp h
      obtain ⟨before, target, after, rfl, htarget, rfl⟩ := ih hrest
      exact ⟨device :: before, target, after, rfl, htarget, rfl⟩

theorem clearImage_of_notMem {id : Int} {devices : List ScsiDeviceConfiguration}
    (h : id ∉ devices.map (·.id)) : clearImage id devices = devices := by
  induction devices with
  | nil => rfl
  | cons device devices ih =>
    rw [List.map_cons, List.mem_cons, not_or] at h
    rw [clearImage, if_pos (Ne.symm h.1), ih h.2]

theorem clearImage_of_mem {id : Int} {devices : List ScsiDeviceConfiguration}
    (h : id ∈ devices.map (·.id)) :
    ∃ before device after, devices = before ++ device :: after ∧ device.id = id ∧
      clearImage id devices = before ++ { device with imagePath := "" } :: after := by
  induction devices with
  | nil => cases h
  | cons device devices ih =>
    rw [clearImage]
    by_cases hid : device.id = id
    · rw [if_neg (not_not_intro hid)]
      exact ⟨[], device, devices, rfl, hid, rfl⟩
    · rw [if_pos hid]
      rw [List.map_cons, List.mem_cons] at h
      obtain ⟨before, target, after, rfl, htarget, heq⟩ := ih (h.resolve_left (Ne.symm hid))
      exact ⟨device :: before, target, after, rfl, htarget, congrArg (device :: ·) heq⟩

/-- A device in place of one with its id. -/
theorem validMedia_replace (media : ValidMedia machine c)
    {before after : List ScsiDeviceConfiguration} {device d : ScsiDeviceConfiguration}
    (hsplit : c.scsiDevices = before ++ device :: after) (hid : d.id = device.id) :
    ValidMedia machine { c with scsiDevices := before ++ d :: after } ↔
      ValidScsiDevice d := by
  constructor
  · intro h
    exact h.devices d (by simp)
  · intro valid
    have devices := media.devices
    have ids := media.ids
    rw [hsplit] at devices ids
    refine ⟨media.floppy, media.drives, ?_, ?_, ?_⟩
    · rcases media.scsi with hscsi | ⟨hnone, -⟩
      · exact .inl hscsi
      · rw [hsplit] at hnone
        simp at hnone
    · intro other hd
      rcases List.mem_append.mp hd with hd | hd
      · exact devices other (List.mem_append_left _ hd)
      · rcases List.mem_cons.mp hd with rfl | hd
        · exact valid
        · exact devices other (List.mem_append_right _ (List.mem_cons_of_mem _ hd))
    · simpa only [List.map_append, List.map_cons, hid] using ids

end

/-! ## Steps and runs -/

section
variable {slirp : Bool} {machine : MachineProfile} {s : Session}

theorem insertDisk_valid_iff (valid : Valid slirp machine s.configuration) (path : String)
    (loaded : Bool) :
    (∃ machine', Valid slirp machine' (s.insertDisk path loaded).2.configuration) ↔
      (s.machine → loaded → path = "" ∨ machine.hasPrefix "device.scsi.") := by
  unfold Session.insertDisk
  by_cases hload : s.machine ∧ loaded
  · rw [if_neg (by simp [hload.1, hload.2])]
    have hmedia := (valid_iff_of_media valid _).trans (validMedia_diskPath valid.media path)
    exact ⟨fun h _ _ => hmedia.mp h, fun h => hmedia.mpr (h hload.1 hload.2)⟩
  · have hrefused : (!s.machine || !loaded) = true := by
      by_contra h
      exact hload (by simpa using h)
    rw [if_pos hrefused]
    exact iff_of_true ⟨machine, valid⟩ fun hm hl => absurd ⟨hm, hl⟩ hload

theorem ejectDisk_valid (valid : Valid slirp machine s.configuration) :
    ∃ machine', Valid slirp machine' s.ejectDisk.configuration :=
  (valid_iff_of_media valid _).mpr ((validMedia_diskPath valid.media "").mpr (.inl rfl))

theorem insertScsiDevice_valid_iff (valid : Valid slirp machine s.configuration) (id : Int)
    (type : ScsiDeviceType) (path : String) (readOnly loaded : Bool) :
    (∃ machine', Valid slirp machine'
        (s.insertScsiDevice id type path readOnly loaded).2.configuration) ↔
      (s.machine → loaded → path ≠ "" → id ∈ s.configuration.scsiDevices.map (·.id) →
        trimmed path ≠ "") := by
  unfold Session.insertScsiDevice
  by_cases hcall : !s.machine ∨ path = ""
  · rw [if_pos hcall]
    refine iff_of_true ⟨machine, valid⟩ fun hm _ hpath => ?_
    rcases hcall with h | h
    · simp [hm] at h
    · exact absurd h hpath
  rw [if_neg hcall]
  obtain ⟨hm, hpath⟩ := not_or.mp hcall
  cases loaded with
  | false => exact iff_of_true ⟨machine, valid⟩ fun _ hl => by cases hl
  | true =>
    rw [if_neg (by decide)]
    cases hassign : assignImage id type path readOnly s.configuration.scsiDevices with
    | none =>
      refine iff_of_true ⟨machine, valid⟩ fun _ _ _ hid => ?_
      obtain ⟨device, hd, heq⟩ := List.mem_map.mp hid
      have hsome := (assignImage_isSome id type path readOnly _).mpr ⟨device, hd, heq⟩
      rw [hassign] at hsome
      cases hsome
    | some devices =>
      obtain ⟨before, device, after, hsplit, hid, rfl⟩ := assignImage_eq_some hassign
      have hmem : id ∈ s.configuration.scsiDevices.map (·.id) := by
        rw [hsplit, ← hid]
        exact List.mem_map_of_mem (by simp)
      have hmedia := (valid_iff_of_media valid _).trans
        (validMedia_replace valid.media hsplit (d := { device with
          type := type
          imagePath := path
          readOnly := type == .cdRom || readOnly }) rfl)
      have hdevice := valid.media.devices device (hsplit ▸ by simp)
      refine hmedia.trans ⟨fun h _ _ _ _ => h.image, fun h => ⟨hdevice.id, ?_, ?_⟩⟩
      · exact h (by simpa using hm) rfl hpath hmem
      · rintro (rfl : type = _)
        rfl

theorem ejectScsiDevice_valid_iff (valid : Valid slirp machine s.configuration) (id : Int) :
    (∃ machine', Valid slirp machine' (s.ejectScsiDevice id).configuration) ↔
      (s.machine → id ∉ s.configuration.scsiDevices.map (·.id)) := by
  unfold Session.ejectScsiDevice
  by_cases hm : s.machine
  · rw [if_neg (by simp [hm])]
    by_cases hid : id ∈ s.configuration.scsiDevices.map (·.id)
    · obtain ⟨before, device, after, hsplit, -, hclear⟩ := clearImage_of_mem hid
      refine iff_of_false (fun h => ?_) fun h => h hm hid
      have hmedia := (valid_iff_of_media valid _).mp h
      rw [hclear] at hmedia
      have hdevice := (validMedia_replace valid.media hsplit
        (d := { device with imagePath := "" }) rfl).mp hmedia
      exact hdevice.image trimmed_empty
    · refine iff_of_true ?_ fun _ => hid
      rw [clearImage_of_notMem hid]
      exact ⟨machine, valid⟩
  · rw [if_pos (by simpa using hm)]
    exact iff_of_true ⟨machine, valid⟩ fun h => absurd h hm

theorem insertFloppy_valid (valid : Valid slirp machine s.configuration) (drive : Int)
    (path : String) (readOnly loaded : Bool) :
    ∃ machine', Valid slirp machine'
      (s.insertFloppy drive path readOnly loaded).2.configuration := by
  unfold Session.insertFloppy
  by_cases hload : drive < 0 ∨ 2 ≤ drive ∨ !s.machine ∨ !loaded
  · rw [if_pos hload]
    exact ⟨machine, valid⟩
  rw [if_neg hload]
  by_cases hnone : s.configuration.iwmDevices = []
  · rw [if_pos hnone]
    exact ⟨machine, valid⟩
  rw [if_neg hnone]
  have hmedia := validMedia_ensureFloppyDriveCount valid.media
  have hcount := ensureFloppyDriveCount_length hnone
  refine (valid_iff_of_media valid _).mpr (validMedia_drives hmedia ?_ ?_ _)
  · exact List.ne_nil_of_length_pos (by omega)
  · rw [List.length_set]
    exact hcount.le

theorem ejectFloppy_valid (valid : Valid slirp machine s.configuration) (drive : Int) :
    ∃ machine', Valid slirp machine' (s.ejectFloppy drive).configuration := by
  unfold Session.ejectFloppy
  by_cases hdrive : drive < 0 ∨ 2 ≤ drive
  · rw [if_pos hdrive]
    exact ⟨machine, valid⟩
  rw [if_neg hdrive]
  by_cases hnone : s.configuration.iwmDevices = []
  · rw [if_pos hnone]
    exact ⟨machine, valid⟩
  rw [if_neg hnone]
  have hmedia := validMedia_ensureFloppyDriveCount valid.media
  have hcount := ensureFloppyDriveCount_length hnone
  refine (valid_iff_of_media valid _).mpr (validMedia_drives hmedia ?_ ?_ _)
  · exact List.ne_nil_of_length_pos (by omega)
  · rw [List.length_modify]
    exact hcount.le

/-- **One call.**  A valid profile stays valid exactly under a harmless call. -/
theorem step_valid_iff (h : configurationValidationError slirp s.configuration = "")
    (call : MediaCall) :
    configurationValidationError slirp (s.step call).configuration = "" ↔ Harmless s call := by
  rw [configurationValidationError_eq_empty_iff] at h ⊢
  obtain ⟨machine, valid⟩ := h
  cases call with
  | insertDisk path loaded =>
    unfold Harmless
    rw [hasDevicePrefix_of_valid valid]
    exact insertDisk_valid_iff valid path loaded
  | ejectDisk => exact iff_of_true (ejectDisk_valid valid) trivial
  | insertScsiDevice id type path readOnly loaded =>
    exact insertScsiDevice_valid_iff valid id type path readOnly loaded
  | ejectScsiDevice id => exact ejectScsiDevice_valid_iff valid id
  | insertFloppy drive path readOnly loaded =>
    exact iff_of_true (insertFloppy_valid valid drive path readOnly loaded) trivial
  | ejectFloppy drive => exact iff_of_true (ejectFloppy_valid valid drive) trivial

end

/-- **Savable sessions.**  From a valid profile, the profile is valid after every call of a run
    if and only if every call is harmless where it is made. -/
theorem savable_iff_harmless (slirp : Bool) (s : Session) (calls : List MediaCall)
    (h : configurationValidationError slirp s.configuration = "") :
    (∀ done, done <+: calls → configurationValidationError slirp
        (Machine.run Session.step s done).configuration = "") ↔
      Machine.Guarded Session.step Harmless s calls :=
  @Machine.prefixes_inv_iff_guarded _ _ Session.step Harmless
    (fun s => configurationValidationError slirp s.configuration = "")
    (fun _ call hvalid => step_valid_iff hvalid call) s h calls

/-- The profile of a Macintosh Plus with a disk. -/
def plusWithDisk : Session where
  machine := true
  configuration := {
    profileName := "Mac Plus"
    machineId := "mac-plus"
    scsiDevices := [{ imagePath := "system.hda" }] }

/-- Ejecting the disk of a Macintosh Plus makes its profile one that cannot be saved. -/
theorem eject_unsavable :
    configurationValidationError true plusWithDisk.configuration = "" ∧
      configurationValidationError true
        (Machine.run Session.step plusWithDisk [.ejectScsiDevice 0]).configuration =
          "Each SCSI device needs an image." := by
  decide

theorem savable_of_floppies :
    configurationValidationError true plusWithDisk.configuration = "" ∧
      ((∀ done, done <+: [.ejectFloppy 0, .insertDisk "system.hda" true] →
        configurationValidationError true
          (Machine.run Session.step plusWithDisk done).configuration = "") ↔
        Machine.Guarded Session.step Harmless plusWithDisk
          [.ejectFloppy 0, .insertDisk "system.hda" true]) :=
  ⟨by decide, savable_iff_harmless true plusWithDisk _ (by decide)⟩

end CuteMac.Config
