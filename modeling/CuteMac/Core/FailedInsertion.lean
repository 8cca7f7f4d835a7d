/-
  What an insertion that fails has changed.

  * `FloppyMedium`, `ScsiMedium`, `Media`: what is in the drives of a machine;
  * `fileMedium`, `scsiFile`: what a file would put there;
  * `Clean`: a file that can be loaded is not refused afterwards, or stands in the
    drive already;
  * `insert_iff`: exactly then a failed insertion changes nothing.
-/
import CuteMac.Core.EmulationSession

namespace CuteMac.Core

open CuteMac.Floppy CuteMac.Scsi

/-! ## Media -/

structure FloppyMedium where
  path : String := ""
  kind : Kind := .empty
  header : List UInt8 := []
  data : List UInt8 := []
  tags : List (List UInt8) := []
  writable : Bool := false
  doubleSided : Bool := false
  highDensity : Bool := false
  deriving DecidableEq

def floppyMedium (d : FloppyDiskImage) : FloppyMedium where
  path := d.path
  kind := d.kind
  header := d.diskCopyHeader
  data := d.data
  tags := d.tags
  writable := d.writable
  doubleSided := d.doubleSided
  highDensity := d.highDensity

/-- Of a disk the path, the bytes and whether it is read-only, of a disc the path and the
    bytes. -/
structure ScsiMedium where
  disk : Option (String × List UInt8 × Bool) := none
  cdRom : Option (String × List UInt8) := none
  target : ScsiTarget := .none
  deriving DecidableEq

def ScsiSlot.medium (slot : ScsiSlot) : ScsiMedium where
  disk := slot.disk.map fun d => (d.imagePath, d.image, d.readOnly)
  cdRom := slot.cdRom.map fun d => (d.imagePath, d.image)
  target := slot.target

@[ext] structure Media where
  floppies : Fin 2 → FloppyMedium
  scsi : Fin 7 → ScsiMedium

def Machine.media (m : Machine) : Media where
  floppies k := floppyMedium (m.floppies k)
  scsi k := (m.scsi k).medium

/-- What the file is as a floppy disk. -/
def fileMedium (files : Floppy.Host) (path : String) (readOnly : Bool) : Option FloppyMedium :=
  let (d, loaded) := FloppyDiskImage.load { host := files } path readOnly
  if loaded then some (floppyMedium d) else none

/-- What the file is as a disk or a disc. -/
def scsiFile (host : Scsi.Host) (type : ScsiDeviceType) (path : String) (readOnly : Bool) :
    Option ScsiMedium :=
  (host.readAll path).bind fun image =>
    match type with
    | .hardDisk =>
      if image = [] then none else some { disk := some (path, image, readOnly), target := .disk }
    | .cdRom =>
      if image = [] ∨ image.length % ScsiCdRomDevice.blockSize ≠ 0 then none
      else some { cdRom := some (path, image), target := .cdRom }

/-- The drives of the model can read the disk. -/
def Model.Reads (model : Model) (medium : FloppyMedium) : Prop :=
  model.supportsDoubleSidedFloppy = true ∨
    (medium.doubleSided = false ∧ medium.highDensity = false)

instance (model : Model) (medium : FloppyMedium) : Decidable (model.Reads medium) :=
  inferInstanceAs (Decidable (_ ∨ _))

/-! ## Insertions -/

inductive Insertion where
  | disk (path : String)
  | scsi (id : Int) (type : ScsiDeviceType) (path : String) (readOnly : Bool)
  | floppy (drive : Int) (path : String) (readOnly : Bool)

namespace EmulationSession

def insert (host : Scsi.Host) (s : EmulationSession) : Insertion → Bool × EmulationSession
  | .disk path => s.insertDisk host path
  | .scsi id type path readOnly => s.insertScsiDevice host id type path readOnly
  | .floppy drive path readOnly => s.insertFloppy drive path readOnly

structure Unchanged (s s' : EmulationSession) : Prop where
  media : s'.machine.map Machine.media = s.machine.map Machine.media
  configuration : s'.configuration = s.configuration

/-- The drives are as a run of their operations leaves them. -/
def Reached (s : EmulationSession) : Prop :=
  ∀ m, s.machine = some m → ∀ k, Floppy.Reachable (m.floppies k)

/-- A file that can be loaded belongs to a configured device. -/
def ScsiClean (host : Scsi.Host) (s : EmulationSession) (id : Int) (type : ScsiDeviceType)
    (path : String) (readOnly : Bool) : Prop :=
  ∀ m k medium, s.machine = some m → m.model.hasScsi = true → Machine.index 7 id = some k →
    path ≠ "" → scsiFile host type path readOnly = some medium →
    (∃ device ∈ s.configuration.scsiDevices, device.id = id) ∨ (m.scsi k).medium = medium

/-- A disk that can be loaded can be read by the drive, and there are floppy drives in the
    configuration; or the drive is as it would be left. -/
def FloppyClean (s : EmulationSession) (drive : Int) (path : String) (readOnly : Bool) : Prop :=
  ∀ m k medium, s.machine = some m → Machine.index 2 drive = some k →
    fileMedium (m.floppies k).host path readOnly = some medium →
    if m.model.Reads medium then
      s.configuration.iwmDevices ≠ [] ∨ floppyMedium (m.floppies k) = medium
    else floppyMedium (m.floppies k) = {}

def Clean (host : Scsi.Host) (s : EmulationSession) : Insertion → Prop
  | .disk _ => True
  | .scsi id type path readOnly => s.ScsiClean host id type path readOnly
  | .floppy drive path readOnly => s.FloppyClean drive path readOnly

end EmulationSession

/-! ## The drives -/

section
variable {d : FloppyDiskImage} {path : String} {readOnly : Bool}

theorem floppyMedium_flushWrites (hd : d.Wf) :
    floppyMedium d.flushWrites.1 = floppyMedium d ∧ d.flushWrites.1.host = d.host := by
  rw [FloppyDiskImage.flushWrites_fst hd]
  exact ⟨rfl, rfl⟩

/-- Two drives load the same, or refuse it and one is as it was before. -/
structure SameLoad (d : FloppyDiskImage) (r r' : FloppyDiskImage × Bool) : Prop where
  loads : r.2 = r'.2
  loaded : r.2 = true → floppyMedium r.1 = floppyMedium r'.1
  refused : r.2 = false → floppyMedium r.1 = floppyMedium d

theorem sameLoad {b : FloppyDiskImage} (h : b.host = d.host) :
    SameLoad d (d.load path readOnly) (b.load path readOnly) := by
  have hraw : ∀ bytes kind, SameLoad d
      (FloppyDiskImage.loadRaw { d with forceReadOnly := readOnly } path bytes kind)
      (FloppyDiskImage.loadRaw { b with forceReadOnly := readOnly } path bytes kind) := by
    intro bytes kind
    refine ⟨rfl, fun _ => ?_, nofun⟩
    simp only [FloppyDiskImage.loadRaw, FloppyDiskImage.insert, floppyMedium, h]
  have hread : b.host.readAll path = d.host.readAll path := by rw [h]
  unfold FloppyDiskImage.load
  simp only []
  rw [hread]
  cases d.host.readAll path with
  | none => exact ⟨rfl, nofun, fun _ => rfl⟩
  | some bytes =>
    simp only []
    split_ifs
    all_goals try exact hraw _ _
    · by_cases hc : FloppyDiskImage.DiskCopyFile bytes
      · rw [FloppyDiskImage.loadDiskCopy42_of hc, FloppyDiskImage.loadDiskCopy42_of hc]
        refine ⟨rfl, fun _ => ?_, nofun⟩
        simp only [FloppyDiskImage.insert, floppyMedium, h]
      · rw [FloppyDiskImage.loadDiskCopy42_of_not hc, FloppyDiskImage.loadDiskCopy42_of_not hc]
        exact ⟨rfl, nofun, fun _ => rfl⟩
    · exact ⟨rfl, nofun, fun _ => rfl⟩

/-- A drive loads what the file is. -/
theorem load_medium (d : FloppyDiskImage) (path : String) (readOnly : Bool) :
    (d.load path readOnly).2 = (fileMedium d.host path readOnly).isSome ∧
      floppyMedium (d.load path readOnly).1 =
        (fileMedium d.host path readOnly).getD (floppyMedium d) := by
  obtain ⟨b, hb⟩ : ∃ b : FloppyDiskImage, b = { host := d.host } := ⟨_, rfl⟩
  have hhost : b.host = d.host := by rw [hb]
  have hload : SameLoad d (d.load path readOnly) (b.load path readOnly) := sameLoad hhost
  obtain ⟨h1, h2, h3⟩ := hload
  unfold fileMedium
  rw [← hb]
  cases hl : (b.load path readOnly).2 with
  | true =>
    rw [hl] at h1
    simp only [hl, if_true]
    exact ⟨h1, h2 h1⟩
  | false =>
    rw [hl] at h1
    simp only [hl, Bool.false_eq_true, if_false]
    exact ⟨h1, h3 h1⟩

end

/-! ## The loaders -/

def Media.setFloppy (media : Media) (k : Fin 2) (medium : FloppyMedium) : Media :=
  { media with floppies := Function.update media.floppies k medium }

def Media.setScsi (media : Media) (k : Fin 7) (medium : ScsiMedium) : Media :=
  { media with scsi := Function.update media.scsi k medium }

theorem setFloppy_eq_iff {media : Media} {k : Fin 2} {medium : FloppyMedium} :
    media.setFloppy k medium = media ↔ media.floppies k = medium := by
  rw [Media.setFloppy, Media.ext_iff, and_iff_left rfl, Function.update_eq_self_iff, eq_comm]

theorem setScsi_eq_iff {media : Media} {k : Fin 7} {medium : ScsiMedium} :
    media.setScsi k medium = media ↔ media.scsi k = medium := by
  rw [Media.setScsi, Media.ext_iff, and_iff_right rfl, Function.update_eq_self_iff, eq_comm]

section
variable {m : Machine} {path : String} {readOnly : Bool}

theorem media_setFloppy (m : Machine) (k : Fin 2) (d : FloppyDiskImage) :
    Machine.media { m with floppies := Function.update m.floppies k d } =
      m.media.setFloppy k (floppyMedium d) :=
  Media.ext (Function.comp_update floppyMedium m.floppies k d) rfl

theorem media_setScsi (m : Machine) (k : Fin 7) (slot : ScsiSlot) :
    Machine.media { m with scsi := Function.update m.scsi k slot } =
      m.media.setScsi k slot.medium :=
  Media.ext rfl (Function.comp_update ScsiSlot.medium m.scsi k slot)

/-- A file that is no floppy disk leaves the drive as it is. -/
theorem loadFloppyImage_none {drive : Int} {k : Fin 2} (hk : Machine.index 2 drive = some k)
    (hd : (m.floppies k).Wf) (hf : fileMedium (m.floppies k).host path readOnly = none) :
    (m.loadFloppyImage drive path readOnly).1 = false ∧
      (m.loadFloppyImage drive path readOnly).2.media = m.media := by
  obtain ⟨hmedium, hhost⟩ := floppyMedium_flushWrites hd
  obtain ⟨hloads, hload⟩ := load_medium (m.floppies k).flushWrites.1 path readOnly
  rw [hhost, hf] at hloads hload
  have hloads' : ((m.floppies k).flushWrites.1.load path readOnly).2 = false := hloads
  simp only [Machine.loadFloppyImage, Machine.iwmLoadFloppyImage, hk, hloads', Bool.not_false, if_true,
    true_and]
  rw [media_setFloppy, hload, setFloppy_eq_iff]
  exact hmedium.symm

/-- A floppy disk replaces what is in the drive; where the drive cannot read it, the drive is
    empty afterwards. -/
theorem loadFloppyImage_some {drive : Int} {k : Fin 2} {medium : FloppyMedium}
    (hk : Machine.index 2 drive = some k) (hd : (m.floppies k).Wf)
    (hf : fileMedium (m.floppies k).host path readOnly = some medium) :
    (m.loadFloppyImage drive path readOnly).1 = decide (m.model.Reads medium) ∧
      (m.loadFloppyImage drive path readOnly).2.media =
        m.media.setFloppy k (if m.model.Reads medium then medium else {}) := by
  obtain ⟨-, hhost⟩ := floppyMedium_flushWrites hd
  obtain ⟨hloads, hload⟩ := load_medium (m.floppies k).flushWrites.1 path readOnly
  rw [hhost, hf] at hloads hload
  have hloads' : ((m.floppies k).flushWrites.1.load path readOnly).2 = true := hloads
  obtain ⟨d, hd'⟩ : ∃ d, d = ((m.floppies k).flushWrites.1.load path readOnly).1 := ⟨_, rfl⟩
  rw [← hd'] at hload
  have hmedium : floppyMedium d = medium := hload
  have hsides : d.doubleSided = medium.doubleSided ∧ d.highDensity = medium.highDensity := by
    rw [← hmedium]
    exact ⟨rfl, rfl⟩
  have hmedia := media_setFloppy m k d
  rw [hmedium] at hmedia
  simp only [Machine.loadFloppyImage, Machine.iwmLoadFloppyImage, hk, hloads', Bool.not_true,
    Bool.false_eq_true, if_false, ← hd', Function.update_self, hsides.1, hsides.2]
  by_cases hreads : m.model.Reads medium
  · rw [if_pos hreads, decide_eq_true hreads]
    have hnot : ¬ ((!m.model.supportsDoubleSidedFloppy) = true ∧
        (medium.doubleSided = true ∨ medium.highDensity = true)) := by
      rintro ⟨h1, h2⟩
      rcases hreads with h | ⟨h3, h4⟩
      · simp [h] at h1
      · simp [h3, h4] at h2
    rw [if_neg hnot]
    cases m.model.compact with
    | true => exact ⟨rfl, hmedia⟩
    | false => exact ⟨rfl, hmedia⟩
  · rw [if_neg hreads, decide_eq_false hreads]
    rw [Model.Reads, not_or, not_and_or, Bool.not_eq_true, Bool.not_eq_false, Bool.not_eq_false]
      at hreads
    have hcompact : m.model.compact = true := by
      have h := hreads.1
      cases hm : m.model <;> first | rfl | (rw [hm] at h; exact absurd h (by decide))
    rw [if_pos hcompact, if_pos ⟨by rw [hreads.1]; rfl, hreads.2⟩]
    refine ⟨rfl, ?_⟩
    simp only [Machine.iwmEjectFloppyImage, hk]
    rw [Function.update_idem, Function.update_self]
    exact media_setFloppy m k d.eject

/-! ## SCSI devices -/

variable {host : Scsi.Host} {id : Int} {k : Fin 7}

theorem loadScsiDisk_eq (host : Scsi.Host) (path : String) (readOnly : Bool)
    (hs : m.model.hasScsi = true) (hk : Machine.index 7 id = some k) :
    match scsiFile host .hardDisk path readOnly with
    | none => m.loadScsiDisk host id path readOnly = (false, m)
    | some medium => (m.loadScsiDisk host id path readOnly).1 = true ∧
        (m.loadScsiDisk host id path readOnly).2.media = m.media.setScsi k medium := by
  unfold Machine.loadScsiDisk scsiFile ScsiBlockDevice.loadImage
  simp only [hs, hk, Bool.not_true, Bool.false_eq_true, if_false]
  cases host.readAll path with
  | none => rfl
  | some image =>
    cases image with
    | nil => rfl
    | cons byte bytes => exact ⟨rfl, media_setScsi m k _⟩

theorem loadScsiCdRom_eq (host : Scsi.Host) (readOnly : Bool) (hs : m.model.hasScsi = true)
    (hk : Machine.index 7 id = some k) (hpath : path ≠ "") :
    match scsiFile host .cdRom path readOnly with
    | none => m.loadScsiCdRom host id path = (false, m)
    | some medium => (m.loadScsiCdRom host id path).1 = true ∧
        (m.loadScsiCdRom host id path).2.media = m.media.setScsi k medium := by
  unfold Machine.loadScsiCdRom scsiFile ScsiCdRomDevice.loadImage
  simp only [hs, hk, Bool.not_true, Bool.false_eq_true, if_false, hpath]
  cases host.readAll path with
  | none => rfl
  | some image =>
    simp only [Option.bind_some]
    by_cases h : image = [] ∨ image.length % ScsiCdRomDevice.blockSize ≠ 0
    · rw [if_pos h, if_pos h]
      rfl
    · rw [if_neg h, if_neg h]
      exact ⟨rfl, media_setScsi m k _⟩

/-- The loader for a type of device. -/
def loadScsi (host : Scsi.Host) (m : Machine) (id : Int) (type : ScsiDeviceType) (path : String)
    (readOnly : Bool) : Bool × Machine :=
  if type = .cdRom then m.loadScsiCdRom host id path else m.loadScsiDisk host id path readOnly

/-- Without a controller, or with an id that it does not have, nothing is loaded. -/
theorem loadScsi_refused (type : ScsiDeviceType)
    (h : m.model.hasScsi = false ∨ Machine.index 7 id = none) :
    loadScsi host m id type path readOnly = (false, m) := by
  unfold loadScsi Machine.loadScsiDisk Machine.loadScsiCdRom
  rcases h with h | h
  · simp only [h, Bool.not_false, if_true, ite_self]
  · simp only [h, ite_self]

theorem loadScsi_none (type : ScsiDeviceType) (hpath : type = .cdRom → path ≠ "")
    (hf : scsiFile host type path readOnly = none) :
    loadScsi host m id type path readOnly = (false, m) := by
  cases hs : m.model.hasScsi with
  | false => exact loadScsi_refused type (.inl hs)
  | true =>
    cases hk : Machine.index 7 id with
    | none => exact loadScsi_refused type (.inr hk)
    | some k =>
      cases type with
      | hardDisk =>
        have he := loadScsiDisk_eq host path readOnly hs hk
        rw [hf] at he
        exact he
      | cdRom =>
        have he := loadScsiCdRom_eq host readOnly hs hk (hpath rfl)
        rw [hf] at he
        exact he

theorem loadScsi_some {type : ScsiDeviceType} {medium : ScsiMedium}
    (hs : m.model.hasScsi = true) (hk : Machine.index 7 id = some k)
    (hpath : type = .cdRom → path ≠ "") (hf : scsiFile host type path readOnly = some medium) :
    (loadScsi host m id type path readOnly).1 = true ∧
      (loadScsi host m id type path readOnly).2.media = m.media.setScsi k medium := by
  cases type with
  | hardDisk =>
    have he := loadScsiDisk_eq host path readOnly hs hk
    rw [hf] at he
    exact he
  | cdRom =>
    have he := loadScsiCdRom_eq host readOnly hs hk (hpath rfl)
    rw [hf] at he
    exact he

/-- What is not loaded leaves the machine as it is. -/
theorem loadScsi_false {type : ScsiDeviceType} (hpath : type = .cdRom → path ≠ "")
    (h : (loadScsi host m id type path readOnly).1 = false) :
    loadScsi host m id type path readOnly = (false, m) := by
  cases hf : scsiFile host type path readOnly with
  | none => exact loadScsi_none type hpath hf
  | some medium =>
    cases hs : m.model.hasScsi with
    | false => exact loadScsi_refused type (.inl hs)
    | true =>
      cases hk : Machine.index 7 id with
      | none => exact loadScsi_refused type (.inr hk)
      | some k =>
        rw [(loadScsi_some hs hk hpath hf).1] at h
        cases h

end

theorem assignImage_isSome (id : Int) (type : ScsiDeviceType) (path : String) (readOnly : Bool)
    (devices : List ScsiDeviceConfiguration) :
    (assignImage id type path readOnly devices).isSome ↔ ∃ device ∈ devices, device.id = id := by
  induction devices with
  | nil => simp [assignImage]
  | cons device devices ih =>
    rw [assignImage]
    by_cases h : device.id = id
    · rw [if_neg (not_not.2 h)]
      exact ⟨fun _ => ⟨device, List.mem_cons_self, h⟩, fun _ => rfl⟩
    · rw [if_pos h, Option.isSome_map, ih]
      simp [h]

/-! ## Failed insertions -/

namespace EmulationSession

variable {s : EmulationSession}

theorem Unchanged.refl (s : EmulationSession) : Unchanged s s := ⟨rfl, rfl⟩

/-- A machine with other media, in the same session. -/
theorem unchanged_iff {m m' : Machine} (hm : s.machine = some m) :
    Unchanged s { s with machine := some m' } ↔ m'.media = m.media := by
  constructor
  · rintro ⟨h, -⟩
    rw [hm] at h
    exact Option.some.inj h
  · intro h
    refine ⟨?_, rfl⟩
    rw [hm]
    exact congrArg some h

theorem insertDisk_unchanged (host : Scsi.Host) (s : EmulationSession) (path : String)
    (hf : (s.insertDisk host path).1 = false) : Unchanged s (s.insertDisk host path).2 := by
  cases hm : s.machine with
  | none =>
    simp only [insertDisk, hm]
    exact Unchanged.refl s
  | some m =>
    have hdef : m.loadDiskImage host path = loadScsi host m 0 .hardDisk path false := rfl
    simp only [insertDisk, hm, hdef] at hf ⊢
    rcases Bool.eq_false_or_eq_true (loadScsi host m 0 .hardDisk path false).1 with hl | hl
    · simp [hl] at hf
    · have hdisk : ScsiDeviceType.hardDisk = .cdRom → path ≠ "" := nofun
      rw [loadScsi_false hdisk hl]
      exact (unchanged_iff hm).2 rfl

/-- A device that is not configured is loaded all the same. -/
theorem insertScsiDevice_iff (host : Scsi.Host) (s : EmulationSession) (id : Int)
    (type : ScsiDeviceType) (path : String) (readOnly : Bool) :
    ((s.insertScsiDevice host id type path readOnly).1 = false →
        Unchanged s (s.insertScsiDevice host id type path readOnly).2) ↔
      s.ScsiClean host id type path readOnly := by
  cases hm : s.machine with
  | none =>
    simp only [insertScsiDevice, hm]
    refine iff_of_true (fun _ => Unchanged.refl s) fun m k medium hm' => ?_
    rw [hm] at hm'
    cases hm'
  | some m =>
    by_cases hpath : path = ""
    · simp only [insertScsiDevice, hm, hpath, if_true]
      exact iff_of_true (fun _ => Unchanged.refl s) fun m k medium _ _ _ h => absurd rfl h
    have heq : s.insertScsiDevice host id type path readOnly =
        if !(loadScsi host m id type path readOnly).1 then
          (false, { s with machine := some (loadScsi host m id type path readOnly).2 })
        else
          (assignImage id type path readOnly s.configuration.scsiDevices).elim
            (false, { s with machine := some (loadScsi host m id type path readOnly).2 })
            fun devices => (true,
              { s with
                machine := some (loadScsi host m id type path readOnly).2
                configuration.scsiDevices := devices }) := by
      simp only [insertScsiDevice, hm, hpath, if_false]
      cases assignImage id type path readOnly s.configuration.scsiDevices <;> rfl
    have hrefused : loadScsi host m id type path readOnly = (false, m) →
        ((s.insertScsiDevice host id type path readOnly).1 = false →
          Unchanged s (s.insertScsiDevice host id type path readOnly).2) := by
      intro h _
      rw [heq, h]
      exact (unchanged_iff hm).2 rfl
    cases hf : scsiFile host type path readOnly with
    | none =>
      refine iff_of_true (hrefused (loadScsi_none type (fun _ => hpath) hf)) fun m k medium _ _ _ _ h => ?_
      rw [hf] at h
      cases h
    | some medium =>
      cases hs : m.model.hasScsi with
      | false =>
        refine iff_of_true (hrefused (loadScsi_refused type (.inl hs))) fun m' k _ hm' hs' => ?_
        rw [hm] at hm'
        cases hm'
        rw [hs] at hs'
        cases hs'
      | true =>
        cases hk : Machine.index 7 id with
        | none =>
          refine iff_of_true (hrefused (loadScsi_refused type (.inr hk))) fun m' k _ _ _ hk' => ?_
          rw [hk] at hk'
          cases hk'
        | some k =>
          obtain ⟨hl, hmedia⟩ := loadScsi_some hs hk (fun _ => hpath) hf
          have hclean : s.ScsiClean host id type path readOnly ↔
              (∃ device ∈ s.configuration.scsiDevices, device.id = id) ∨ (m.scsi k).medium = medium := by
            constructor
            · exact fun h => h m k medium hm hs hk hpath hf
            · rintro h m' k' medium' hm' - hk' - hf'
              rw [hm] at hm'
              rw [hk] at hk'
              rw [hf] at hf'
              cases hm'
              cases hk'
              cases hf'
              exact h
          rw [hclean, ← assignImage_isSome id type path readOnly, heq, hl]
          cases assignImage id type path readOnly s.configuration.scsiDevices with
          | some devices => exact iff_of_true (fun h => by cases h) (.inl rfl)
          | none =>
            rw [Option.isSome_none]
            simp only [Bool.not_true, Bool.false_eq_true, if_false, Option.elim_none, true_implies,
              false_or]
            rw [unchanged_iff hm, hmedia, setScsi_eq_iff]
            rfl

/-- A disk is loaded before the session looks whether there are drives, and before a machine
    with single-sided drives looks at the disk. -/
theorem insertFloppy_iff (s : EmulationSession) (hs : s.Reached) (drive : Int) (path : String)
    (readOnly : Bool) :
    ((s.insertFloppy drive path readOnly).1 = false →
        Unchanged s (s.insertFloppy drive path readOnly).2) ↔
      s.FloppyClean drive path readOnly := by
  cases hm : s.machine with
  | none =>
    have heq : s.insertFloppy drive path readOnly = (false, s) := by
      simp only [insertFloppy, hm, ite_self]
    rw [heq]
    refine iff_of_true (fun _ => Unchanged.refl s) fun m k medium hm' => ?_
    rw [hm] at hm'
    cases hm'
  | some m =>
    cases hk : Machine.index 2 drive with
    | none =>
      have hrange : drive < 0 ∨ 2 ≤ drive := by
        by_contra h
        rw [Machine.index, dif_pos ⟨by omega, by omega⟩] at hk
        cases hk
      have heq : s.insertFloppy drive path readOnly = (false, s) := by
        rw [insertFloppy, if_pos hrange]
      rw [heq]
      refine iff_of_true (fun _ => Unchanged.refl s) fun m k medium _ hk' => ?_
      rw [hk] at hk'
      cases hk'
    | some k =>
      have hrange : ¬ (drive < 0 ∨ 2 ≤ drive) := by
        intro h
        rw [Machine.index, dif_neg (by omega)] at hk
        cases hk
      have hwf := wf_of_reachable (hs m hm k)
      obtain ⟨r, hr⟩ : ∃ r, r = m.loadFloppyImage drive path readOnly := ⟨_, rfl⟩
      have hclean : ∀ o, fileMedium (m.floppies k).host path readOnly = o →
          (s.FloppyClean drive path readOnly ↔ ∀ medium, o = some medium →
            if m.model.Reads medium then
              s.configuration.iwmDevices ≠ [] ∨ floppyMedium (m.floppies k) = medium
            else floppyMedium (m.floppies k) = {}) := by
        rintro o rfl
        constructor
        · exact fun h medium hf => h m k medium hm hk hf
        · rintro h m' k' medium hm' hk' hf
          rw [hm] at hm'
          rw [hk] at hk'
          cases hm'
          cases hk'
          exact h medium hf
      cases hf : fileMedium (m.floppies k).host path readOnly with
      | none =>
        obtain ⟨hl, hmedia⟩ := loadFloppyImage_none hk hwf hf
        rw [← hr] at hl hmedia
        have heq : s.insertFloppy drive path readOnly = (false, { s with machine := some r.2 }) := by
          rw [insertFloppy, if_neg hrange, hm]
          simp only [← hr, hl, Bool.not_false, if_true]
        rw [heq, hclean _ hf, unchanged_iff hm]
        exact iff_of_true (fun _ => hmedia) fun medium h => by cases h
      | some medium =>
        obtain ⟨hl, hmedia⟩ := loadFloppyImage_some hk hwf hf
        rw [← hr] at hl hmedia
        have hself : (∀ medium', some medium = some medium' →
            if m.model.Reads medium' then
              s.configuration.iwmDevices ≠ [] ∨ floppyMedium (m.floppies k) = medium'
            else floppyMedium (m.floppies k) = {}) ↔
            if m.model.Reads medium then
              s.configuration.iwmDevices ≠ [] ∨ floppyMedium (m.floppies k) = medium
            else floppyMedium (m.floppies k) = {} :=
          ⟨fun h => h medium rfl, fun h medium' h' => by cases h'; exact h⟩
        rw [hclean _ hf, hself]
        by_cases hreads : m.model.Reads medium
        · rw [decide_eq_true hreads] at hl
          rw [if_pos hreads] at hmedia ⊢
          by_cases hiwm : s.configuration.iwmDevices = []
          · have heq : s.insertFloppy drive path readOnly =
                (false, { s with machine := some r.2 }) := by
              rw [insertFloppy, if_neg hrange, hm]
              simp only [← hr, hl, Bool.not_true, Bool.false_eq_true, if_false, hiwm, if_true]
            rw [heq, unchanged_iff hm, hmedia, setFloppy_eq_iff]
            simp only [true_implies, hiwm, ne_eq, not_true_eq_false, false_or]
            rfl
          · have htrue : (s.insertFloppy drive path readOnly).1 = true := by
              rw [insertFloppy, if_neg hrange, hm]
              simp only [← hr, hl, Bool.not_true, Bool.false_eq_true, if_false, hiwm]
            rw [htrue]
            exact iff_of_true (fun h => by cases h) (.inl hiwm)
        · rw [decide_eq_false hreads] at hl
          rw [if_neg hreads] at hmedia ⊢
          have heq : s.insertFloppy drive path readOnly = (false, { s with machine := some r.2 }) := by
            rw [insertFloppy, if_neg hrange, hm]
            simp only [← hr, hl, Bool.not_false, if_true]
          rw [heq, unchanged_iff hm, hmedia, setFloppy_eq_iff]
          simp only [true_implies]
          rfl

/-- A failed insertion changes nothing exactly where a file that can be loaded is not refused
    afterwards, or is in the drive already. -/
theorem insert_iff (host : Scsi.Host) (s : EmulationSession) (hs : s.Reached) (i : Insertion) :
    ((s.insert host i).1 = false → Unchanged s (s.insert host i).2) ↔ s.Clean host i := by
  cases i with
  | disk path => exact iff_of_true (insertDisk_unchanged host s path) trivial
  | scsi id type path readOnly => exact insertScsiDevice_iff host s id type path readOnly
  | floppy drive path readOnly => exact insertFloppy_iff s hs drive path readOnly

/-- A Macintosh Plus with empty drives, and a configuration without SCSI devices. -/
def emptyPlus : EmulationSession where
  configuration := { iwmDevices := [{}, {}] }
  machine := some
    { model := .macintoshPlus
      floppies := fun _ => { host := { files := fun _ => none, isWritable := fun _ => false,
                                       saveOk := fun _ => false } } }

/-- There is one file, a small disk. -/
def oneFile : Scsi.Host where
  readAll path := if path = "disk" then some [0] else none
  writeAt _ _ _ := false

theorem reached_emptyPlus : emptyPlus.Reached := by
  rintro m hm k
  cases hm
  exact ⟨_, [], rfl⟩

theorem insert_iff_missing :
    ((emptyPlus.insert oneFile (.scsi 3 .hardDisk "none" false)).1 = false →
        Unchanged emptyPlus (emptyPlus.insert oneFile (.scsi 3 .hardDisk "none" false)).2) ↔
      emptyPlus.Clean oneFile (.scsi 3 .hardDisk "none" false) :=
  insert_iff oneFile emptyPlus reached_emptyPlus (.scsi 3 .hardDisk "none" false)

/-- The disk is refused, and answers to SCSI id 3. -/
theorem unconfigured_loads :
    emptyPlus.Reached ∧ (emptyPlus.insert oneFile (.scsi 3 .hardDisk "disk" false)).1 = false ∧
      ¬ Unchanged emptyPlus (emptyPlus.insert oneFile (.scsi 3 .hardDisk "disk" false)).2 := by
  refine ⟨reached_emptyPlus, by decide, fun h => ?_⟩
  have htarget := congrArg (Option.map fun media : Media => (media.scsi 3).target) h.media
  exact absurd htarget (by decide)

end EmulationSession

end CuteMac.Core
