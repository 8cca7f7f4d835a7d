/-
  Profiles written and read back.

  * `normalForm`: a profile as it comes back, with what is not saved at its
    default, two drives, and the paths of the first devices;
  * `readDocument_profileDocument`: the document of a profile has its fields;
  * `Reloads`, `Mirrored`: when a profile comes back, and when its text does
    (`saved_comes_back`).
-/
import CuteMac.Config.ProfileFile
import CuteMac.Lib.Fallible
import Mathlib.Data.List.DropRight

namespace CuteMac.Config

open CuteMac.Core Toml Toml.Node

/-! ## Names -/

@[simp] theorem monitorFromName_monitorName (monitor : MacMonitorType) :
    monitorFromName (monitorName monitor) = monitor := by
  cases monitor <;> decide

@[simp] theorem monitorFromName_default : monitorFromName "hi_res_rgb" = .hiResRgb := by decide

@[simp] theorem monitorName_default : monitorName .hiResRgb = "hi_res_rgb" := rfl

@[simp] theorem networkBackendFromName_default : networkBackendFromName "none" = .none := by
  decide

@[simp] theorem networkBackendName_default : networkBackendName .none = "none" := rfl

@[simp] theorem networkBackendFromName_name (backend : NetworkBackendType) :
    networkBackendFromName (networkBackendName backend) = backend := by
  cases backend <;> decide

@[simp] theorem runtimeSpeedFromName_name (speed : RuntimeSpeed) :
    runtimeSpeedFromName (runtimeSpeedName speed) = speed := by
  cases speed <;> decide

theorem runtimeSpeedName_accepted (speed : RuntimeSpeed) :
    (equalsIgnoringCase (runtimeSpeedName speed) "realtime" ||
      equalsIgnoringCase (runtimeSpeedName speed) "unlimited") = true := by
  cases speed <;> decide

theorem trimmed_trimmed (s : String) : trimmed (trimmed s) = trimmed s := by
  have key : ∀ l : List Char, ((l.dropWhile isSpace).rdropWhile isSpace).dropWhile isSpace =
      (l.dropWhile isSpace).rdropWhile isSpace := by
    intro l
    rw [List.dropWhile_eq_self_iff]
    intro hl
    have hprefix := List.rdropWhile_prefix isSpace (l := l.dropWhile isSpace)
    have hlong := hl.trans_le hprefix.length_le
    have hhead := List.dropWhile_eq_self_iff.mp (List.dropWhile_idempotent isSpace l) hlong
    rwa [← hprefix.getElem hl] at hhead
  show String.ofList ((((String.ofList ((s.toList.dropWhile isSpace).rdropWhile
    isSpace)).toList).dropWhile isSpace).rdropWhile isSpace) = _
  rw [String.toList_ofList, key, List.rdropWhile_idempotent]
  rfl

/-! ## Devices -/

@[simp] theorem castOr_int32 (default : Int) (n : Int32) : castOr default (int32 n) = n := by
  unfold castOr int32
  rw [integerOr_integer, Int32.ofInt_toInt]

@[simp] theorem ofInt_integerOr_int32 (default : Int) (n : Int32) :
    Int32.ofInt (integerOr default (int32 n)) = n := castOr_int32 default n

@[simp] theorem castOr_none (default : Int) : castOr default none = Int32.ofInt default := rfl

theorem readIwmDrive_table (drive : IwmDeviceConfiguration) :
    readIwmDrive (.table (iwmTable drive)) = drive := by
  simp [readIwmDrive, iwmTable, member_cons]

theorem readScsiDevice_table {device : ScsiDeviceConfiguration} (valid : ValidScsiDevice device) :
    readScsiDevice (.table (scsiTable device)) = some device := by
  have hid : (castOr 0 (some (Node.integer device.id))).toInt = device.id := by
    unfold castOr
    rw [integerOr_integer]
    have := valid.id
    exact Int32.toInt_ofInt_of_le (by norm_num; omega) (by norm_num; omega)
  obtain ⟨id, type, path, readOnly⟩ := device
  cases type with
  | hardDisk => simp [readScsiDevice, scsiTable, member_cons, hid]
  | cdRom => simp [readScsiDevice, scsiTable, member_cons, hid]

/-- A card as it comes back. -/
def normalNuBusDevice (device : NuBusDeviceConfiguration) : NuBusDeviceConfiguration :=
  { device with
    declarationRomPath := ""
    monitor := if device.type = .appleDisplayCard824 then device.monitor else .hiResRgb
    networkBackend := if device.type = .appleNuBusEthernet then device.networkBackend else .none
    macAddress := if device.type = .appleNuBusEthernet then trimmed device.macAddress else "" }

theorem readNuBusDevice_table (device : NuBusDeviceConfiguration) :
    readNuBusDevice (.table (nubusTable device)) = some (normalNuBusDevice device) := by
  obtain ⟨slot, type, rom, width, height, depth, vram, acceleration, pointer, monitor, backend,
    address⟩ := device
  cases type with
  | macintoshIIVideo =>
    simp [readNuBusDevice, nubusTable, nubusTypeTable, nubusTypeName, member_cons,
      normalNuBusDevice]
  | appleDisplayCard824 =>
    simp [readNuBusDevice, nubusTable, nubusTypeTable, nubusTypeName, member_cons,
      normalNuBusDevice]
  | appleNuBusEthernet =>
    by_cases haddress : trimmed address = ""
    · simp [readNuBusDevice, nubusTable, nubusTypeTable, nubusTypeName, member_cons,
        normalNuBusDevice, haddress]
    · simp [readNuBusDevice, nubusTable, nubusTypeTable, nubusTypeName, member_cons,
        normalNuBusDevice, haddress]
  | cuteMacVideo =>
    simp [readNuBusDevice, nubusTable, nubusTypeTable, nubusTypeName, member_cons,
      normalNuBusDevice]
  | cuteMacVideoAccelerated =>
    simp [readNuBusDevice, nubusTable, nubusTypeTable, nubusTypeName, member_cons,
      normalNuBusDevice]

/-- A port as it comes back, but for an empty phonebook. -/
def normalSerialDevice (device : SerialDeviceConfiguration) : SerialDeviceConfiguration :=
  match device.type with
  | .imageWriterII =>
    { channel := device.channel, type := device.type, outputDirectory := device.outputDirectory }
  | .nullModem =>
    { channel := device.channel, type := device.type, tcpMode := device.tcpMode
      tcpHost := device.tcpHost, tcpPort := device.tcpPort }
  | .hayesModem =>
    { channel := device.channel, type := device.type
      directTcpDialing := device.directTcpDialing, slip := device.slip
      phonebook := device.phonebook }

theorem readSlip_table (slip : SerialSlipConfiguration) :
    readSlip (some (.table (slipTable slip))) = slip := by
  simp [readSlip, slipTable, member_cons]

theorem readPhonebook_table (entries : List SerialPhonebookEntry) :
    (tables (some (.array (entries.map fun entry => .table (phonebookTable entry))))).map
      readPhonebookEntry = entries := by
  rw [tables_map, List.map_map]
  refine (List.map_congr_left fun entry _ => ?_).trans (List.map_id entries)
  simp [readPhonebookEntry, phonebookTable, member_cons]

theorem readSerialDevice_table (device : SerialDeviceConfiguration) :
    readSerialDevice (.table (serialTable device)) =
      some (fillPhonebook (normalSerialDevice device)) := by
  obtain ⟨channel, type, output, dialing, phonebook, slip, mode, host, port⟩ := device
  cases type with
  | imageWriterII =>
    simp [readSerialDevice, serialTable, serialTypeTable, serialTypeName, member_cons,
      normalSerialDevice, readSlip, tables]
  | nullModem =>
    cases mode with
    | listen =>
      simp [readSerialDevice, serialTable, serialTypeTable, serialTypeName, member_cons,
        normalSerialDevice, readSlip, tables]
    | dial =>
      simp [readSerialDevice, serialTable, serialTypeTable, serialTypeName, member_cons,
        normalSerialDevice, readSlip, tables]
  | hayesModem =>
    simp [readSerialDevice, serialTable, serialTypeTable, serialTypeName, member_cons,
      normalSerialDevice, readSlip_table, readPhonebook_table]

/-! ## Documents -/

/-- What a document keeps of a profile. -/
def savedFields (c : Configuration) : Configuration :=
  { c with
    romPath := ""
    nubusDevices := c.nubusDevices.map normalNuBusDevice
    serialDevices := c.serialDevices.map normalSerialDevice }

/-- The fields of a document, with the phonebooks that the reader fills in. -/
def readBack (c : Configuration) : Configuration :=
  { savedFields c with
    serialDevices := c.serialDevices.map fun device => fillPhonebook (normalSerialDevice device) }

section
variable {slirp : Bool} {machine : MachineProfile} {c : Configuration}

theorem readRamSizeKiB_saved (valid : Valid slirp machine c)
    {e : List (String × Node)} :
    readRamSizeKiB c.machineId
      (some (.table (("id", .string c.machineId) :: ("ram_size_kib", int32 c.ramSizeKiB) :: e))) = some c.ramSizeKiB := by
  have hram : MachineCatalog.isValidRamSize c.machineId c.ramSizeKiB = true := by
    unfold MachineCatalog.isValidRamSize
    rw [valid.found]
    simpa using valid.board.ram
  have hinteger : asInteger (some (int32 c.ramSizeKiB)) = some c.ramSizeKiB.toInt := rfl
  simp [readRamSizeKiB, member_cons, hinteger, hram]

theorem readDocument_profileDocument (valid : Valid slirp machine c) :
    readDocument (profileDocument c) = some (readBack c) := by
  have hscsi : (c.scsiDevices.map fun device => Node.table (scsiTable device)).mapM
      readScsiDevice = some (c.scsiDevices.map fun device => device) :=
    Fallible.mapM_map_eq_some fun device hd =>
      readScsiDevice_table (valid.media.devices device hd)
  rw [List.map_id'] at hscsi
  have hnubus := Fallible.mapM_map_eq_some (l := c.nubusDevices)
    fun device _ => readNuBusDevice_table device
  have hserial := Fallible.mapM_map_eq_some (l := c.serialDevices)
    fun device _ => readSerialDevice_table device
  have hdrives : (c.iwmDevices.map fun drive => Node.table (iwmTable drive)).map readIwmDrive =
      c.iwmDevices := by
    rw [List.map_map]
    exact (List.map_congr_left fun drive _ => readIwmDrive_table drive).trans (List.map_id _)
  have hspeed := runtimeSpeedName_accepted c.runtimeSpeed
  have hram := readRamSizeKiB_saved valid
    (e := [("cycles_per_frame", int32 c.cyclesPerFrame)])
  simp [readDocument, profileDocument, member_cons, hram, tables_map, hscsi, hnubus, hserial,
    hdrives]
  refine ⟨fun hreal => ?_, rfl⟩
  rw [hreal] at hspeed
  exact hspeed

/-- A profile as it comes back. -/
def normalForm (c : Configuration) : Configuration :=
  mirrorDiskPath (normalizeFloppyDevices (savedFields c))

theorem machineHasFloppyController_of_valid (valid : Valid slirp machine c) :
    machineHasFloppyController c.machineId = machine.hasFloppyController := by
  unfold machineHasFloppyController
  rw [valid.found]
  rfl

theorem machineId_ne_empty (valid : Valid slirp machine c) : c.machineId ≠ "" := by
  intro hempty
  have hnone : MachineCatalog.find "" = none := rfl
  have hfound := valid.found
  rw [hempty, hnone] at hfound
  cases hfound

theorem normalize_readBack (valid : Valid slirp machine c) (baseName : String) :
    normalize baseName (readBack c) =
      some (mirrorDiskPath (normalizeFloppyDevices (readBack c))) := by
  have hname : (readBack c).profileName ≠ "" := by
    show c.profileName ≠ ""
    intro hempty
    have hblank := valid.name
    rw [hempty] at hblank
    exact hblank trimmed_empty
  have hid : (readBack c).machineId ≠ "" := by
    show c.machineId ≠ ""
    exact machineId_ne_empty valid
  unfold normalize
  simp only [hname, hid, if_false]
  rw [if_neg]
  rintro ⟨hnone, hused⟩
  have hfloppy := machineHasFloppyController_of_valid valid
  rcases valid.media.floppy with h | ⟨hdrives, hpath⟩
  · rw [show machineHasFloppyController (readBack c).machineId = true from hfloppy.trans h] at hnone
    cases hnone
  · rcases hused with h | h
    · exact h hdrives
    · exact h hpath

/-! ## Valid again -/

theorem isValidNuBusDevice_normal (device : NuBusDeviceConfiguration) :
    isValidNuBusDeviceConfiguration slirp (normalNuBusDevice device) =
      isValidNuBusDeviceConfiguration slirp device := by
  cases htype : device.type with
  | macintoshIIVideo => simp [isValidNuBusDeviceConfiguration, normalNuBusDevice, htype]
  | appleDisplayCard824 => simp [isValidNuBusDeviceConfiguration, normalNuBusDevice, htype]
  | appleNuBusEthernet => simp [isValidNuBusDeviceConfiguration, normalNuBusDevice, htype]
  | cuteMacVideo => simp [isValidNuBusDeviceConfiguration, normalNuBusDevice, htype]
  | cuteMacVideoAccelerated => simp [isValidNuBusDeviceConfiguration, normalNuBusDevice, htype]

theorem validSlotsFrom_normal (available occupied : List Int32)
    (devices : List NuBusDeviceConfiguration) :
    validSlotsFrom available occupied (devices.map normalNuBusDevice) =
      validSlotsFrom available occupied devices := by
  induction devices generalizing occupied with
  | nil => rfl
  | cons device devices ih =>
    rw [List.map_cons, validSlotsFrom, validSlotsFrom, ih]
    rfl

@[simp] theorem channel_normalSerialDevice (device : SerialDeviceConfiguration) :
    (normalSerialDevice device).channel = device.channel := by
  unfold normalSerialDevice
  cases device.type <;> rfl

@[simp] theorem type_normalSerialDevice (device : SerialDeviceConfiguration) :
    (normalSerialDevice device).type = device.type := by
  unfold normalSerialDevice
  cases device.type <;> rfl

theorem isValidSerialDevice_normal (device : SerialDeviceConfiguration) :
    isValidSerialDeviceConfiguration (normalSerialDevice device) =
      isValidSerialDeviceConfiguration device := by
  unfold isValidSerialDeviceConfiguration
  rw [channel_normalSerialDevice, type_normalSerialDevice]
  unfold normalSerialDevice
  cases device.type <;> rfl

/-- What a document keeps of a valid profile is valid. -/
theorem valid_savedFields (valid : Valid slirp machine c) :
    Valid slirp machine (savedFields c) := by
  have board := valid.board
  refine ⟨valid.name, valid.found, ⟨board.ram, board.cycles, board.nvram, ?_, ?_, ?_, ?_, ?_,
    board.patch⟩, valid.media⟩
  · exact (validSlotsFrom_normal _ _ _).trans board.nubusSlots
  · intro device hd
    obtain ⟨saved, hsaved, rfl⟩ := List.mem_map.mp hd
    rw [isValidNuBusDevice_normal]
    exact board.nubus saved hsaved
  · rcases board.scc with h | h
    · exact .inl h
    · exact .inr (by simp [savedFields, h])
  · intro device hd
    obtain ⟨saved, hsaved, rfl⟩ := List.mem_map.mp hd
    rw [isValidSerialDevice_normal]
    exact board.serial saved hsaved
  · have hchannels : ((savedFields c).serialDevices.map (·.channel)) =
        c.serialDevices.map (·.channel) := by
      show (c.serialDevices.map normalSerialDevice).map _ = _
      rw [List.map_map]
      exact List.map_congr_left fun device _ => channel_normalSerialDevice device
    rw [hchannels]
    exact board.channels

@[simp] theorem serialDevices_mirrorDiskPath (c : Configuration) :
    (mirrorDiskPath c).serialDevices = c.serialDevices := by
  unfold mirrorDiskPath
  cases c.scsiDevices with
  | nil => by_cases h : c.diskPath = "" <;> simp [h]
  | cons device devices => rfl

@[simp] theorem iwmDevices_mirrorDiskPath (c : Configuration) :
    (mirrorDiskPath c).iwmDevices = c.iwmDevices := by
  unfold mirrorDiskPath
  cases c.scsiDevices with
  | nil => by_cases h : c.diskPath = "" <;> simp [h]
  | cons device devices => rfl

@[simp] theorem floppyPath_mirrorDiskPath (c : Configuration) :
    (mirrorDiskPath c).floppyPath = c.floppyPath := by
  unfold mirrorDiskPath
  cases c.scsiDevices with
  | nil => by_cases h : c.diskPath = "" <;> simp [h]
  | cons device devices => rfl

@[simp] theorem serialDevices_normalizeFloppyDevices (c : Configuration) :
    (normalizeFloppyDevices c).serialDevices = c.serialDevices := by
  unfold normalizeFloppyDevices
  by_cases h : machineHasFloppyController c.machineId <;> simp [h]

@[simp] theorem scsiDevices_normalizeFloppyDevices (c : Configuration) :
    (normalizeFloppyDevices c).scsiDevices = c.scsiDevices := by
  unfold normalizeFloppyDevices
  by_cases h : machineHasFloppyController c.machineId <;> simp [h]

@[simp] theorem diskPath_normalizeFloppyDevices (c : Configuration) :
    (normalizeFloppyDevices c).diskPath = c.diskPath := by
  unfold normalizeFloppyDevices
  by_cases h : machineHasFloppyController c.machineId <;> simp [h]

theorem length_paddedDrives (c : Configuration) : (paddedDrives c).length = 2 := by
  unfold paddedDrives
  simp only [List.length_take, List.length_append, List.length_replicate]
  omega

theorem valid_normalizeFloppyDevices (valid : Valid slirp machine c) :
    Valid slirp machine (normalizeFloppyDevices c) := by
  have hfloppy := machineHasFloppyController_of_valid valid
  have media := valid.media
  unfold normalizeFloppyDevices
  rw [hfloppy]
  cases hcontroller : machine.hasFloppyController with
  | false =>
    refine valid_of_media valid ⟨.inr ⟨rfl, rfl⟩, ?_, media.scsi, media.devices, media.ids⟩
    exact Nat.zero_le 2
  | true =>
    refine valid_of_media valid ⟨.inl hcontroller, ?_, media.scsi, media.devices, media.ids⟩
    exact (length_paddedDrives c).le

/-- A mirrored disk path is valid unless it is blank and becomes a device. -/
theorem mirrorDiskPath_valid_iff (valid : Valid slirp machine c) :
    (∃ machine', Valid slirp machine' (mirrorDiskPath c)) ↔
      (c.scsiDevices = [] → c.diskPath ≠ "" → trimmed c.diskPath ≠ "") := by
  have media := valid.media
  unfold mirrorDiskPath
  cases hscsi : c.scsiDevices with
  | nil =>
    by_cases hpath : c.diskPath = ""
    · simp only [hpath, if_true]
      exact iff_of_true ⟨machine, valid⟩ fun _ h => absurd rfl h
    · simp only [hpath, if_false]
      have hprefix : machine.hasPrefix "device.scsi." := by
        rcases media.scsi with h | ⟨-, h⟩
        · exact h
        · exact absurd h hpath
      refine (valid_iff_of_media valid _).trans ⟨fun h _ _ => ?_, fun h => ?_⟩
      · exact (h.devices _ List.mem_cons_self).image
      · refine ⟨media.floppy, media.drives, .inl hprefix, fun device hd => ?_, by simp⟩
        rw [List.mem_singleton.mp hd]
        have hid : (0 : Int) ≤ 6 := by norm_num
        exact ⟨⟨le_rfl, hid⟩, h trivial hpath, fun hcd => by cases hcd⟩
  | cons device devices =>
    refine iff_of_true ?_ fun h => by cases h
    refine (valid_iff_of_media valid _).mpr ⟨media.floppy, media.drives, ?_,
      hscsi ▸ media.devices, hscsi ▸ media.ids⟩
    rcases media.scsi with h | ⟨h, -⟩
    · exact .inl h
    · rw [hscsi] at h
      cases h

/-! ## Profiles that come back -/

/-- A profile whose file can be opened again for what was saved: no modem has an empty phonebook,
    and a disk path that is not one of a device is not blank. -/
structure Reloads (c : Configuration) : Prop where
  phonebooks : ∀ device ∈ c.serialDevices, device.type = .hayesModem → device.phonebook ≠ []
  diskPath : c.scsiDevices = [] → c.diskPath ≠ "" → trimmed c.diskPath ≠ ""

/-- A profile whose drives are two and whose paths are those of the first devices. -/
structure Mirrored (c : Configuration) : Prop where
  drives : machineHasFloppyController c.machineId → c.iwmDevices.length = 2
  floppyPath : machineHasFloppyController c.machineId →
    c.floppyPath = (c.iwmDevices.head?.map (·.imagePath)).getD ""
  diskPath : c.diskPath = (c.scsiDevices.head?.map (·.imagePath)).getD ""

theorem fillPhonebook_normal_eq_iff (device : SerialDeviceConfiguration) :
    fillPhonebook (normalSerialDevice device) = normalSerialDevice device ↔
      (device.type = .hayesModem → device.phonebook ≠ []) := by
  unfold fillPhonebook
  rw [type_normalSerialDevice]
  by_cases htype : device.type = .hayesModem
  · have hbook : (normalSerialDevice device).phonebook = device.phonebook := by
      unfold normalSerialDevice
      rw [htype]
    rw [hbook]
    by_cases hempty : device.phonebook = []
    · rw [if_pos ⟨htype, hempty⟩]
      refine iff_of_false (fun h => ?_) fun h => h htype hempty
      have := congrArg (·.phonebook) h
      dsimp only at this
      rw [hbook, hempty] at this
      cases this
    · rw [if_neg fun h => hempty h.2]
      exact iff_of_true rfl fun _ => hempty
  · rw [if_neg fun h => htype h.1]
    exact iff_of_true rfl fun h => absurd h htype

theorem readBack_eq_iff (c : Configuration) :
    (readBack c).serialDevices = (savedFields c).serialDevices ↔
      ∀ device ∈ c.serialDevices, device.type = .hayesModem → device.phonebook ≠ [] := by
  show c.serialDevices.map _ = c.serialDevices.map _ ↔ _
  rw [List.map_inj_left]
  exact forall₂_congr fun device _ => fillPhonebook_normal_eq_iff device

theorem loadTomlFile_profileDocument (valid : Valid slirp machine c) (baseName : String) :
    loadTomlFile slirp baseName (profileDocument c) =
      let loaded := mirrorDiskPath (normalizeFloppyDevices (readBack c))
      if configurationValidationError slirp loaded ≠ "" then none else some loaded := by
  simp only [loadTomlFile, readDocument_profileDocument valid, normalize_readBack valid,
    Option.bind_eq_bind, Option.bind_some]

theorem reloads_iff (valid : Valid slirp machine c) (baseName : String) :
    loadTomlFile slirp baseName (profileDocument c) = some (normalForm c) ↔ Reloads c := by
  rw [loadTomlFile_profileDocument valid]
  have hsaved := valid_normalizeFloppyDevices (valid_savedFields valid)
  have hdisk := mirrorDiskPath_valid_iff hsaved
  rw [scsiDevices_normalizeFloppyDevices, diskPath_normalizeFloppyDevices,
    ← configurationValidationError_eq_empty_iff] at hdisk
  constructor
  · intro h
    dsimp only at h
    by_cases herror : configurationValidationError slirp
        (mirrorDiskPath (normalizeFloppyDevices (readBack c))) = ""
    · rw [if_neg (not_not_intro herror)] at h
      have heq := Option.some.inj h
      refine ⟨?_, ?_⟩
      · refine (readBack_eq_iff c).mp ?_
        have hserial := congrArg (·.serialDevices) heq
        simpa [normalForm] using hserial
      · rw [heq] at herror
        exact hdisk.mp herror
    · rw [if_pos herror] at h
      cases h
  · intro h
    have heq : readBack c = savedFields c := by
      show { savedFields c with serialDevices := (readBack c).serialDevices } = _
      rw [(readBack_eq_iff c).mpr h.phonebooks]
    dsimp only
    rw [heq]
    exact if_neg (not_not_intro (hdisk.mpr h.diskPath))

/-! ## The same text -/

theorem mirrorDiskPath_eq (c : Configuration) :
    mirrorDiskPath c = { c with toConfiguration := (mirrorDiskPath c).toConfiguration } := by
  unfold mirrorDiskPath
  cases hscsi : c.scsiDevices with
  | nil =>
    by_cases hpath : c.diskPath = ""
    · simp only [hpath, if_true]
    · simp only [hpath, if_false]
  | cons device devices => rfl

theorem normalizeFloppyDevices_eq (c : Configuration) :
    normalizeFloppyDevices c =
      { c with toConfiguration := (normalizeFloppyDevices c).toConfiguration } := by
  unfold normalizeFloppyDevices
  cases machineHasFloppyController c.machineId <;> rfl

/-- The normal form differs from what is saved in the media only. -/
theorem normalForm_eq (c : Configuration) :
    normalForm c = { savedFields c with toConfiguration := (normalForm c).toConfiguration } := by
  unfold normalForm
  rw [mirrorDiskPath_eq, normalizeFloppyDevices_eq]

theorem nubusTable_normal (device : NuBusDeviceConfiguration) :
    nubusTable (normalNuBusDevice device) = nubusTable device := by
  cases htype : device.type with
  | macintoshIIVideo => simp [nubusTable, nubusTypeTable, normalNuBusDevice, htype]
  | appleDisplayCard824 => simp [nubusTable, nubusTypeTable, normalNuBusDevice, htype]
  | appleNuBusEthernet =>
    simp [nubusTable, nubusTypeTable, normalNuBusDevice, htype, trimmed_trimmed]
  | cuteMacVideo => simp [nubusTable, nubusTypeTable, normalNuBusDevice, htype]
  | cuteMacVideoAccelerated => simp [nubusTable, nubusTypeTable, normalNuBusDevice, htype]

theorem serialTable_normal (device : SerialDeviceConfiguration) :
    serialTable (normalSerialDevice device) = serialTable device := by
  cases htype : device.type with
  | imageWriterII => simp [serialTable, serialTypeTable, normalSerialDevice, htype]
  | hayesModem => simp [serialTable, serialTypeTable, normalSerialDevice, htype]
  | nullModem => simp [serialTable, serialTypeTable, normalSerialDevice, htype]

theorem profileDocument_savedFields (c : Configuration) :
    profileDocument (savedFields c) = profileDocument c := by
  have hnubus : ((savedFields c).nubusDevices.map fun device => Node.table (nubusTable device)) =
      c.nubusDevices.map fun device => Node.table (nubusTable device) := by
    show (c.nubusDevices.map normalNuBusDevice).map _ = _
    rw [List.map_map]
    exact List.map_congr_left fun device _ => congrArg Node.table (nubusTable_normal device)
  have hserial : ((savedFields c).serialDevices.map fun device =>
      Node.table (serialTable device)) =
      c.serialDevices.map fun device => Node.table (serialTable device) := by
    show (c.serialDevices.map normalSerialDevice).map _ = _
    rw [List.map_map]
    exact List.map_congr_left fun device _ => congrArg Node.table (serialTable_normal device)
  unfold profileDocument
  rw [hnubus, hserial]
  rfl

theorem paddedDrives_of_two (h : c.iwmDevices.length = 2) : paddedDrives c = c.iwmDevices := by
  have hsome : c.iwmDevices ≠ [] := List.ne_nil_of_length_pos (by omega)
  unfold paddedDrives
  simp only [hsome, if_false, h]
  simp [← h]

/-- What mirroring does to the paths of the devices. -/
theorem mirrorDiskPath_scsi_iff (c : Configuration) :
    (mirrorDiskPath c).scsiDevices = c.scsiDevices ∧ (mirrorDiskPath c).diskPath = c.diskPath ↔
      c.diskPath = (c.scsiDevices.head?.map (·.imagePath)).getD "" := by
  unfold mirrorDiskPath
  cases hscsi : c.scsiDevices with
  | nil =>
    by_cases hpath : c.diskPath = ""
    · simp [hpath, hscsi]
    · simp [hpath]
  | cons device devices => simp [eq_comm]

theorem normalizeFloppyDevices_media_iff (valid : Valid slirp machine c) :
    (normalizeFloppyDevices c).iwmDevices = c.iwmDevices ∧
        (normalizeFloppyDevices c).floppyPath = c.floppyPath ↔
      (machineHasFloppyController c.machineId → c.iwmDevices.length = 2) ∧
        (machineHasFloppyController c.machineId →
          c.floppyPath = (c.iwmDevices.head?.map (·.imagePath)).getD "") := by
  have hfloppy := machineHasFloppyController_of_valid valid
  unfold normalizeFloppyDevices
  cases hcontroller : machineHasFloppyController c.machineId with
  | false =>
    have hnone : c.iwmDevices = [] ∧ c.floppyPath = "" := by
      rcases valid.media.floppy with h | h
      · rw [← hfloppy, hcontroller] at h
        cases h
      · exact h
    refine iff_of_true ⟨hnone.1.symm, hnone.2.symm⟩ ⟨fun h => (by cases h), fun h => (by cases h)⟩
  | true =>
    constructor
    · rintro ⟨hdrives, hpath⟩
      have hpadded : paddedDrives c = c.iwmDevices := hdrives
      refine ⟨fun _ => by rw [← hpadded, length_paddedDrives], fun _ => ?_⟩
      rw [← hpadded]
      exact hpath.symm
    · rintro ⟨hlength, hpath⟩
      have hpadded := paddedDrives_of_two (hlength rfl)
      refine ⟨hpadded, ?_⟩
      show ((paddedDrives c).head?.map (·.imagePath)).getD "" = c.floppyPath
      rw [hpadded, hpath rfl]

theorem normalForm_media_iff (valid : Valid slirp machine c) :
    (normalForm c).toConfiguration = c.toConfiguration ↔ Mirrored c := by
  have hsaved := valid_savedFields valid
  have hdrives := normalizeFloppyDevices_media_iff hsaved
  have hscsi := mirrorDiskPath_scsi_iff (normalizeFloppyDevices (savedFields c))
  rw [scsiDevices_normalizeFloppyDevices, diskPath_normalizeFloppyDevices] at hscsi
  have hiwm : (normalForm c).iwmDevices = (normalizeFloppyDevices (savedFields c)).iwmDevices :=
    iwmDevices_mirrorDiskPath _
  have hpath : (normalForm c).floppyPath = (normalizeFloppyDevices (savedFields c)).floppyPath :=
    floppyPath_mirrorDiskPath _
  constructor
  · intro h
    have hd := hdrives.mp ⟨hiwm.symm.trans (congrArg (·.iwmDevices) h),
      hpath.symm.trans (congrArg (·.floppyPath) h)⟩
    have hs := hscsi.mp ⟨congrArg (·.scsiDevices) h, congrArg (·.diskPath) h⟩
    exact ⟨hd.1, hd.2, hs⟩
  · intro h
    have hd := hdrives.mpr ⟨h.drives, h.floppyPath⟩
    have hs := hscsi.mpr h.diskPath
    show Core.Configuration.mk (normalForm c).diskPath (normalForm c).floppyPath
      (normalForm c).iwmDevices (normalForm c).scsiDevices = _
    rw [hiwm, hpath, hd.1, hd.2]
    unfold normalForm
    rw [hs.1, hs.2]
    rfl

/-- The text of the normal form is that of the profile exactly if the profile is mirrored. -/
theorem profileDocument_normalForm_iff (valid : Valid slirp machine c)
    (hvalid : Valid slirp machine (normalForm c)) :
    profileDocument (normalForm c) = profileDocument c ↔ Mirrored c := by
  rw [← normalForm_media_iff valid]
  constructor
  · intro h
    have hread := readDocument_profileDocument hvalid
    rw [h, readDocument_profileDocument valid] at hread
    exact (congrArg (·.toConfiguration) (Option.some.inj hread)).symm
  · intro h
    have heq : normalForm c = savedFields c := by
      rw [normalForm_eq, h]
      rfl
    rw [heq, profileDocument_savedFields]

/-- **A saved profile comes back.**  It does in its normal form exactly if it reloads, and with
    the same text exactly if it is also mirrored. -/
theorem saved_comes_back (valid : Valid slirp machine c) (baseName : String) :
    (loadTomlFile slirp baseName (profileDocument c) = some (normalForm c) ∧
        toTomlBytes slirp (normalForm c) = some (profileDocument c)) ↔
      Reloads c ∧ Mirrored c := by
  rw [reloads_iff valid]
  refine and_congr_right fun hreload => ?_
  have hsaved := valid_normalizeFloppyDevices (valid_savedFields valid)
  obtain ⟨machine', hvalid⟩ : ∃ machine', Valid slirp machine' (normalForm c) := by
    refine (mirrorDiskPath_valid_iff hsaved).mpr ?_
    rw [scsiDevices_normalizeFloppyDevices, diskPath_normalizeFloppyDevices]
    exact hreload.diskPath
  have hmachine : machine' = machine := by
    have hfound := hvalid.found
    rw [normalForm_eq] at hfound
    exact Option.some.inj (hfound.symm.trans valid.found)
  subst hmachine
  have herror := configurationValidationError_eq_empty_iff.mpr ⟨_, hvalid⟩
  unfold toTomlBytes
  rw [if_neg (not_not_intro herror), Option.some.injEq]
  exact profileDocument_normalForm_iff valid hvalid

end

end CuteMac.Config
