/-
  Machine profiles and their validation (`MachineCatalog.cpp`, the
  `configurationProfile` of the machines, and `Configuration.cpp`).

  * `MachineProfile`, `supportedMachines`, `find`: what each machine offers;
  * `Configuration`: a saved machine, the media of `Core.Configuration` among its
    fields;
  * `isValidNuBusDeviceConfiguration`, `isValidNuBusSlots`,
    `isValidSerialDeviceConfiguration`: the parts of a profile;
  * `configurationValidationError`: the first thing wrong with a profile, as a
    text, empty if there is none;
  * `Valid`, `configurationValidationError_eq_empty_iff`: the same as a record of
    conditions.

  Whether the build has libslirp is an argument.
-/
import CuteMac.Core.EmulationSession
import Mathlib.Data.List.Nodup

namespace CuteMac.Config

open CuteMac.Core

/-! ## Strings -/

/-- `QChar::isSpace`. -/
def isSpace (c : Char) : Bool :=
  let u := c.toNat
  u == 0x20 || (0x09 ≤ u && u ≤ 0x0d) || u == 0x85 || u == 0xa0 || u == 0x1680 ||
    (0x2000 ≤ u && u ≤ 0x200a) || u == 0x2028 || u == 0x2029 || u == 0x202f || u == 0x205f ||
    u == 0x3000

/-- `QString::trimmed`. -/
def trimmed (s : String) : String :=
  String.ofList ((s.toList.dropWhile isSpace).reverse.dropWhile isSpace).reverse

/-- `QString::startsWith`. -/
def startsWith (s t : String) : Bool := t.toList.isPrefixOf s.toList

@[simp] theorem trimmed_empty : trimmed "" = "" := rfl

/-! ## Machines -/

structure MachineProfile where
  id : String
  reusableDevices : List String
  supportedRamSizesKiB : List Int32
  nubusSlots : List Int32 := []
  ramPatternPatchId : String := ""

namespace MachineProfile

def contains (machine : MachineProfile) (device : String) : Bool :=
  machine.reusableDevices.contains device

/-- The lambda `hasPrefix` of the validator. -/
def hasPrefix (machine : MachineProfile) (devices : String) : Bool :=
  machine.reusableDevices.any fun device => startsWith device devices

/-- `machineHasFloppyController`. -/
def hasFloppyController (machine : MachineProfile) : Bool :=
  machine.contains "device.iwm" || machine.contains "device.swim1"

end MachineProfile

def machineIdForModel : Model → String
  | .macintosh128K => "mac-128k"
  | .macintosh512K => "mac-512k"
  | .macintosh512Ke => "mac-512ke"
  | .macintoshPlus => "mac-plus"
  | .macintoshIIcx => "mac-iicx"
  | .quadra700 => "quadra-700"

/-- What the compact machines have in common. -/
def compactDevices : List String :=
  ["device.via6522", "device.scc.z8530", "device.iwm", "device.video.compact-mac",
    "device.audio.compact-mac"]

def configurationProfile (model : Model) : MachineProfile :=
  let id := machineIdForModel model
  match model with
  | .macintosh128K =>
    { id := id, reusableDevices := compactDevices, supportedRamSizesKiB := [128] }
  | .macintosh512K =>
    { id := id, reusableDevices := compactDevices, supportedRamSizesKiB := [512] }
  | .macintosh512Ke =>
    { id := id
      reusableDevices := compactDevices ++ ["device.rtc.pram"]
      supportedRamSizesKiB := [512] }
  | .macintoshPlus =>
    { id := id
      reusableDevices := compactDevices ++ ["device.scsi.ncr5380", "device.rtc.pram"]
      supportedRamSizesKiB := [1024, 2560, 4096]
      ramPatternPatchId := "macplus.skip_ram_pattern_test" }
  | .macintoshIIcx =>
    { id := id
      reusableDevices :=
        ["device.via6522.primary", "device.via6522.secondary", "device.scc.z8530",
          "device.adb.bus", "device.swim1", "device.scsi.ncr5380", "device.nubus",
          "device.audio.asc", "device.rtc.pram"]
      supportedRamSizesKiB :=
        [1024, 2048, 4096, 5120, 8192, 16384, 17408, 20480, 32768, 65536, 66560, 69632, 81920,
          131072]
      nubusSlots := [9, 10, 11]
      ramPatternPatchId := "maciicx.skip_ram_pattern_test" }
  | .quadra700 =>
    { id := id
      reusableDevices :=
        ["device.via6522.primary", "device.via6522.secondary", "device.scc.z8530",
          "device.adb.bus", "device.swim1", "device.scsi.ncr53c96", "device.nubus",
          "device.video.dafb", "device.audio.asc", "device.rtc.pram"]
      supportedRamSizesKiB := [4096, 8192]
      nubusSlots := [13, 14] }

namespace MachineCatalog

def supportedMachines : List MachineProfile :=
  [.macintosh128K, .macintosh512K, .macintosh512Ke, .macintoshPlus, .macintoshIIcx,
    .quadra700].map configurationProfile

def find (machineId : String) : Option MachineProfile :=
  supportedMachines.find? fun machine => machine.id == machineId

def isValidRamSize (machineId : String) (sizeKiB : Int32) : Bool :=
  (find machineId).any fun machine => machine.supportedRamSizesKiB.contains sizeKiB

def nubusSlots (machineId : String) : List Int32 :=
  ((find machineId).map (·.nubusSlots)).getD []

def hasDevicePrefix (machineId devices : String) : Bool :=
  (find machineId).any (·.hasPrefix devices)

end MachineCatalog

/-! ## Profiles -/

inductive RuntimeSpeed where
  | realtime
  | unlimited
  deriving DecidableEq

inductive NuBusDeviceType where
  | macintoshIIVideo
  | appleDisplayCard824
  | appleNuBusEthernet
  | cuteMacVideo
  | cuteMacVideoAccelerated
  deriving DecidableEq

inductive NetworkBackendType where
  | none
  | slirp
  deriving DecidableEq

inductive MacMonitorType where
  | rgb21Inch
  | portraitMono15Inch
  | rgb12Inch
  | twoPageMono21Inch
  | ntscMonitor
  | portraitRgb15Inch
  | hiResRgb
  | multipleScan14Inch
  | multipleScan16Inch
  | multipleScan21Inch
  | palEncoder
  | ntscEncoder
  | vga
  | rgb16Inch
  | palMonitor
  | rgb19Inch
  deriving DecidableEq

structure NuBusDeviceConfiguration where
  slot : Int32 := 9
  type : NuBusDeviceType := .cuteMacVideo
  declarationRomPath : String := ""
  width : Int32 := 640
  height : Int32 := 480
  depth : Int32 := 8
  vramKiB : Int32 := 4096
  acceleration : Bool := true
  absolutePointer : Bool := true
  monitor : MacMonitorType := .hiResRgb
  networkBackend : NetworkBackendType := .none
  macAddress : String := ""
  deriving DecidableEq

inductive SerialDeviceType where
  | imageWriterII
  | hayesModem
  | nullModem
  deriving DecidableEq

inductive SerialTcpMode where
  | listen
  | dial
  deriving DecidableEq

structure SerialPhonebookEntry where
  number : String := ""
  target : String := ""
  telnet : Bool := false
  deriving DecidableEq

structure SerialSlipConfiguration where
  enabled : Bool := true
  localIp : String := "172.16.0.1"
  remoteIp : String := "172.16.0.2"
  mtu : Int32 := 1006
  deriving DecidableEq

structure SerialDeviceConfiguration where
  channel : Int32 := 1
  type : SerialDeviceType := .imageWriterII
  outputDirectory : String := ""
  directTcpDialing : Bool := false
  phonebook : List SerialPhonebookEntry := []
  slip : SerialSlipConfiguration := {}
  tcpMode : SerialTcpMode := .listen
  tcpHost : String := "127.0.0.1"
  tcpPort : Int32 := 0
  deriving DecidableEq

/-- A profile; its media are those a session changes. -/
structure Configuration extends Core.Configuration where
  profileName : String := ""
  machineId : String := ""
  romPath : String := ""
  nvramPath : String := ""
  nubusDevices : List NuBusDeviceConfiguration := []
  serialDevices : List SerialDeviceConfiguration := []
  ramSizeKiB : Int32 := 4096
  cyclesPerFrame : Int32 := 130560
  runtimeSpeed : RuntimeSpeed := .unlimited
  skipRamPatternTest : Bool := false
  deriving DecidableEq

/-! ## Cards and ports -/

def isCuteMacVideoDevice (type : NuBusDeviceType) : Bool :=
  type == .cuteMacVideo || type == .cuteMacVideoAccelerated

def isAppleDisplayCard824Monitor : MacMonitorType → Bool
  | .rgb21Inch | .portraitMono15Inch | .rgb12Inch | .twoPageMono21Inch | .hiResRgb
  | .rgb16Inch => true
  | _ => false

def cuteMacVideoFramebufferLimitBytes : Int32 := 0x000e0000

def framebufferStrideBytes (width depth : Int32) : Int32 := (width * depth + 31) / 32 * 4

variable (slirp : Bool)

def isValidNuBusDeviceConfiguration (device : NuBusDeviceConfiguration) : Bool :=
  if device.slot < 9 ∨ 14 < device.slot then false
  else if device.type = .macintoshIIVideo then true
  else if device.type = .appleDisplayCard824 then
    (device.vramKiB == 512 || device.vramKiB == 1024) && isAppleDisplayCard824Monitor device.monitor
  else if device.type = .appleNuBusEthernet then
    device.networkBackend == .none || (device.networkBackend == .slirp && slirp)
  else if !isCuteMacVideoDevice device.type then false
  else if device.width < 320 ∨ device.height < 200 then false
  else if device.depth ≠ 1 ∧ device.depth ≠ 2 ∧ device.depth ≠ 4 ∧ device.depth ≠ 8 ∧
      device.depth ≠ 16 ∧ device.depth ≠ 32 then false
  else if device.vramKiB < 1024 ∨ 14 * 1024 < device.vramKiB then false
  else if device.vramKiB % 1024 ≠ 0 then false
  else
    let stride := framebufferStrideBytes device.width device.depth
    0 < stride && stride * device.height ≤ cuteMacVideoFramebufferLimitBytes

/-- The loop of `isValidNuBusSlots`, with the slots that are `occupied` so far. -/
def validSlotsFrom (available occupied : List Int32) : List NuBusDeviceConfiguration → Bool
  | [] => true
  | device :: devices =>
    if !available.contains device.slot || occupied.contains device.slot then false
    else validSlotsFrom available (occupied ++ [device.slot]) devices

def isValidNuBusSlots (machineId : String) (devices : List NuBusDeviceConfiguration) : Bool :=
  validSlotsFrom (MachineCatalog.nubusSlots machineId) [] devices

/-- The loop over the phonebook, with the `numbers` so far. -/
def validPhonebookFrom (enabled : Bool) (numbers : List String) :
    List SerialPhonebookEntry → Bool
  | [] => true
  | entry :: entries =>
    let number := trimmed entry.number
    let target := trimmed entry.target
    if number = "" ∨ target = "" then false
    else if numbers.contains number then false
    else if (target = "slip:libslirp" ∨ target = "ppp:libslirp") ∧ !enabled then false
    else if !startsWith target "slip:" && !startsWith target "ppp:" &&
        !startsWith target "tcp:" then false
    else validPhonebookFrom enabled (number :: numbers) entries

def isValidSerialDeviceConfiguration (device : SerialDeviceConfiguration) : Bool :=
  if device.channel < 0 ∨ 1 < device.channel then false
  else
    match device.type with
    | .imageWriterII => trimmed device.outputDirectory != ""
    | .nullModem =>
      if device.tcpPort < 1 ∨ 65535 < device.tcpPort then false
      else if device.tcpMode = .dial ∧ trimmed device.tcpHost = "" then false
      else true
    | .hayesModem =>
      if device.slip.enabled ∧ (trimmed device.slip.localIp = "" ∨
          trimmed device.slip.remoteIp = "") then false
      else if device.slip.enabled ∧ (device.slip.mtu < 296 ∨ 1006 < device.slip.mtu) then false
      else validPhonebookFrom device.slip.enabled [] device.phonebook

/-! ## Validation -/

/-- The loop over the SCSI devices, with the ids so far. -/
def scsiErrorFrom (scsiIds : List Int) : List ScsiDeviceConfiguration → Option String
  | [] => none
  | device :: devices =>
    if device.id < 0 ∨ 6 < device.id ∨ scsiIds.contains device.id then
      some "SCSI target IDs must be unique and between 0 and 6."
    else if trimmed device.imagePath = "" then some "Each SCSI device needs an image."
    else if device.type ≠ .hardDisk ∧ device.type ≠ .cdRom then
      some "Unsupported SCSI device type."
    else if device.type = .cdRom ∧ !device.readOnly then
      some "CD-ROM devices must be read-only."
    else scsiErrorFrom (device.id :: scsiIds) devices

/-- The loop over the serial devices, with the channels so far. -/
def serialErrorFrom (serialChannels : List Int32) :
    List SerialDeviceConfiguration → Option String
  | [] => none
  | device :: devices =>
    if !isValidSerialDeviceConfiguration device || serialChannels.contains device.channel then
      some "Serial ports must have one valid device per channel."
    else serialErrorFrom (device.channel :: serialChannels) devices

/-- What the machine has to say about a profile. -/
def machineError (machine : MachineProfile) (c : Configuration) : String :=
  if !machine.supportedRamSizesKiB.contains c.ramSizeKiB then
    "Unsupported RAM size for this machine."
  else if c.cyclesPerFrame ≤ 0 then "Cycles per frame must be positive."
  else if !machine.contains "device.rtc.pram" ∧ c.nvramPath ≠ "" then
    "NVRAM is unavailable on this machine."
  else if (!machine.hasFloppyController ∧ (c.iwmDevices ≠ [] ∨ c.floppyPath ≠ "")) ∨
      2 < c.iwmDevices.length then
    "Floppy drives are unavailable on this machine."
  else if !machine.hasPrefix "device.scsi." ∧ (c.scsiDevices ≠ [] ∨ c.diskPath ≠ "") then
    "SCSI devices are unavailable on this machine."
  else
    match scsiErrorFrom [] c.scsiDevices with
    | some error => error
    | none =>
      if !isValidNuBusSlots c.machineId c.nubusDevices then
        "NuBus cards must use unique slots available on this machine."
      else if !c.nubusDevices.all (isValidNuBusDeviceConfiguration slirp) then
        "Invalid NuBus card configuration."
      else if !machine.hasPrefix "device.scc." ∧ c.serialDevices ≠ [] then
        "Serial devices are unavailable on this machine."
      else
        match serialErrorFrom [] c.serialDevices with
        | some error => error
        | none =>
          if c.skipRamPatternTest ∧ machine.ramPatternPatchId = "" then
            "The RAM test patch is unavailable on this machine."
          else ""

def configurationValidationError (c : Configuration) : String :=
  if trimmed c.profileName = "" then "Profile name is required."
  else
    match MachineCatalog.find c.machineId with
    | none => "Unsupported machine type."
    | some machine => machineError slirp machine c

/-! ## Valid profiles -/

structure ValidScsiDevice (device : ScsiDeviceConfiguration) : Prop where
  id : 0 ≤ device.id ∧ device.id ≤ 6
  image : trimmed device.imagePath ≠ ""
  readOnly : device.type = .cdRom → device.readOnly

/-- The media of a profile, as the machine has them. -/
structure ValidMedia (machine : MachineProfile) (c : Core.Configuration) : Prop where
  floppy : machine.hasFloppyController ∨ (c.iwmDevices = [] ∧ c.floppyPath = "")
  drives : c.iwmDevices.length ≤ 2
  scsi : machine.hasPrefix "device.scsi." ∨ (c.scsiDevices = [] ∧ c.diskPath = "")
  devices : ∀ device ∈ c.scsiDevices, ValidScsiDevice device
  ids : (c.scsiDevices.map (·.id)).Nodup

/-- What is not media. -/
structure ValidBoard (machine : MachineProfile) (c : Configuration) : Prop where
  ram : c.ramSizeKiB ∈ machine.supportedRamSizesKiB
  cycles : 0 < c.cyclesPerFrame
  nvram : machine.contains "device.rtc.pram" ∨ c.nvramPath = ""
  nubusSlots : isValidNuBusSlots c.machineId c.nubusDevices
  nubus : ∀ device ∈ c.nubusDevices, isValidNuBusDeviceConfiguration slirp device
  scc : machine.hasPrefix "device.scc." ∨ c.serialDevices = []
  serial : ∀ device ∈ c.serialDevices, isValidSerialDeviceConfiguration device
  channels : (c.serialDevices.map (·.channel)).Nodup
  patch : c.skipRamPatternTest → machine.ramPatternPatchId ≠ ""

structure Valid (machine : MachineProfile) (c : Configuration) : Prop where
  name : trimmed c.profileName ≠ ""
  found : MachineCatalog.find c.machineId = some machine
  board : ValidBoard slirp machine c
  media : ValidMedia machine c.toConfiguration

section
variable {slirp : Bool} {machine : MachineProfile} {c : Configuration}

/-- A loop that remembers the keys it has seen finds them new and different. -/
theorem nodup_fresh_cons {α β : Type*} {key : α → β} {seen : List β} {a : α} {as : List α} :
    ((a :: as).map key).Nodup ∧ (∀ b ∈ a :: as, key b ∉ seen) ↔
      key a ∉ seen ∧ (as.map key).Nodup ∧ ∀ b ∈ as, key b ∉ key a :: seen := by
  rw [List.map_cons, List.nodup_cons, List.forall_mem_cons]
  constructor
  · rintro ⟨⟨first, nodup⟩, new, fresh⟩
    refine ⟨new, nodup, fun b hb hmem => ?_⟩
    rcases List.mem_cons.mp hmem with heq | hmem
    · exact first (heq ▸ List.mem_map_of_mem hb)
    · exact fresh b hb hmem
  · rintro ⟨new, nodup, fresh⟩
    refine ⟨⟨fun hmem => ?_, nodup⟩, new, fun b hb hmem => ?_⟩
    · obtain ⟨b, hb, heq⟩ := List.mem_map.mp hmem
      exact fresh b hb (heq ▸ List.mem_cons_self)
    · exact fresh b hb (List.mem_cons_of_mem _ hmem)

theorem scsiErrorFrom_eq_none_iff {scsiIds : List Int} {devices : List ScsiDeviceConfiguration} :
    scsiErrorFrom scsiIds devices = none ↔
      (∀ device ∈ devices, ValidScsiDevice device) ∧ (devices.map (·.id)).Nodup ∧
        ∀ device ∈ devices, device.id ∉ scsiIds := by
  induction devices generalizing scsiIds with
  | nil => simp [scsiErrorFrom]
  | cons device devices ih =>
    have head : scsiErrorFrom scsiIds (device :: devices) = none ↔
        (ValidScsiDevice device ∧ device.id ∉ scsiIds) ∧
          scsiErrorFrom (device.id :: scsiIds) devices = none := by
      rw [scsiErrorFrom]
      split_ifs with hid himage htype hread
      · refine iff_of_false (by simp) ?_
        rintro ⟨⟨valid, new⟩, -⟩
        have hids := valid.id
        rcases hid with h | h | h
        · omega
        · omega
        · exact new (by simpa using h)
      · exact iff_of_false (by simp) fun h => h.1.1.image himage
      · cases hkind : device.type with
        | hardDisk => exact absurd hkind htype.1
        | cdRom => exact absurd hkind htype.2
      · refine iff_of_false (by simp) fun h => ?_
        have := h.1.1.readOnly hread.1
        simp [this] at hread
      · have valid : ValidScsiDevice device ∧ device.id ∉ scsiIds := by
          refine ⟨⟨by omega, himage, fun hcd => ?_⟩, fun hmem => hid (by simp [hmem])⟩
          by_contra hwritable
          exact hread ⟨hcd, by simpa using hwritable⟩
        exact ⟨fun h => ⟨valid, h⟩, fun h => h.2⟩
    rw [head, ih, List.forall_mem_cons, nodup_fresh_cons]
    constructor
    · rintro ⟨⟨valid, new⟩, all, nodup, fresh⟩
      exact ⟨⟨valid, all⟩, new, nodup, fresh⟩
    · rintro ⟨⟨valid, all⟩, new, nodup, fresh⟩
      exact ⟨⟨valid, new⟩, all, nodup, fresh⟩

theorem serialErrorFrom_eq_none_iff {serialChannels : List Int32}
    {devices : List SerialDeviceConfiguration} :
    serialErrorFrom serialChannels devices = none ↔
      (∀ device ∈ devices, isValidSerialDeviceConfiguration device) ∧
        (devices.map (·.channel)).Nodup ∧ ∀ device ∈ devices, device.channel ∉ serialChannels := by
  induction devices generalizing serialChannels with
  | nil => simp [serialErrorFrom]
  | cons device devices ih =>
    rw [serialErrorFrom]
    split_ifs with hbad
    · refine iff_of_false (by simp) ?_
      rintro ⟨all, -, fresh⟩
      have valid := all device List.mem_cons_self
      have new := fresh device List.mem_cons_self
      simp [valid, new] at hbad
    · have good : isValidSerialDeviceConfiguration device ∧ device.channel ∉ serialChannels := by
        simpa using hbad
      rw [ih, List.forall_mem_cons, nodup_fresh_cons]
      constructor
      · rintro ⟨all, nodup, fresh⟩
        exact ⟨⟨good.1, all⟩, good.2, nodup, fresh⟩
      · rintro ⟨⟨-, all⟩, -, nodup, fresh⟩
        exact ⟨all, nodup, fresh⟩

theorem scsiErrorFrom_ne_empty {scsiIds : List Int} {devices : List ScsiDeviceConfiguration}
    {error : String} (h : scsiErrorFrom scsiIds devices = some error) : error ≠ "" := by
  induction devices generalizing scsiIds with
  | nil => cases h
  | cons device devices ih =>
    rw [scsiErrorFrom] at h
    split_ifs at h
    · cases h; decide
    · cases h; decide
    · cases h; decide
    · cases h; decide
    · exact ih h

theorem serialErrorFrom_ne_empty {serialChannels : List Int32}
    {devices : List SerialDeviceConfiguration} {error : String}
    (h : serialErrorFrom serialChannels devices = some error) : error ≠ "" := by
  induction devices generalizing serialChannels with
  | nil => cases h
  | cons device devices ih =>
    rw [serialErrorFrom] at h
    split_ifs at h
    · cases h; decide
    · exact ih h

/-- A check that finds no error goes on to the next. -/
theorem check_eq_empty_iff {p : Prop} [Decidable p] {error rest : String} (h : error ≠ "") :
    (if p then error else rest) = "" ↔ ¬p ∧ rest = "" := by
  by_cases hp : p
  · rw [if_pos hp]
    exact iff_of_false h fun hr => hr.1 hp
  · rw [if_neg hp]
    exact ⟨fun hr => ⟨hp, hr⟩, fun hr => hr.2⟩

theorem loop_eq_empty_iff {loop : Option String} {rest : String} :
    (∀ error, loop = some error → error ≠ "") →
      ((match loop with | some error => error | none => rest) = "" ↔
        loop = none ∧ rest = "") := by
  intro h
  cases loop with
  | none => simp
  | some error => exact iff_of_false (h error rfl) fun hr => by cases hr.1

theorem machineError_eq_empty_iff :
    machineError slirp machine c = "" ↔
      ValidBoard slirp machine c ∧ ValidMedia machine c.toConfiguration := by
  unfold machineError
  simp (disch := decide) only [check_eq_empty_iff]
  rw [loop_eq_empty_iff fun _ => scsiErrorFrom_ne_empty]
  simp (disch := decide) only [check_eq_empty_iff]
  rw [loop_eq_empty_iff fun _ => serialErrorFrom_ne_empty]
  simp (disch := decide) only [check_eq_empty_iff]
  rw [scsiErrorFrom_eq_none_iff, serialErrorFrom_eq_none_iff]
  constructor
  · rintro ⟨ram, cycles, nvram, floppy, scsi, ⟨devices, ids, -⟩, slots, nubus, scc,
      ⟨serial, channels, -⟩, patch, -⟩
    refine ⟨⟨?_, ?_, ?_, ?_, ?_, ?_, serial, channels, ?_⟩, ⟨?_, ?_, ?_, devices, ids⟩⟩
    · simpa using ram
    · exact Int32.not_le.mp cycles
    · by_contra h
      exact nvram (by simpa using h)
    · simpa using slots
    · simpa using nubus
    · by_contra h
      exact scc (by simpa using h)
    · intro hskip hpatch
      exact patch ⟨hskip, hpatch⟩
    · by_contra h
      push Not at h
      refine floppy (.inl ⟨by simpa using h.1, ?_⟩)
      by_contra hnone
      push Not at hnone
      exact h.2 hnone.1 hnone.2
    · exact Nat.not_lt.mp fun h => floppy (.inr h)
    · by_contra h
      push Not at h
      refine scsi ⟨by simpa using h.1, ?_⟩
      by_contra hnone
      push Not at hnone
      exact h.2 hnone.1 hnone.2
  · rintro ⟨board, media⟩
    refine ⟨?_, ?_, ?_, ?_, ?_, ⟨media.devices, media.ids, by simp⟩, ?_, ?_, ?_,
      ⟨board.serial, board.channels, by simp⟩, ?_, trivial⟩
    · simpa using board.ram
    · exact Int32.not_le.mpr board.cycles
    · rintro ⟨hpram, hpath⟩
      rcases board.nvram with h | h
      · simp [h] at hpram
      · exact hpath h
    · rintro (⟨hdrive, hused⟩ | hmany)
      · rcases media.floppy with h | ⟨hnone, hpath⟩
        · simp [h] at hdrive
        · rcases hused with hused | hused
          · exact hused hnone
          · exact hused hpath
      · exact absurd media.drives (Nat.not_le.mpr hmany)
    · rintro ⟨hscsi, hused⟩
      rcases media.scsi with h | ⟨hnone, hpath⟩
      · simp [h] at hscsi
      · rcases hused with hused | hused
        · exact hused hnone
        · exact hused hpath
    · simpa using board.nubusSlots
    · simpa using board.nubus
    · rintro ⟨hscc, hused⟩
      rcases board.scc with h | h
      · simp [h] at hscc
      · exact hused h
    · rintro ⟨hskip, hpatch⟩
      exact board.patch hskip hpatch

/-- The validator finds nothing wrong with a valid profile, and with no other. -/
theorem configurationValidationError_eq_empty_iff :
    configurationValidationError slirp c = "" ↔ ∃ machine, Valid slirp machine c := by
  unfold configurationValidationError
  rw [check_eq_empty_iff (by decide)]
  cases hfind : MachineCatalog.find c.machineId with
  | none =>
    refine iff_of_false (by simp) ?_
    rintro ⟨machine, valid⟩
    rw [valid.found] at hfind
    cases hfind
  | some machine =>
    simp only [machineError_eq_empty_iff]
    constructor
    · rintro ⟨name, board, media⟩
      exact ⟨machine, name, hfind, board, media⟩
    · rintro ⟨machine', valid⟩
      have heq : machine = machine' := Option.some.inj (hfind.symm.trans valid.found)
      subst heq
      exact ⟨valid.name, valid.board, valid.media⟩

/-- A change of the media alone keeps the rest valid. -/
theorem valid_of_media (valid : Valid slirp machine c) {media : Core.Configuration}
    (hmedia : ValidMedia machine media) :
    Valid slirp machine { c with toConfiguration := media } := by
  have board := valid.board
  exact ⟨valid.name, valid.found,
    ⟨board.ram, board.cycles, board.nvram, board.nubusSlots, board.nubus, board.scc,
      board.serial, board.channels, board.patch⟩, hmedia⟩

theorem valid_iff_of_media (valid : Valid slirp machine c) (media : Core.Configuration) :
    (∃ machine', Valid slirp machine' { c with toConfiguration := media }) ↔
      ValidMedia machine media := by
  constructor
  · rintro ⟨machine', valid'⟩
    have heq : machine = machine' := Option.some.inj (valid.found.symm.trans valid'.found)
    subst heq
    exact valid'.media
  · intro hmedia
    exact ⟨machine, valid_of_media valid hmedia⟩

end

end CuteMac.Config
