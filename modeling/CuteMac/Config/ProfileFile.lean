/-
  Profiles as documents (`ConfigurationManager` of `Configuration.cpp`).

  * `monitorName`, `networkBackendName`, `runtimeSpeedName` and back;
  * `toTomlBytes`: the document of a valid profile, device by device;
  * `readScsiDevice`, `readNuBusDevice`, `readSerialDevice`: one device of a
    document;
  * `loadTomlFile`: the profile of a document, normalised and validated.

  A document stands for its text.  The name of the file is an argument, and an
  integer of the document is cut to 32 bits where the source casts it.
-/
import CuteMac.Config.Configuration
import CuteMac.Lib.Toml

namespace CuteMac.Config

open CuteMac.Core Toml Toml.Node

/-! ## Names -/

def monitorName : MacMonitorType → String
  | .rgb21Inch => "rgb_21_inch"
  | .portraitMono15Inch => "portrait_mono_15_inch"
  | .rgb12Inch => "rgb_12_inch"
  | .twoPageMono21Inch => "two_page_mono_21_inch"
  | .ntscMonitor => "ntsc_monitor"
  | .portraitRgb15Inch => "portrait_rgb_15_inch"
  | .hiResRgb => "hi_res_rgb"
  | .multipleScan14Inch => "multiple_scan_14_inch"
  | .multipleScan16Inch => "multiple_scan_16_inch"
  | .multipleScan21Inch => "multiple_scan_21_inch"
  | .palEncoder => "pal_encoder"
  | .ntscEncoder => "ntsc_encoder"
  | .vga => "vga"
  | .rgb16Inch => "rgb_16_inch"
  | .palMonitor => "pal_monitor"
  | .rgb19Inch => "rgb_19_inch"

def monitorFromName (name : String) : MacMonitorType :=
  if name = "rgb_21_inch" then .rgb21Inch
  else if name = "portrait_mono_15_inch" then .portraitMono15Inch
  else if name = "rgb_12_inch" then .rgb12Inch
  else if name = "two_page_mono_21_inch" then .twoPageMono21Inch
  else if name = "ntsc_monitor" then .ntscMonitor
  else if name = "portrait_rgb_15_inch" then .portraitRgb15Inch
  else if name = "hi_res_rgb" then .hiResRgb
  else if name = "multiple_scan_14_inch" then .multipleScan14Inch
  else if name = "multiple_scan_16_inch" then .multipleScan16Inch
  else if name = "multiple_scan_21_inch" then .multipleScan21Inch
  else if name = "pal_encoder" then .palEncoder
  else if name = "ntsc_encoder" then .ntscEncoder
  else if name = "vga" then .vga
  else if name = "rgb_16_inch" then .rgb16Inch
  else if name = "pal_monitor" then .palMonitor
  else if name = "rgb_19_inch" then .rgb19Inch
  else .hiResRgb

def networkBackendName : NetworkBackendType → String
  | .slirp => "slirp"
  | .none => "none"

def networkBackendFromName (name : String) : NetworkBackendType :=
  if name = "slirp" then .slirp else .none

def runtimeSpeedName : RuntimeSpeed → String
  | .unlimited => "unlimited"
  | .realtime => "realtime"

/-- `QString::compare` without case against a name of small letters; no other characters fold
    to the letters of the two names. -/
def equalsIgnoringCase (s name : String) : Bool := s.toList.map Char.toLower == name.toList

def runtimeSpeedFromName (name : String) : RuntimeSpeed :=
  if equalsIgnoringCase name "unlimited" then .unlimited else .realtime

def defaultSerialModemPhonebook : List SerialPhonebookEntry :=
  [⟨"1000", "slip:libslirp", false⟩, ⟨"1001", "ppp:libslirp", false⟩]

/-! ## Writing -/

def int32 (n : Int32) : Node := .integer n.toInt

def iwmTable (drive : IwmDeviceConfiguration) : List (String × Node) :=
  [("image_path", .string drive.imagePath), ("read_only", .boolean drive.readOnly)]

def scsiTable (device : ScsiDeviceConfiguration) : List (String × Node) :=
  [("id", .integer device.id),
    ("type", .string (if device.type = .cdRom then "cd_rom" else "hard_disk")),
    ("image_path", .string device.imagePath),
    ("read_only", .boolean device.readOnly)]

def nubusTypeName : NuBusDeviceType → String
  | .macintoshIIVideo => "apple_m2_video"
  | .appleDisplayCard824 => "apple_display_card_824"
  | .appleNuBusEthernet => "apple_nubus_ethernet"
  | .cuteMacVideoAccelerated => "cutemac_video_accelerated"
  | .cuteMacVideo => "cutemac_video"

/-- What only some cards save. -/
def nubusTypeTable (device : NuBusDeviceConfiguration) : List (String × Node) :=
  match device.type with
  | .appleDisplayCard824 => [("monitor", .string (monitorName device.monitor))]
  | .appleNuBusEthernet =>
    ("network_backend", .string (networkBackendName device.networkBackend)) ::
      if trimmed device.macAddress = "" then []
      else [("mac_address", .string (trimmed device.macAddress))]
  | _ => []

def nubusTable (device : NuBusDeviceConfiguration) : List (String × Node) :=
  ("slot", int32 device.slot) :: ("type", .string (nubusTypeName device.type)) ::
    ("width", int32 device.width) :: ("height", int32 device.height) ::
    ("depth", int32 device.depth) :: ("vram_kib", int32 device.vramKiB) ::
    ("acceleration", .boolean device.acceleration) ::
    ("absolute_pointer", .boolean device.absolutePointer) :: nubusTypeTable device

def serialTypeName : SerialDeviceType → String
  | .hayesModem => "hayes_modem"
  | .nullModem => "null_modem"
  | .imageWriterII => "imagewriter_ii"

def slipTable (slip : SerialSlipConfiguration) : List (String × Node) :=
  [("enabled", .boolean slip.enabled), ("local_ip", .string slip.localIp),
    ("remote_ip", .string slip.remoteIp), ("mtu", int32 slip.mtu)]

def phonebookTable (entry : SerialPhonebookEntry) : List (String × Node) :=
  [("number", .string entry.number), ("target", .string entry.target),
    ("telnet", .boolean entry.telnet)]

/-- What a port saves for its type. -/
def serialTypeTable (device : SerialDeviceConfiguration) : List (String × Node) :=
  match device.type with
  | .imageWriterII => [("output_directory", .string device.outputDirectory)]
  | .nullModem =>
    [("tcp_mode", .string (if device.tcpMode = .dial then "dial" else "listen")),
      ("tcp_host", .string device.tcpHost), ("tcp_port", int32 device.tcpPort)]
  | .hayesModem =>
    [("direct_tcp_dialing", .boolean device.directTcpDialing),
      ("slip", .table (slipTable device.slip)),
      ("phonebook", .array (device.phonebook.map fun entry => .table (phonebookTable entry)))]

def serialTable (device : SerialDeviceConfiguration) : List (String × Node) :=
  ("channel", int32 device.channel) :: ("type", .string (serialTypeName device.type)) ::
    serialTypeTable device

def profileDocument (c : Configuration) : Node :=
  .table
    [("name", .string c.profileName),
      ("version", .integer 3),
      ("machine", .table
        [("id", .string c.machineId), ("ram_size_kib", int32 c.ramSizeKiB),
          ("cycles_per_frame", int32 c.cyclesPerFrame)]),
      ("storage", .table
        [("nvram_path", .string c.nvramPath), ("disk_path", .string c.diskPath),
          ("floppy_path", .string c.floppyPath)]),
      ("runtime", .table [("speed", .string (runtimeSpeedName c.runtimeSpeed))]),
      ("iwm", .table [("drives", .array (c.iwmDevices.map fun drive => .table (iwmTable drive)))]),
      ("scsi", .table
        [("devices", .array (c.scsiDevices.map fun device => .table (scsiTable device)))]),
      ("nubus", .table
        [("devices", .array (c.nubusDevices.map fun device => .table (nubusTable device)))]),
      ("serial", .table
        [("devices", .array (c.serialDevices.map fun device => .table (serialTable device)))]),
      ("rom_patches", .table [("skip_ram_pattern_test", .boolean c.skipRamPatternTest)])]

variable (slirp : Bool)

def toTomlBytes (c : Configuration) : Option Node :=
  if configurationValidationError slirp c ≠ "" then none else some (profileDocument c)

/-! ## Reading -/

/-- `static_cast<int>` of what a request for an integer gets. -/
def castOr (default : Int) (node : Option Node) : Int32 := Int32.ofInt (integerOr default node)

def readIwmDrive (drive : Node) : IwmDeviceConfiguration :=
  { imagePath := stringOr "" (member "image_path" drive)
    readOnly := booleanOr false (member "read_only" drive) }

def readScsiDevice (device : Node) : Option ScsiDeviceConfiguration :=
  let type := stringOr "hard_disk" (member "type" device)
  if type ≠ "hard_disk" ∧ type ≠ "cd_rom" then none
  else
    some {
      id := (castOr 0 (member "id" device)).toInt
      type := if type = "cd_rom" then .cdRom else .hardDisk
      imagePath := stringOr "" (member "image_path" device)
      readOnly := booleanOr (type == "cd_rom") (member "read_only" device) }

def readNuBusDevice (device : Node) : Option NuBusDeviceConfiguration :=
  let type := stringOr "cutemac_video" (member "type" device)
  if type ≠ "cutemac_video" ∧ type ≠ "cutemac_video_accelerated" ∧ type ≠ "apple_m2_video" ∧
      type ≠ "apple_display_card_824" ∧ type ≠ "apple_nubus_ethernet" then none
  else
    let monitor := stringOr "hi_res_rgb" (member "monitor" device)
    let backend := stringOr "none" (member "network_backend" device)
    if monitorName (monitorFromName monitor) ≠ monitor ∨
        networkBackendName (networkBackendFromName backend) ≠ backend then none
    else
      let vramKiB :=
        integerOr (integerOr 4 (member "vram_mib" device) * 1024) (member "vram_kib" device)
      some {
        slot := castOr 9 (member "slot" device)
        type :=
          if type = "apple_m2_video" then .macintoshIIVideo
          else if type = "apple_display_card_824" then .appleDisplayCard824
          else if type = "apple_nubus_ethernet" then .appleNuBusEthernet
          else if type = "cutemac_video_accelerated" then .cuteMacVideoAccelerated
          else .cuteMacVideo
        declarationRomPath := stringOr "" (member "declaration_rom_path" device)
        width := castOr 640 (member "width" device)
        height := castOr 480 (member "height" device)
        depth := castOr 8 (member "depth" device)
        vramKiB := Int32.ofInt vramKiB
        acceleration := booleanOr true (member "acceleration" device)
        absolutePointer := booleanOr true (member "absolute_pointer" device)
        monitor := monitorFromName monitor
        networkBackend := networkBackendFromName backend
        macAddress := stringOr "" (member "mac_address" device) }

def readSlip : Option Node → SerialSlipConfiguration
  | some (.table entries) =>
    let slip := some (.table entries)
    { enabled := booleanOr true (member "enabled" slip)
      localIp := stringOr "172.16.0.1" (member "local_ip" slip)
      remoteIp := stringOr "172.16.0.2" (member "remote_ip" slip)
      mtu := castOr 1006 (member "mtu" slip) }
  | _ => {}

def readPhonebookEntry (entry : Node) : SerialPhonebookEntry :=
  { number := stringOr "" (member "number" entry)
    target := stringOr "" (member "target" entry)
    telnet := booleanOr false (member "telnet" entry) }

/-- A modem without a phonebook gets the default one. -/
def fillPhonebook (serial : SerialDeviceConfiguration) : SerialDeviceConfiguration :=
  if serial.type = .hayesModem ∧ serial.phonebook = [] then
    { serial with phonebook := defaultSerialModemPhonebook }
  else serial

def readSerialDevice (device : Node) : Option SerialDeviceConfiguration :=
  let typeName := stringOr "imagewriter_ii" (member "type" device)
  if typeName ≠ "imagewriter_ii" ∧ typeName ≠ "hayes_modem" ∧ typeName ≠ "null_modem" then none
  else
    let tcpMode := stringOr "listen" (member "tcp_mode" device)
    if tcpMode ≠ "listen" ∧ tcpMode ≠ "dial" then none
    else
      some (fillPhonebook {
        channel := castOr 1 (member "channel" device)
        type :=
          if typeName = "hayes_modem" then .hayesModem
          else if typeName = "null_modem" then .nullModem
          else .imageWriterII
        outputDirectory := stringOr "" (member "output_directory" device)
        tcpMode := if tcpMode = "dial" then .dial else .listen
        tcpHost := stringOr "127.0.0.1" (member "tcp_host" device)
        tcpPort := castOr 0 (member "tcp_port" device)
        directTcpDialing := booleanOr false (member "direct_tcp_dialing" device)
        slip := readSlip (member "slip" device)
        phonebook := (tables (member "phonebook" device)).map readPhonebookEntry })

def readRamSizeKiB (machineId : String) (machine : Option Node) : Option Int32 := do
  let ramSizeKiB ←
    match asInteger (member "ram_size_kib" machine) with
    | some sizeKiB => some (Int32.ofInt sizeKiB)
    | none =>
      match asInteger (member "ram_size_mib" machine) with
      | some sizeMiB => some (Int32.ofInt sizeMiB * 1024)
      | none =>
        if MachineCatalog.isValidRamSize machineId 4096 then some 4096
        else (MachineCatalog.find machineId).bind fun machine =>
          machine.supportedRamSizesKiB.head?
  if MachineCatalog.isValidRamSize machineId ramSizeKiB then some ramSizeKiB else none

/-- The `try` block. -/
def readDocument (document : Node) : Option Configuration := do
  let machine := member "machine" document
  let storage := member "storage" document
  let machineId := stringOr "" (member "id" machine)
  let ramSizeKiB ← readRamSizeKiB machineId machine
  let speedName := stringOr "unlimited" (member "speed" (member "runtime" document))
  if !equalsIgnoringCase speedName "realtime" && !equalsIgnoringCase speedName "unlimited" then
    none
  else
    let scsiDevices ←
      (tables (member "devices" (member "scsi" document))).mapM readScsiDevice
    let nubusDevices ←
      (tables (member "devices" (member "nubus" document))).mapM readNuBusDevice
    let serialDevices ←
      (tables (member "devices" (member "serial" document))).mapM readSerialDevice
    some {
      profileName := stringOr "" (member "name" document)
      machineId := machineId
      romPath := stringOr "" (member "rom_path" storage)
      nvramPath := stringOr "" (member "nvram_path" storage)
      diskPath := stringOr "" (member "disk_path" storage)
      floppyPath := stringOr "" (member "floppy_path" storage)
      ramSizeKiB := ramSizeKiB
      cyclesPerFrame := castOr 130560 (member "cycles_per_frame" machine)
      runtimeSpeed := runtimeSpeedFromName speedName
      skipRamPatternTest :=
        booleanOr false (member "skip_ram_pattern_test" (member "rom_patches" document))
      iwmDevices := (tables (member "drives" (member "iwm" document))).map readIwmDrive
      scsiDevices := scsiDevices
      nubusDevices := nubusDevices
      serialDevices := serialDevices }

def machineHasFloppyController (machineId : String) : Bool :=
  (MachineCatalog.find machineId).any (·.hasFloppyController)

/-- The drives that `normalizeFloppyDevices` leaves. -/
def paddedDrives (c : Configuration) : List IwmDeviceConfiguration :=
  let blank : IwmDeviceConfiguration := {}
  let drives := if c.iwmDevices = [] then [⟨c.floppyPath, false⟩] else c.iwmDevices
  (drives ++ List.replicate (2 - drives.length) blank).take 2

def normalizeFloppyDevices (c : Configuration) : Configuration :=
  if !machineHasFloppyController c.machineId then { c with iwmDevices := [], floppyPath := "" }
  else
    { c with
      iwmDevices := paddedDrives c
      floppyPath := ((paddedDrives c).head?.map (·.imagePath)).getD "" }

/-- A disk path without devices becomes a device; otherwise it is that of the first. -/
def mirrorDiskPath (c : Configuration) : Configuration :=
  match c.scsiDevices with
  | [] =>
    if c.diskPath = "" then c
    else { c with scsiDevices := [⟨0, .hardDisk, c.diskPath, false⟩] }
  | device :: _ => { c with diskPath := device.imagePath }

/-- What follows the `try` block, up to the validation. -/
def normalize (baseName : String) (c : Configuration) : Option Configuration :=
  let c := if c.profileName = "" then { c with profileName := baseName } else c
  let c := if c.machineId = "" then { c with machineId := "mac-plus" } else c
  if !machineHasFloppyController c.machineId ∧ (c.iwmDevices ≠ [] ∨ c.floppyPath ≠ "") then none
  else some (mirrorDiskPath (normalizeFloppyDevices c))

def loadTomlFile (baseName : String) (document : Node) : Option Configuration := do
  let c ← readDocument document
  let c ← normalize baseName c
  if configurationValidationError slirp c ≠ "" then none else some c

end CuteMac.Config
