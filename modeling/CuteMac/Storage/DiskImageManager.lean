/-
  The library of disk images.

  * `detectVolumeIdentifier`, `inferType`: what a file is, by its bytes and its suffix;
  * `Paths`, `TomlText`: the paths and documents of the libraries around the program,
    `FileSystem`, `Outcome`: the files, and how the host answers the calls;
  * `registerImage`, `loadCatalog`, `saveCatalog`: the list of the images and its catalog;
  * `refresh`, `importImage`, `createImage`, `forgetImage`: the operations;
  * `exists_uniqueDestination`: an import finds a free name.
-/
import CuteMac.Storage.FloppyClassifier
import CuteMac.Lib.Toml
import Mathlib.Data.List.AList

namespace CuteMac.Storage

open Slice

inductive DiskImageType where
  | floppy
  | cdRom
  | hardDisk
  deriving DecidableEq

structure DiskImageEntry where
  path : String := ""
  type : DiskImageType := .hardDisk
  sizeBytes : Nat := 0
  volumeIdentifier : String := ""
  deriving DecidableEq

def typeKey : DiskImageType → String
  | .floppy => "floppy"
  | .cdRom => "cd_rom"
  | .hardDisk => "hard_disk"

def typeFromKey (key : String) : DiskImageType :=
  if key = "floppy" then .floppy else if key = "cd_rom" then .cdRom else .hardDisk

/-! ## Volume names -/

namespace Volume

def readBe16 (bytes : List UInt8) (offset : Nat) : Nat :=
  if offset + 2 > bytes.length then 0
  else (bytes.getD offset 0).toNat * 256 + (bytes.getD (offset + 1) 0).toNat

def readBe32 (bytes : List UInt8) (offset : Nat) : Nat :=
  if offset + 4 > bytes.length then 0
  else readBe16 bytes offset * 65536 + readBe16 bytes (offset + 2)

def readAt (file : List UInt8) (offset size : Nat) : List UInt8 :=
  if offset > file.length ∨ size > file.length - offset then [] else mid file offset size

/-- The blanks of Latin-1. -/
def isSpace (c : Char) : Bool :=
  c.toNat ∈ [0x09, 0x0a, 0x0b, 0x0c, 0x0d, 0x20, 0x85, 0xa0]

/-- A string of Latin-1 characters, trimmed. -/
def trimmedLatin1 (bytes : List UInt8) : String :=
  let cs := (bytes.map fun b => Char.ofNat b.toNat).dropWhile isSpace
  String.ofList (cs.reverse.dropWhile isSpace).reverse

def classicVolumeName (volumeBlock : List UInt8) : String :=
  let signature := readBe16 volumeBlock 0
  if signature ≠ 0x4244 ∧ signature ≠ 0xd2d7 then ""
  else if volumeBlock.length ≤ 36 then ""
  else
    let length := min (volumeBlock.getD 36 0).toNat 27
    if 37 + length > volumeBlock.length then "" else trimmedLatin1 (mid volumeBlock 37 length)

def classicVolumeNameAt (file : List UInt8) (filesystemOffset : Nat) : String :=
  classicVolumeName (readAt file (filesystemOffset + 1024) 64)

/-- `Apple_HFS`. -/
def appleHfs : List UInt8 := [0x41, 0x70, 0x70, 0x6c, 0x65, 0x5f, 0x48, 0x46, 0x53]

/-- The first name among the remaining partitions of the map, from number `index` on. -/
def partitionName (file : List UInt8) (blockSize : Nat) : Nat → Nat → String
  | 0, _ => ""
  | remaining + 1, index =>
    let partition := readAt file ((index + 1) * blockSize) blockSize
    if readBe16 partition 0 ≠ 0x504d then ""
    else if ¬ appleHfs <+: mid partition 48 32 then partitionName file blockSize remaining (index + 1)
    else
      let name := classicVolumeNameAt file (readBe32 partition 8 * blockSize)
      if name ≠ "" then name else partitionName file blockSize remaining (index + 1)

def partitionedClassicVolumeName (file : List UInt8) : String :=
  let descriptor := readAt file 0 512
  let blockSize := readBe16 descriptor 2
  let firstPartition := readAt file blockSize blockSize
  if readBe16 descriptor 0 ≠ 0x4552 then ""
  else if blockSize < 512 ∨ blockSize > 4096 then ""
  else if readBe16 firstPartition 0 ≠ 0x504d then ""
  else partitionName file blockSize (min (readBe32 firstPartition 4) 256) 0

/-- `CD001`. -/
def cd001 : List UInt8 := [0x43, 0x44, 0x30, 0x30, 0x31]

def isoVolumeIdentifier (file : List UInt8) : String :=
  let descriptor := readAt file (16 * 2048) 2048
  if descriptor.length < 72 ∨ descriptor.getD 0 0 ≠ 1 ∨ mid descriptor 1 5 ≠ cd001 then ""
  else
    let identifier := (mid descriptor 40 32).reverse.dropWhile fun b => b = 0 ∨ b = 0x20
    trimmedLatin1 identifier.reverse

end Volume

open Volume in
/-- The name of the volume in a file; a file that cannot be opened has none. -/
def detectVolumeIdentifier (file : Option (List UInt8)) (type : DiskImageType) : String :=
  match file with
  | none => ""
  | some file =>
    if type = .cdRom ∧ isoVolumeIdentifier file ≠ "" then isoVolumeIdentifier file
    else if classicVolumeNameAt file 0 ≠ "" then classicVolumeNameAt file 0
    else
      let diskCopyHeader := readAt file 0 84
      let dataSize := readBe32 diskCopyHeader 64
      let tagSize := readBe32 diskCopyHeader 68
      if diskCopyHeader.length = 84 ∧ dataSize ≥ 3 * 512 ∧ 84 + dataSize + tagSize = file.length ∧
          classicVolumeNameAt file 84 ≠ "" then
        classicVolumeNameAt file 84
      else partitionedClassicVolumeName file

/-- What a file is taken for; only a file that can be opened shows its bytes. -/
def inferType (file : ImageFile) (readable : Bool) : DiskImageType :=
  let suffix := file.suffix.toLower
  if suffix = "iso" ∨ suffix = "cdr" then .cdRom
  else if file.bytes.length = 400 * 1024 ∨ file.bytes.length = 800 * 1024 ∨
      file.bytes.length = 1440 * 1024 then .floppy
  else if suffix = "dc42" ∨ suffix = "image" ∨ (readable ∧ isDiskCopyFloppy file) ∨
      (readable ∧ isTruncatedRawHfsFloppy file) then .floppy
  else if readable ∧ mid file.bytes (16 * 2048 + 1) 5 = Volume.cd001 then .cdRom
  else .hardDisk

/-! ## The host -/

/-- The functions on paths, `QFileInfo` and `QDir`. -/
structure Paths where
  absoluteFilePath : String → String
  absolutePath : String → String
  fileName : String → String
  completeBaseName : String → String
  suffix : String → String
  /-- `QDir(directory).filePath(name)` -/
  filePath : String → String → String
  /-- `QDir(directory).relativeFilePath(path)` -/
  relativeFilePath : String → String → String
  cleanPath : String → String
  isAbsolutePath : String → Bool
  trimmed : String → String
  /-- `left.compare(right, Qt::CaseInsensitive) < 0` -/
  precedes : String → String → Bool

/-- The text of documents; what is written can be read. -/
structure TomlText where
  parse : List UInt8 → Option Toml.Node
  serialize : Toml.Node → List UInt8
  isSome_parse : ∀ document, (parse (serialize document)).isSome

/-- The files by their absolute paths, and the directories. -/
structure FileSystem where
  files : AList fun _ : String => List UInt8
  directories : List String

def FileSystem.read (fs : FileSystem) (path : String) : Option (List UInt8) := fs.files.lookup path

def FileSystem.write (fs : FileSystem) (path : String) (bytes : List UInt8) : FileSystem :=
  { fs with files := fs.files.insert path bytes }

def FileSystem.remove (fs : FileSystem) (path : String) : FileSystem :=
  { fs with files := fs.files.erase path }

def FileSystem.isFile (fs : FileSystem) (path : String) : Bool := (fs.read path).isSome

def FileSystem.exists (fs : FileSystem) (path : String) : Bool :=
  fs.isFile path || fs.directories.contains path

/-- How the host answers the calls of one operation. -/
structure Outcome where
  mkpath : String → Bool
  cd : String → String → Option String
  /-- whether a file can be opened to read it -/
  readable : String → Bool
  copy : Bool
  remove : Bool
  /-- opening and resizing a blank image -/
  truncate : Bool
  resize : Bool
  /-- the three calls of a `QSaveFile`; only `commit` replaces the file -/
  saveOpen : Bool
  saveWrite : Bool
  saveCommit : Bool
  /-- the readable files below the library, as the iterator returns them -/
  iterator : List String

/-- All three calls to save the catalog succeed. -/
def Outcome.saves (host : Outcome) : Bool := host.saveOpen && host.saveWrite && host.saveCommit

structure DiskImageManager where
  libraryPath : String
  images : List DiskImageEntry := []

namespace DiskImageManager

section
variable (paths : Paths) (toml : TomlText) (host : Outcome)

/-- A file as it can be seen now. -/
def opened (fs : FileSystem) (path : String) : Option (List UInt8) :=
  if host.readable path then fs.read path else none

def catalogPath (m : DiskImageManager) : String :=
  paths.absoluteFilePath (paths.filePath m.libraryPath "library.toml")

/-! ## The catalog -/

/-- The entry of a file. -/
def entryOf (fs : FileSystem) (path : String) (type : DiskImageType) : DiskImageEntry where
  path := path
  type := type
  sizeBytes := ((fs.read path).getD []).length
  volumeIdentifier := detectVolumeIdentifier (opened host fs path) type

/-- The first entry with the path gets the other values, or the entry is appended. -/
def putEntry (entry : DiskImageEntry) : List DiskImageEntry → List DiskImageEntry
  | [] => [entry]
  | found :: images =>
    if found.path = entry.path then
      { found with
        type := entry.type
        sizeBytes := entry.sizeBytes
        volumeIdentifier := entry.volumeIdentifier } :: images
    else found :: putEntry entry images

def registerImage (m : DiskImageManager) (fs : FileSystem) (path : String) (type : DiskImageType) :
    DiskImageManager :=
  { m with images := putEntry (entryOf host fs (paths.absoluteFilePath path) type) m.images }

/-- The images of a document, in order; a table without a path is passed over. -/
def registerTables (m : DiskImageManager) (fs : FileSystem) (document : Toml.Node) :
    DiskImageManager :=
  (Toml.Node.tables (Toml.Node.member "images" (some document))).foldl (fun m table =>
    let relativePath := Toml.Node.stringOr "" (Toml.Node.member "path" (some table))
    if relativePath = "" then m
    else registerImage paths host m fs
      (paths.absoluteFilePath (paths.filePath m.libraryPath relativePath))
      (typeFromKey (Toml.Node.stringOr "hard_disk" (Toml.Node.member "type" (some table))))) m

def loadCatalog (m : DiskImageManager) (fs : FileSystem) : DiskImageManager × Bool :=
  let m := { m with images := [] }
  if ¬ fs.exists (m.catalogPath paths) then (m, true)
  else
    match opened host fs (m.catalogPath paths) with
    | none => (m, false)
    | some bytes =>
      match toml.parse bytes with
      | none => (m, false)
      | some document => (registerTables paths host m fs document, true)

/-- The document of the list. -/
def document (m : DiskImageManager) : Toml.Node :=
  .table [("version", .integer 1),
    ("images", .array (m.images.map fun image => .table
      [("path", .string (paths.relativeFilePath m.libraryPath image.path)),
       ("type", .string (typeKey image.type))]))]

def saveCatalog (m : DiskImageManager) (fs : FileSystem) : FileSystem × Bool :=
  if host.saves then
    (fs.write (m.catalogPath paths) (toml.serialize (m.document paths)), true)
  else (fs, false)

/-! ## Operations -/

/-- A file found in the library; one that is known as a hard disk may turn out to be a
    floppy. -/
def discover (fs : FileSystem) (m : DiskImageManager) (path : String) : DiskImageManager :=
  let absolutePath := paths.absoluteFilePath path
  let file : ImageFile :=
    { suffix := paths.suffix path, bytes := (fs.read absolutePath).getD [] }
  let readable := host.readable absolutePath
  if paths.fileName path = "library.toml" then m
  else
    match m.images.find? fun image => image.path = absolutePath with
    | none => registerImage paths host m fs absolutePath (inferType file readable)
    | some found =>
      if found.type = .hardDisk ∧ readable ∧ (isDiskCopyFloppy file ∨ isTruncatedRawHfsFloppy file)
      then { m with images := putEntry { found with type := .floppy } m.images }
      else m

def refresh (m : DiskImageManager) (fs : FileSystem) : DiskImageManager × FileSystem × Bool :=
  let loaded := loadCatalog paths toml host m fs
  let known : DiskImageManager :=
    { loaded.1 with images := loaded.1.images.filter fun image => fs.isFile image.path }
  let found := host.iterator.foldl (discover paths host fs) known
  let sorted : DiskImageManager :=
    { found with
      images := found.images.mergeSort fun left right =>
        !paths.precedes (paths.relativeFilePath m.libraryPath right.path)
          (paths.relativeFilePath m.libraryPath left.path) }
  let saved := saveCatalog paths toml host sorted fs
  (sorted, saved.1, saved.2 && loaded.2)

/-- The name of a collection, empty for the library itself. -/
def normalizeCollectionPath (path : String) : Option String :=
  let clean := paths.cleanPath (paths.trimmed path)
  if clean = "" ∨ clean = "." then some ""
  else if path.contains '\\' ∨ paths.isAbsolutePath clean ∨ clean = ".." ∨ clean.startsWith "../"
  then none
  else some clean

/-- The name of an import that is tried first, and those with a number after it. -/
def candidate (directory source : String) (number : Nat) : String :=
  if number = 0 then paths.filePath directory (paths.fileName source)
  else paths.filePath directory (paths.completeBaseName source ++ "-" ++ toString (number + 1) ++
    (if paths.suffix source = "" then "" else "." ++ paths.suffix source))

/-- The first name that does not exist; as many names as there are files and directories
    may be taken. -/
def uniqueDestination (fs : FileSystem) (directory source : String) : String :=
  let taken := fs.files.keys.length + fs.directories.length
  candidate paths directory source
    (((List.range taken).find? fun number =>
      !fs.exists (paths.absoluteFilePath (candidate paths directory source number))).getD taken)

/-- The directory of an import: the library, or a collection that can be made and entered. -/
def destinationDirectory (m : DiskImageManager) (collection : String) : Option String :=
  (normalizeCollectionPath paths collection).bind fun normalized =>
    if normalized = "" then some m.libraryPath
    else if host.mkpath (paths.filePath m.libraryPath normalized) then
      host.cd m.libraryPath normalized
    else none

def importImage (m : DiskImageManager) (fs : FileSystem) (sourcePath : String)
    (type : DiskImageType) (collection : String) : DiskImageManager × FileSystem × Bool :=
  match fs.read (paths.absoluteFilePath sourcePath) with
  | none => (m, fs, false)
  | some bytes =>
    match destinationDirectory paths host m collection with
    | none => (m, fs, false)
    | some directory =>
      let destination := uniqueDestination paths fs directory sourcePath
      let absolute := paths.absoluteFilePath destination
      -- `QFile::copy` does not replace a file
      if ¬ host.copy ∨ fs.exists absolute then (m, fs, false)
      else
        let copied := fs.write absolute bytes
        let registered := registerImage paths host m copied destination type
        let saved := saveCatalog paths toml host registered copied
        if saved.2 then (registered, saved.1, true)
        else (registered, if host.remove then saved.1.remove absolute else saved.1, false)

/-- `importImage` with the type that the file is taken for. -/
def importDetectedImage (m : DiskImageManager) (fs : FileSystem) (sourcePath collection : String) :
    DiskImageManager × FileSystem × Bool :=
  let absolute := paths.absoluteFilePath sourcePath
  let file : ImageFile :=
    { suffix := paths.suffix sourcePath, bytes := (fs.read absolute).getD [] }
  importImage paths toml host m fs sourcePath (inferType file (host.readable absolute)) collection

/-- The file is cut to nothing before it gets its size. -/
def createBlankImage (fs : FileSystem) (path : String) (sizeBytes : Int) : FileSystem × Bool :=
  if path = "" ∨ sizeBytes ≤ 0 then (fs, false)
  else if ¬ host.mkpath (paths.absolutePath path) then (fs, false)
  else if ¬ host.truncate then (fs, false)
  else if ¬ host.resize then (fs.write (paths.absoluteFilePath path) [], false)
  else (fs.write (paths.absoluteFilePath path) (List.replicate sizeBytes.toNat 0), true)

def createImage (m : DiskImageManager) (fs : FileSystem) (path : String) (type : DiskImageType)
    (sizeBytes : Int) : DiskImageManager × FileSystem × Bool :=
  if type = .cdRom then (m, fs, false)
  else
    let created := createBlankImage paths host fs path sizeBytes
    if ¬ created.2 then (m, created.1, false)
    else
      let registered := registerImage paths host m created.1 (paths.absoluteFilePath path) type
      let saved := saveCatalog paths toml host registered created.1
      (registered, saved.1, saved.2)

def forgetImage (m : DiskImageManager) (fs : FileSystem) (path : String) :
    DiskImageManager × FileSystem × Bool :=
  let absolutePath := paths.absoluteFilePath path
  let remaining : DiskImageManager :=
    { m with images := m.images.filter fun image => image.path ≠ absolutePath }
  if m.images.length = remaining.images.length then (remaining, fs, false)
  else
    let saved := saveCatalog paths toml host remaining fs
    (remaining, saved.1, saved.2)

variable {paths} {fs : FileSystem}

theorem exists_iff_mem {path : String} :
    fs.exists path = true ↔ path ∈ fs.files.keys ++ fs.directories := by
  rw [FileSystem.exists, FileSystem.isFile, FileSystem.read, Bool.or_eq_true, AList.lookup_isSome,
    List.contains_iff_mem, List.mem_append, ← AList.mem_keys]

/-- The search ends: among one name more than there are files and directories, one is free. -/
theorem exists_uniqueDestination {directory source : String}
    (hdistinct : Function.Injective fun number =>
      paths.absoluteFilePath (candidate paths directory source number)) :
    fs.exists (paths.absoluteFilePath (uniqueDestination paths fs directory source)) = false := by
  rw [uniqueDestination]
  generalize htaken : fs.files.keys.length + fs.directories.length = taken
  rcases hfind : (List.range taken).find? fun number =>
      !fs.exists (paths.absoluteFilePath (candidate paths directory source number))
    with _ | number
  · rw [Option.getD_none, ← Bool.not_eq_true]
    intro hlast
    have hall : ∀ number ∈ List.range (taken + 1),
        fs.exists (paths.absoluteFilePath (candidate paths directory source number)) = true := by
      intro number hnumber
      rcases Nat.lt_succ_iff_lt_or_eq.1 (List.mem_range.1 hnumber) with hlt | rfl
      · simpa using List.find?_eq_none.1 hfind number (List.mem_range.2 hlt)
      · exact hlast
    have hsub : (List.range (taken + 1)).map (fun number =>
        paths.absoluteFilePath (candidate paths directory source number))
        ⊆ fs.files.keys ++ fs.directories := by
      intro name hname
      obtain ⟨number, hnumber, rfl⟩ := List.mem_map.1 hname
      exact exists_iff_mem.1 (hall number hnumber)
    have hlen := ((List.nodup_range.map hdistinct).subperm hsub).length_le
    rw [List.length_map, List.length_range, List.length_append] at hlen
    omega
  · simpa using List.find?_some hfind

end

end DiskImageManager

end CuteMac.Storage
