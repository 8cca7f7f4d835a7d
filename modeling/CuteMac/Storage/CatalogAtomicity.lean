/-
  What a failed operation leaves of the disk library.

  * `Unchanged`: the list and the catalog are as before; `Unparsable`: the catalog can be
    read, and is not a document;
  * `Operation`, `run`: the operations; `Atomic`: one that fails is `Unchanged`, and a
    refresh keeps a catalog that is not a document;
  * `Safe`: the operation stops before its first change, or the catalog is saved, or there
    is nothing to take back; a refresh can read the catalog or cannot save it;
  * `atomic_iff`: these are the operations that are atomic.
-/
import CuteMac.Storage.DiskImageManager

namespace CuteMac.Storage

section
variable {fs : FileSystem} {path path' : String} {bytes : List UInt8}

theorem FileSystem.read_write (fs : FileSystem) (path : String) (bytes : List UInt8) (p : String) :
    (fs.write path bytes).read p = if p = path then some bytes else fs.read p := by
  unfold FileSystem.read FileSystem.write
  split_ifs with h
  · rw [h]
    exact AList.lookup_insert _
  · exact AList.lookup_insert_ne h

theorem FileSystem.read_remove (fs : FileSystem) (path p : String) :
    (fs.remove path).read p = if p = path then none else fs.read p := by
  unfold FileSystem.read FileSystem.remove
  split_ifs with h
  · rw [h]
    exact AList.lookup_erase _ _
  · exact AList.lookup_erase_ne h

theorem FileSystem.read_eq_none (h : fs.exists path = false) : fs.read path = none := by
  rw [FileSystem.exists, Bool.or_eq_false_iff] at h
  exact Option.isSome_eq_false_iff.1 h.1 |> Option.isNone_iff_eq_none.1

end

namespace DiskImageManager

/-! ## The list -/

/-- The list has this entry for its path. -/
def Recorded (images : List DiskImageEntry) (entry : DiskImageEntry) : Prop :=
  (images.find? fun image => image.path = entry.path) = some entry

/-- Registering what is recorded changes nothing, and nothing else does. -/
theorem putEntry_eq_self {entry : DiskImageEntry} {images : List DiskImageEntry} :
    putEntry entry images = images ↔ Recorded images entry := by
  induction images with
  | nil => simp [putEntry, Recorded]
  | cons found images ih =>
    rw [putEntry, Recorded, List.find?_cons]
    by_cases hpath : found.path = entry.path
    · rw [if_pos hpath, decide_eq_true hpath]
      obtain ⟨fp, ft, fs, fv⟩ := found
      obtain ⟨ep, et, es, ev⟩ := entry
      simp only [List.cons.injEq, DiskImageEntry.mk.injEq, Option.some.injEq] at hpath ⊢
      constructor
      · rintro ⟨⟨-, rfl, rfl, rfl⟩, -⟩
        exact ⟨hpath, rfl, rfl, rfl⟩
      · rintro ⟨-, rfl, rfl, rfl⟩
        exact ⟨⟨trivial, rfl, rfl, rfl⟩, trivial⟩
    · rw [if_neg hpath, decide_eq_false hpath, List.cons.injEq, ih, Recorded]
      exact ⟨fun h => h.2, fun h => ⟨rfl, h⟩⟩

section
variable (paths : Paths) (toml : TomlText) (host : Outcome)

/-! ## Operations -/

inductive Operation where
  | importImage (sourcePath : String) (type : DiskImageType) (collection : String)
  | importDetectedImage (sourcePath collection : String)
  | createImage (path : String) (type : DiskImageType) (sizeBytes : Int)
  | forgetImage (path : String)
  | refresh

def run (m : DiskImageManager) (fs : FileSystem) :
    Operation → DiskImageManager × FileSystem × Bool
  | .importImage sourcePath type collection =>
    importImage paths toml host m fs sourcePath type collection
  | .importDetectedImage sourcePath collection =>
    importDetectedImage paths toml host m fs sourcePath collection
  | .createImage path type sizeBytes => createImage paths toml host m fs path type sizeBytes
  | .forgetImage path => forgetImage paths toml host m fs path
  | .refresh => refresh paths toml host m fs

/-- The catalog can be read, and is not a document. -/
def Unparsable (m : DiskImageManager) (fs : FileSystem) : Prop :=
  ∃ bytes, opened host fs (m.catalogPath paths) = some bytes ∧ toml.parse bytes = none

/-- The list and the catalog are as before. -/
structure Unchanged (m : DiskImageManager) (fs : FileSystem)
    (after : DiskImageManager × FileSystem × Bool) : Prop where
  images : after.1.images = m.images
  catalog : after.2.1.read (m.catalogPath paths) = fs.read (m.catalogPath paths)

/-- What a call that returns `false` has to leave. -/
def Atomic (m : DiskImageManager) (fs : FileSystem) : Operation → Prop
  | .refresh => (refresh paths toml host m fs).2.2 = false → Unparsable paths toml host m fs →
      (refresh paths toml host m fs).2.1.read (m.catalogPath paths)
        = fs.read (m.catalogPath paths)
  | operation => (run paths toml host m fs operation).2.2 = false →
      Unchanged paths m fs (run paths toml host m fs operation)

/-! ## When they are atomic -/

/-- Where the file has been copied, the catalog is saved, or the list had the entry of the
    copy, and the copy is not a catalog that stays. -/
def ImportSafe (m : DiskImageManager) (fs : FileSystem) (sourcePath : String)
    (type : DiskImageType) (collection : String) : Prop :=
  ∀ bytes directory destination, fs.read (paths.absoluteFilePath sourcePath) = some bytes →
    destinationDirectory paths host m collection = some directory →
    paths.absoluteFilePath (uniqueDestination paths fs directory sourcePath) = destination →
    host.copy = true → fs.exists destination = false →
    host.saves = true ∨
      Recorded m.images (entryOf host (fs.write destination bytes) destination type) ∧
        (destination = m.catalogPath paths → host.remove = true)

/-- Where the file has been cut to nothing, it is not the catalog; where it has been made,
    the catalog is saved, or the list had its entry. -/
def CreateSafe (m : DiskImageManager) (fs : FileSystem) (path : String) (type : DiskImageType)
    (sizeBytes : Int) : Prop :=
  type ≠ .cdRom → path ≠ "" → 0 < sizeBytes → host.mkpath (paths.absolutePath path) = true →
    host.truncate = true →
    (host.resize = false → paths.absoluteFilePath path = m.catalogPath paths →
      fs.read (m.catalogPath paths) = some []) ∧
    (host.resize = true → host.saves = true ∨
      Recorded m.images (entryOf host
        (fs.write (paths.absoluteFilePath path) (List.replicate sizeBytes.toNat 0))
        (paths.absoluteFilePath (paths.absoluteFilePath path)) type) ∧
      (paths.absoluteFilePath path = m.catalogPath paths →
        fs.read (m.catalogPath paths) = some (List.replicate sizeBytes.toNat 0)))

def Safe (m : DiskImageManager) (fs : FileSystem) : Operation → Prop
  | .importImage sourcePath type collection => ImportSafe paths host m fs sourcePath type collection
  | .importDetectedImage sourcePath collection =>
    ImportSafe paths host m fs sourcePath
      (inferType
        { suffix := paths.suffix sourcePath
          bytes := (fs.read (paths.absoluteFilePath sourcePath)).getD [] }
        (host.readable (paths.absoluteFilePath sourcePath))) collection
  | .createImage path type sizeBytes => CreateSafe paths host m fs path type sizeBytes
  | .forgetImage path => host.saves = true ∨
      ∀ image ∈ m.images, image.path ≠ paths.absoluteFilePath path
  | .refresh => Unparsable paths toml host m fs → host.saves = false

variable {paths toml host} {m : DiskImageManager} {fs : FileSystem}

theorem saveCatalog_of_saves (h : host.saves = true) :
    saveCatalog paths toml host m fs =
      (fs.write (m.catalogPath paths) (toml.serialize (m.document paths)), true) := if_pos h

theorem saveCatalog_of_not_saves (h : host.saves = false) :
    saveCatalog paths toml host m fs = (fs, false) := by
  rw [saveCatalog, h]
  rfl

/-- Only what is recorded can be registered and forgotten. -/
theorem importImage_atomic_iff {sourcePath collection : String} {type : DiskImageType} :
    ((importImage paths toml host m fs sourcePath type collection).2.2 = false →
      Unchanged paths m fs (importImage paths toml host m fs sourcePath type collection)) ↔
    ImportSafe paths host m fs sourcePath type collection := by
  unfold ImportSafe
  rw [importImage]
  rcases hread : fs.read (paths.absoluteFilePath sourcePath) with _ | bytes
  · exact ⟨fun _ _ _ _ h => absurd h (by simp), fun _ _ => ⟨rfl, rfl⟩⟩
  rcases hdir : destinationDirectory paths host m collection with _ | directory
  · exact ⟨fun _ _ _ _ _ h => absurd h (by simp), fun _ _ => ⟨rfl, rfl⟩⟩
  dsimp only
  generalize hdest : uniqueDestination paths fs directory sourcePath = destination
  by_cases hcopy : ¬ host.copy ∨ fs.exists (paths.absoluteFilePath destination)
  · rw [if_pos hcopy]
    refine ⟨fun _ b d t hb hd ht hc he => ?_, fun _ _ => ⟨rfl, rfl⟩⟩
    obtain rfl := Option.some.inj hd
    rw [hdest] at ht
    subst ht
    rcases hcopy with hcopy | hcopy
    · exact absurd hc hcopy
    · rw [he] at hcopy
      cases hcopy
  rw [if_neg hcopy]
  rw [not_or, not_not, Bool.not_eq_true] at hcopy
  obtain ⟨hcopy, hexists⟩ := hcopy
  have hnone := FileSystem.read_eq_none hexists
  rcases hsave : host.saves with _ | _
  · rw [saveCatalog_of_not_saves hsave]
    simp only [Bool.false_eq_true, if_false]
    constructor
    · intro h b d t hb hd ht hc he
      obtain rfl := Option.some.inj hb
      obtain rfl := Option.some.inj hd
      rw [hdest] at ht
      subst ht
      obtain ⟨himages, hcatalog⟩ := h trivial
      refine Or.inr ⟨putEntry_eq_self.1 himages, fun hcat => ?_⟩
      by_contra hremove
      rw [if_neg hremove, ← hcat, FileSystem.read_write, if_pos rfl, hnone] at hcatalog
      cases hcatalog
    · intro h _
      rcases h bytes directory _ rfl rfl (congrArg _ hdest) hcopy hexists with h | ⟨hrec, hcat⟩
      · cases h
      · refine ⟨putEntry_eq_self.2 hrec, ?_⟩
        by_cases hdc : paths.absoluteFilePath destination = m.catalogPath paths
        · dsimp only
          rw [if_pos (hcat hdc), FileSystem.read_remove, if_pos hdc.symm, ← hdc, hnone]
        · dsimp only
          split_ifs
          · rw [FileSystem.read_remove, if_neg (Ne.symm hdc), FileSystem.read_write,
              if_neg (Ne.symm hdc)]
          · rw [FileSystem.read_write, if_neg (Ne.symm hdc)]
  · rw [saveCatalog_of_saves hsave]
    simp only [if_true]
    exact ⟨fun _ _ _ _ _ _ _ _ _ => Or.inl trivial, fun _ h => by cases h⟩

theorem createBlankImage_of_refused {path : String} {sizeBytes : Int}
    (h : path = "" ∨ sizeBytes ≤ 0 ∨ ¬ host.mkpath (paths.absolutePath path) = true ∨
      ¬ host.truncate = true) : createBlankImage paths host fs path sizeBytes = (fs, false) := by
  rw [createBlankImage]
  by_cases h1 : path = "" ∨ sizeBytes ≤ 0
  · rw [if_pos h1]
  · rw [if_neg h1]
    by_cases h2 : host.mkpath (paths.absolutePath path) = true
    · rw [if_neg (not_not.2 h2), if_pos (by tauto)]
    · rw [if_pos h2]

theorem createBlankImage_of_opened {path : String} {sizeBytes : Int} (h1 : path ≠ "")
    (h2 : 0 < sizeBytes) (h3 : host.mkpath (paths.absolutePath path) = true)
    (h4 : host.truncate = true) : createBlankImage paths host fs path sizeBytes =
      if host.resize then
        (fs.write (paths.absoluteFilePath path) (List.replicate sizeBytes.toNat 0), true)
      else (fs.write (paths.absoluteFilePath path) [], false) := by
  rw [createBlankImage, if_neg (by rintro (h | h); exacts [h1 h, absurd h2 (not_lt.2 h)]),
    if_neg (not_not.2 h3), if_neg (not_not.2 h4)]
  rcases host.resize with _ | _
  · rfl
  · rfl

theorem createImage_atomic_iff {path : String} {type : DiskImageType} {sizeBytes : Int} :
    ((createImage paths toml host m fs path type sizeBytes).2.2 = false →
      Unchanged paths m fs (createImage paths toml host m fs path type sizeBytes)) ↔
    CreateSafe paths host m fs path type sizeBytes := by
  unfold CreateSafe
  rw [createImage]
  by_cases htype : type = .cdRom
  · rw [if_pos htype]
    exact ⟨fun _ h => absurd htype h, fun _ _ => ⟨rfl, rfl⟩⟩
  rw [if_neg htype]
  by_cases hopen : path ≠ "" ∧ 0 < sizeBytes ∧ host.mkpath (paths.absolutePath path) = true ∧
      host.truncate = true
  · obtain ⟨h1, h2, h3, h4⟩ := hopen
    rw [createBlankImage_of_opened h1 h2 h3 h4]
    rcases hresize : host.resize with _ | _
    · -- the file is left empty
      simp only [Bool.false_eq_true, if_false, not_false_eq_true, if_true]
      constructor
      · intro h _ _ _ _ _
        refine ⟨fun _ hcat => ?_, fun h => by cases h⟩
        have hcatalog := (h trivial).catalog
        rw [FileSystem.read_write, if_pos hcat.symm] at hcatalog
        exact hcatalog.symm
      · intro h _
        obtain ⟨hempty, -⟩ := h htype h1 h2 h3 h4
        refine ⟨rfl, ?_⟩
        dsimp only
        rw [FileSystem.read_write]
        split_ifs with hcat
        · exact (hempty trivial hcat.symm).symm
        · rfl
    · simp only [if_true, not_true_eq_false, if_false]
      rcases hsave : host.saves with _ | _
      · rw [saveCatalog_of_not_saves hsave]
        constructor
        · intro h _ _ _ _ _
          obtain ⟨himages, hcatalog⟩ := h rfl
          refine ⟨fun h => (by cases h), fun _ => Or.inr ⟨putEntry_eq_self.1 himages, fun hcat => ?_⟩⟩
          rw [FileSystem.read_write, if_pos hcat.symm] at hcatalog
          exact hcatalog.symm
        · intro h _
          obtain ⟨-, hmade⟩ := h htype h1 h2 h3 h4
          rcases hmade trivial with h | ⟨hrec, hzeros⟩
          · cases h
          · refine ⟨putEntry_eq_self.2 hrec, ?_⟩
            dsimp only
            rw [FileSystem.read_write]
            split_ifs with hcat
            · exact (hzeros hcat.symm).symm
            · rfl
      · rw [saveCatalog_of_saves hsave]
        exact ⟨fun _ _ _ _ _ _ => ⟨fun h => (by cases h), fun _ => Or.inl rfl⟩,
          fun _ h => by cases h⟩
  · rw [createBlankImage_of_refused (by
      by_contra hnot
      push Not at hnot
      exact hopen ⟨hnot.1, hnot.2.1, hnot.2.2.1, hnot.2.2.2⟩)]
    refine ⟨fun _ _ h1 h2 h3 h4 => absurd ⟨h1, h2, h3, h4⟩ hopen, fun _ _ => ⟨rfl, rfl⟩⟩

theorem forgetImage_atomic_iff {path : String} :
    ((forgetImage paths toml host m fs path).2.2 = false →
      Unchanged paths m fs (forgetImage paths toml host m fs path)) ↔
    (host.saves = true ∨ ∀ image ∈ m.images, image.path ≠ paths.absoluteFilePath path) := by
  rw [forgetImage]
  have hkept : m.images.length
      = (m.images.filter fun image => image.path ≠ paths.absoluteFilePath path).length ↔
      ∀ image ∈ m.images, image.path ≠ paths.absoluteFilePath path := by
    rw [eq_comm, List.length_filter_eq_length_iff]
    exact forall₂_congr fun image _ => decide_eq_true_iff
  dsimp only
  by_cases hnone : ∀ image ∈ m.images, image.path ≠ paths.absoluteFilePath path
  · rw [if_pos (hkept.2 hnone)]
    refine ⟨fun _ => Or.inr hnone, fun _ _ => ⟨?_, rfl⟩⟩
    exact List.filter_eq_self.2 fun image h => decide_eq_true (hnone image h)
  · rw [if_neg fun h => hnone (hkept.1 h)]
    rcases hsave : host.saves with _ | _
    · rw [saveCatalog_of_not_saves hsave]
      constructor
      · intro h
        have himages := congrArg List.length (h rfl).images
        exact Or.inr (hkept.1 himages.symm)
      · rintro (h | h)
        · cases h
        · exact absurd h hnone
    · rw [saveCatalog_of_saves hsave]
      exact ⟨fun _ => Or.inl rfl, fun _ h => by cases h⟩

theorem loadCatalog_of_unparsable (h : Unparsable paths toml host m fs) :
    (loadCatalog paths toml host m fs).2 = false := by
  obtain ⟨bytes, hopen, hparse⟩ := h
  have hexists : fs.exists (m.catalogPath paths) = true := by
    unfold opened at hopen
    split_ifs at hopen
    rw [FileSystem.exists, FileSystem.isFile, hopen]
    rfl
  -- the library of the emptied list is the same
  have hexists' : fs.exists (catalogPath paths { m with images := [] }) = true := hexists
  have hopen' : opened host fs (catalogPath paths { m with images := [] }) = some bytes := hopen
  rw [loadCatalog, if_neg (not_not.2 hexists'), hopen']
  dsimp only
  rw [hparse]

/-- The library stays where it is. -/
theorem libraryPath_foldl {α : Type*} {f : DiskImageManager → α → DiskImageManager}
    (hf : ∀ m a, (f m a).libraryPath = m.libraryPath) (as : List α) (m : DiskImageManager) :
    (as.foldl f m).libraryPath = m.libraryPath := by
  induction as generalizing m with
  | nil => rfl
  | cons a as ih => rw [List.foldl_cons, ih, hf]

theorem libraryPath_discover (m : DiskImageManager) (path : String) :
    (discover paths host fs m path).libraryPath = m.libraryPath := by
  rw [discover]
  split_ifs
  · rfl
  · split
    · rfl
    · split_ifs <;> rfl

theorem libraryPath_loadCatalog :
    (loadCatalog paths toml host m fs).1.libraryPath = m.libraryPath := by
  rw [loadCatalog]
  split_ifs
  · split
    · rfl
    · split
      · rfl
      · refine libraryPath_foldl (fun m table => ?_) _ _
        dsimp only
        split_ifs <;> rfl
  · rfl

theorem read_saveCatalog {m' : DiskImageManager} (hsave : host.saves = true)
    (hpath : m'.libraryPath = m.libraryPath) : ∃ document,
      (saveCatalog paths toml host m' fs).1.read (m.catalogPath paths)
        = some (toml.serialize document) := by
  refine ⟨document paths m', ?_⟩
  rw [saveCatalog_of_saves hsave, FileSystem.read_write, catalogPath, catalogPath, hpath, if_pos rfl]

theorem read_refresh (hsave : host.saves = true) : ∃ document,
    (refresh paths toml host m fs).2.1.read (m.catalogPath paths)
      = some (toml.serialize document) := by
  rw [refresh]
  refine read_saveCatalog hsave ?_
  dsimp only
  rw [libraryPath_foldl libraryPath_discover]
  exact libraryPath_loadCatalog

/-- A saved catalog is a document again. -/
theorem refresh_atomic_iff :
    ((refresh paths toml host m fs).2.2 = false → Unparsable paths toml host m fs →
      (refresh paths toml host m fs).2.1.read (m.catalogPath paths)
        = fs.read (m.catalogPath paths)) ↔
    (Unparsable paths toml host m fs → host.saves = false) := by
  by_cases hunparsable : Unparsable paths toml host m fs
  · have hloaded := loadCatalog_of_unparsable hunparsable
    rcases hsave : host.saves with _ | _
    · refine ⟨fun _ _ => rfl, fun _ _ _ => ?_⟩
      rw [refresh, saveCatalog_of_not_saves hsave]
    · have hfalse : (refresh paths toml host m fs).2.2 = false := by
        rw [refresh]
        dsimp only
        rw [hloaded, Bool.and_false]
      refine ⟨fun h => ?_, fun h => absurd (h hunparsable) (by simp)⟩
      exfalso
      obtain ⟨bytes, hopen, hparse⟩ := hunparsable
      have hcatalog := h hfalse ⟨bytes, hopen, hparse⟩
      have hold : fs.read (m.catalogPath paths) = some bytes := by
        unfold opened at hopen
        split_ifs at hopen
        exact hopen
      obtain ⟨document, hsaved⟩ : ∃ document, (refresh paths toml host m fs).2.1.read
          (m.catalogPath paths) = some (toml.serialize document) := read_refresh hsave
      rw [hcatalog, hold] at hsaved
      have hparsed := toml.isSome_parse document
      rw [← Option.some.inj hsaved, hparse] at hparsed
      cases hparsed
  · exact ⟨fun _ h => absurd h hunparsable, fun _ _ h => absurd h hunparsable⟩

end

/-- A call that returns `false` leaves the list and the catalog exactly where it stops before
    it changes the list or the catalog, where the catalog is saved, or where there is nothing
    to take back; a refresh keeps a catalog that is not a document exactly where it cannot
    save another one. -/
theorem atomic_iff (paths : Paths) (toml : TomlText) (host : Outcome) (m : DiskImageManager)
    (fs : FileSystem) (operation : Operation) :
    Atomic paths toml host m fs operation ↔ Safe paths toml host m fs operation := by
  cases operation with
  | importImage => exact importImage_atomic_iff
  | importDetectedImage => exact importImage_atomic_iff
  | createImage => exact createImage_atomic_iff
  | forgetImage => exact forgetImage_atomic_iff
  | refresh => exact refresh_atomic_iff

/-- The paths below, as Qt takes them apart. -/
def plainPaths : Paths where
  absoluteFilePath path := path
  absolutePath _ := "/home"
  fileName path := if path = "/home/disk.img" then "disk.img" else path
  completeBaseName _ := "disk"
  suffix _ := "img"
  filePath directory name := directory ++ "/" ++ name
  relativeFilePath _ path := if path = "/library/old.img" then "old.img" else path
  cleanPath path := path
  isAbsolutePath path := path.startsWith "/"
  trimmed path := path
  precedes _ _ := false

/-- `images = []` and `version = 1`. -/
def emptyCatalog : List UInt8 :=
  [0x69, 0x6d, 0x61, 0x67, 0x65, 0x73, 0x20, 0x3d, 0x20, 0x5b, 0x5d, 0x0a,
   0x76, 0x65, 0x72, 0x73, 0x69, 0x6f, 0x6e, 0x20, 0x3d, 0x20, 0x31]

/-- A lone word is not a document. -/
def plainToml : TomlText where
  parse bytes := if bytes = [0x78] then none else some (.table [])
  serialize _ := emptyCatalog
  isSome_parse _ := rfl

/-- Every call succeeds, the last one of a save as given. -/
def plainHost (saveCommit : Bool) : Outcome where
  mkpath _ := true
  cd directory name := some (directory ++ "/" ++ name)
  readable _ := true
  copy := true
  remove := true
  truncate := true
  resize := true
  saveOpen := true
  saveWrite := true
  saveCommit := saveCommit
  iterator := []

/-- One image is known; the catalog is a lone word. -/
def plainLibrary : DiskImageManager where
  libraryPath := "/library"
  images := [{ path := "/library/old.img", sizeBytes := 1 }]

def plainFiles : FileSystem where
  files := ((∅ : AList fun _ : String => List UInt8).insert "/home/disk.img" [0x01]).insert
    "/library/library.toml" [0x78]
  directories := []

/-- Where the catalog cannot be saved, an import and a new image stay in the list, and a
    forgotten image is gone from it; where it can, a refresh replaces what is not a document. -/
theorem failed_calls_change :
    ¬ Atomic plainPaths plainToml (plainHost false) plainLibrary plainFiles
        (.importImage "/home/disk.img" .hardDisk "") ∧
    ¬ Atomic plainPaths plainToml (plainHost false) plainLibrary plainFiles
        (.createImage "/home/new.img" .hardDisk 1) ∧
    ¬ Atomic plainPaths plainToml (plainHost false) plainLibrary plainFiles
        (.forgetImage "/library/old.img") ∧
    ¬ Atomic plainPaths plainToml (plainHost true) plainLibrary plainFiles .refresh := by
  refine ⟨fun h => ?_, fun h => ?_, fun h => ?_, fun h => ?_⟩
  · rcases importImage_atomic_iff.1 h [0x01] "/library" "/library/disk.img" (by decide) (by decide)
      (by decide) rfl (by decide) with hs | ⟨hr, -⟩
    · exact absurd hs (by decide)
    · exact absurd (putEntry_eq_self.2 hr) (by decide)
  · obtain ⟨-, h⟩ := createImage_atomic_iff.1 h (by decide) (by decide) (by decide) rfl rfl
    rcases h rfl with hs | ⟨hr, -⟩
    · exact absurd hs (by decide)
    · exact absurd (putEntry_eq_self.2 hr) (by decide)
  · rcases forgetImage_atomic_iff.1 h with hs | hn
    · exact absurd hs (by decide)
    · exact hn _ List.mem_cons_self rfl
  · have hsaves := refresh_atomic_iff.1 h ⟨[0x78], by decide, by decide⟩
    exact absurd hsaves (by decide)

end DiskImageManager

end CuteMac.Storage
