/-
  The disk library and the floppy drive, on the same file.

  * `isDiskCopyFloppy`, `isTruncatedRawHfsFloppy`: what the library takes for a
    floppy (`DiskImageManager.cpp`);
  * `Agrees`: the drive makes of the file what the library took it for;
  * `agrees_iff`: when that is.
-/
import CuteMac.Floppy.DiskCopy

namespace CuteMac.Storage

open Floppy Slice FloppyDiskImage

/-- A file, as far as the library looks at it. -/
structure ImageFile where
  suffix : String
  bytes : List UInt8

/-! ## The classifier -/

def isDiskCopyFloppy (file : ImageFile) : Prop :=
  let header := file.bytes.take 84
  let dataSize := (readBe32 header 64).toNat
  let tagSize := (readBe32 header 68).toNat
  84 ≤ file.bytes.length ∧
    (dataSize = 400 * 1024 ∨ dataSize = 800 * 1024 ∨ dataSize = 1440 * 1024) ∧
    file.bytes.length = 84 + dataSize + tagSize

instance (file : ImageFile) : Decidable (isDiskCopyFloppy file) :=
  inferInstanceAs (Decidable (_ ∧ _ ∧ _))

def isTruncatedRawHfsFloppy (file : ImageFile) : Prop :=
  let suffix := file.suffix.toLower
  let mdb := mid file.bytes 1024 32
  let allocationBlocks := mdbWord mdb 18
  let allocationBlockSize := mdbWord mdb 20 * 65536 + mdbWord mdb 22
  ¬ (file.bytes.length ≤ raw400KBytes ∨ raw1440KBytes ≤ file.bytes.length) ∧
    (suffix = "img" ∨ suffix = "dsk") ∧ mdb.length = 32 ∧ mdbWord mdb 0 = 0x4244 ∧
    allocationBlocks ≠ 0 ∧ allocationBlockSize ≠ 0 ∧ file.bytes.length < volumeBytes mdb ∧
    volumeBytes mdb ≤ targetBytes file.bytes.length + hfsGeometrySlackBytes

instance (file : ImageFile) : Decidable (isTruncatedRawHfsFloppy file) :=
  inferInstanceAs (Decidable (_ ∧ _ ∧ _ ∧ _ ∧ _ ∧ _ ∧ _ ∧ _))

/-- What is a floppy by its size, or by its contents. -/
def IsFloppy (file : ImageFile) : Prop :=
  isDiskCopyFloppy file ∨ isTruncatedRawHfsFloppy file ∨ file.bytes.length = raw400KBytes ∨
    file.bytes.length = raw800KBytes ∨ file.bytes.length = raw1440KBytes

/-! ## Agreement -/

/-- The smallest disk that holds a file. -/
def capacity (size : Nat) : Nat :=
  if size ≤ raw400KBytes then raw400KBytes
  else if size ≤ raw800KBytes then raw800KBytes
  else raw1440KBytes

def rawKind (size : Nat) : Kind :=
  if size ≤ raw400KBytes then .raw400K
  else if size ≤ raw800KBytes then .raw800K
  else .raw1440K

/-- The drive accepts the file, as the library took it. -/
structure Agrees (file : ImageFile) (r : FloppyDiskImage × Bool) : Prop where
  accepted : r.2 = true
  container : isDiskCopyFloppy file → r.1.kind = .diskCopy42 ∧
    r.1.data = mid file.bytes headerBytes (readBe32 file.bytes 64).toNat
  raw : ¬ isDiskCopyFloppy file → r.1.kind = rawKind file.bytes.length ∧
    r.1.data = padded file.bytes (capacity file.bytes.length)

/-- The container has tags for every block or none, and the volume of a raw disk is not seen
    in it. -/
structure Plain (bytes : List UInt8) : Prop where
  tags : (readBe32 bytes 68).toNat = 0 ∨
    (readBe32 bytes 68).toNat = (readBe32 bytes 64).toNat / bytesPerSector * tagBytesPerSector
  volume : (readBe32 bytes 64).toNat = raw1440KBytes ∨
    ¬ HidesVolume (mid bytes headerBytes (readBe32 bytes 64).toNat) bytes.length

variable {file : ImageFile} {d : FloppyDiskImage} {path : String} {readOnly : Bool}

/-- The words of the header are words of the file. -/
theorem isDiskCopyFloppy_iff : isDiskCopyFloppy file ↔ headerBytes ≤ file.bytes.length ∧
    ((readBe32 file.bytes 64).toNat = raw400KBytes ∨ (readBe32 file.bytes 64).toNat = raw800KBytes ∨
      (readBe32 file.bytes 64).toNat = raw1440KBytes) ∧
    file.bytes.length
      = headerBytes + (readBe32 file.bytes 64).toNat + (readBe32 file.bytes 68).toNat := by
  unfold isDiskCopyFloppy
  by_cases hlen : 84 ≤ file.bytes.length
  · dsimp only
    rw [readBe32_take (by omega) hlen, readBe32_take (by omega) hlen]
    exact Iff.rfl
  · exact ⟨fun h => absurd h.1 hlen, fun h => absurd h.1 hlen⟩

theorem diskCopyFile_of (h : isDiskCopyFloppy file) (ht : (readBe32 file.bytes 68).toNat = 0 ∨
    (readBe32 file.bytes 68).toNat
      = (readBe32 file.bytes 64).toNat / bytesPerSector * tagBytesPerSector) :
    DiskCopyFile file.bytes := by
  obtain ⟨-, hdata, hlen⟩ := isDiskCopyFloppy_iff.1 h
  exact ⟨hdata, ht, hlen.ge⟩

/-- A container that is not of the size of a raw disk. -/
theorem length_container (h : DiskCopyFile file.bytes) (hd : isDiskCopyFloppy file) :
    file.bytes.length ≠ raw400KBytes ∧ file.bytes.length ≠ raw800KBytes ∧
      file.bytes.length ≠ raw1440KBytes := by
  obtain ⟨-, -, hlen⟩ := isDiskCopyFloppy_iff.1 hd
  have htags := h.tagSize
  rcases h.dataSize with hs | hs | hs <;>
  · rw [hs] at hlen htags
    simp only [raw400KBytes, raw800KBytes, raw1440KBytes, headerBytes, bytesPerSector,
      tagBytesPerSector] at hlen htags ⊢
    omega

/-- The drive sees a raw volume in a container exactly when the data hides one. -/
theorem truncatedRawHfsKind_iff (h : DiskCopyFile file.bytes) (hd : isDiskCopyFloppy file) :
    truncatedRawHfsKind file.bytes = .empty ↔ (readBe32 file.bytes 64).toNat = raw1440KBytes ∨
      ¬ HidesVolume (mid file.bytes headerBytes (readBe32 file.bytes 64).toNat)
        file.bytes.length := by
  obtain ⟨-, -, hlen⟩ := isDiskCopyFloppy_iff.1 hd
  have hsizes := h.dataSize
  have htags := h.tagSize
  generalize (readBe32 file.bytes 64).toNat = dataSize at *
  generalize (readBe32 file.bytes 68).toNat = tagSize at *
  by_cases hn : dataSize = raw1440KBytes
  · have hbig : raw1440KBytes ≤ file.bytes.length := by omega
    rw [truncatedRawHfsKind, if_pos (Or.inr (Or.inl hbig))]
    exact ⟨fun _ => Or.inl hn, fun _ => rfl⟩
  have hmdb : mid (mid file.bytes headerBytes dataSize) 940 32 = mid file.bytes 1024 32 := by
    rw [mid_mid]
    · rfl
    · simp only [raw400KBytes, raw800KBytes, raw1440KBytes] at hsizes
      omega
  have hprobe : ¬ (file.bytes.length ≤ raw400KBytes ∨ raw1440KBytes ≤ file.bytes.length ∨
      file.bytes.length < 1056) := by
    simp only [raw400KBytes, raw800KBytes, raw1440KBytes, headerBytes, bytesPerSector,
      tagBytesPerSector] at hsizes htags hlen hn ⊢
    omega
  unfold HidesVolume truncatedRawHfsKind
  rw [if_neg hprobe, hmdb]
  dsimp only
  split
  · simp only [true_iff]
    omega
  · split
    · simp only [reduceCtorEq, false_iff]
      omega
    · simp only [reduceCtorEq, false_iff]
      omega

/-- The drive recognises what was cut short as the library does. -/
theorem truncatedRawHfsKind_of (h : isTruncatedRawHfsFloppy file) :
    truncatedRawHfsKind file.bytes
      = if file.bytes.length < raw800KBytes then .raw800K else .raw1440K := by
  obtain ⟨hsize, -, -, hsig, hblocks, hblockSize, hlow, hhigh⟩ := h
  have hprobe : ¬ (file.bytes.length ≤ raw400KBytes ∨ raw1440KBytes ≤ file.bytes.length ∨
      file.bytes.length < 1056) := by
    simp only [raw400KBytes, raw1440KBytes] at hsize ⊢
    omega
  unfold truncatedRawHfsKind
  rw [if_neg hprobe]
  dsimp only
  rw [if_neg (by omega)]
  unfold targetBytes
  by_cases h8 : file.bytes.length < raw800KBytes
  · rw [if_pos h8, if_pos rfl, if_pos h8]
  · rw [if_neg h8, if_neg (by decide), if_neg h8]

theorem padded_self (bytes : List UInt8) : padded bytes bytes.length = bytes := by
  rw [padded, List.take_length, Nat.sub_self, List.replicate_zero, List.append_nil]

/-- A container that the drive takes as one. -/
theorem container_of_load (hread : d.host.readAll path = some file.bytes)
    (hok : (d.load path readOnly).2 = true)
    (hkind : (d.load path readOnly).1.kind = .diskCopy42) :
    truncatedRawHfsKind file.bytes = .empty ∧ DiskCopyFile file.bytes := by
  have hread' : ({ d with forceReadOnly := readOnly } : FloppyDiskImage).host.readAll path
      = some file.bytes := hread
  simp only [load, hread'] at hok hkind
  by_cases h4 : file.bytes.length = raw400KBytes
  · rw [if_pos h4] at hkind
    cases hkind
  rw [if_neg h4] at hok hkind
  by_cases h8 : file.bytes.length = raw800KBytes
  · rw [if_pos h8] at hkind
    cases hkind
  rw [if_neg h8] at hok hkind
  by_cases h14 : file.bytes.length = raw1440KBytes
  · rw [if_pos h14] at hkind
    cases hkind
  rw [if_neg h14] at hok hkind
  rcases truncatedRawHfsKind_cases file.bytes with h | h | h
  · rw [h, if_neg (by decide), if_neg (by decide)] at hok hkind
    refine ⟨h, ?_⟩
    by_contra hnot
    rw [loadDiskCopy42_of_not hnot] at hok
    split at hok <;> cases hok
  · rw [h, if_pos rfl] at hkind
    cases hkind
  · rw [h, if_neg (by decide), if_pos rfl] at hkind
    cases hkind

/-- A disk that is not a container is taken as a raw one. -/
theorem agrees_raw (hread : d.host.readAll path = some file.bytes) (hf : IsFloppy file)
    (hnot : ¬ isDiskCopyFloppy file) : Agrees file (d.load path readOnly) := by
  have hread' : ({ d with forceReadOnly := readOnly } : FloppyDiskImage).host.readAll path
      = some file.bytes := hread
  by_cases h4 : file.bytes.length = raw400KBytes
  · simp only [load, hread']
    rw [if_pos h4]
    refine ⟨rfl, fun h => absurd h hnot, fun _ => ⟨?_, ?_⟩⟩
    · rw [rawKind, if_pos h4.le]
      rfl
    · rw [capacity, if_pos h4.le, ← h4, padded_self]
      rfl
  by_cases h8 : file.bytes.length = raw800KBytes
  · have hn4 : ¬ file.bytes.length ≤ raw400KBytes := by
      rw [h8]
      decide
    simp only [load, hread']
    rw [if_neg h4, if_pos h8]
    refine ⟨rfl, fun h => absurd h hnot, fun _ => ⟨?_, ?_⟩⟩
    · rw [rawKind, if_neg hn4, if_pos h8.le]
      rfl
    · rw [capacity, if_neg hn4, if_pos h8.le, ← h8, padded_self]
      rfl
  by_cases h14 : file.bytes.length = raw1440KBytes
  · have hn4 : ¬ file.bytes.length ≤ raw400KBytes := by
      rw [h14]
      decide
    have hn8 : ¬ file.bytes.length ≤ raw800KBytes := by
      rw [h14]
      decide
    simp only [load, hread']
    rw [if_neg h4, if_neg h8, if_pos h14]
    refine ⟨rfl, fun h => absurd h hnot, fun _ => ⟨?_, ?_⟩⟩
    · rw [rawKind, if_neg hn4, if_neg hn8]
      rfl
    · rw [capacity, if_neg hn4, if_neg hn8, ← h14, padded_self]
      rfl
  -- none of the sizes: the volume header decides
  have ht : isTruncatedRawHfsFloppy file := by
    rcases hf with h | h | h | h | h
    · exact absurd h hnot
    · exact h
    · exact absurd h h4
    · exact absurd h h8
    · exact absurd h h14
  have hkind := truncatedRawHfsKind_of ht
  have hn4 : ¬ file.bytes.length ≤ raw400KBytes := fun h => ht.1 (Or.inl h)
  simp only [load, hread']
  rw [if_neg h4, if_neg h8, if_neg h14, hkind]
  by_cases hlt : file.bytes.length < raw800KBytes
  · rw [if_pos hlt, if_pos rfl]
    refine ⟨rfl, fun h => absurd h hnot, fun _ => ⟨?_, ?_⟩⟩
    · rw [rawKind, if_neg hn4, if_pos hlt.le]
      rfl
    · rw [capacity, if_neg hn4, if_pos hlt.le]
      rfl
  · have hn8 : ¬ file.bytes.length ≤ raw800KBytes := by omega
    rw [if_neg hlt, if_neg (by decide), if_pos rfl]
    refine ⟨rfl, fun h => absurd h hnot, fun _ => ⟨?_, ?_⟩⟩
    · rw [rawKind, if_neg hn4, if_neg hn8]
      rfl
    · rw [capacity, if_neg hn4, if_neg hn8]
      rfl

/-- A container is taken as one exactly when it is plain. -/
theorem agrees_container (hread : d.host.readAll path = some file.bytes)
    (hd : isDiskCopyFloppy file) : Agrees file (d.load path readOnly) ↔ Plain file.bytes := by
  constructor
  · intro h
    obtain ⟨ht, hfile⟩ := container_of_load hread h.accepted (h.container hd).1
    exact ⟨hfile.tagSize, (truncatedRawHfsKind_iff hfile hd).1 ht⟩
  · rintro ⟨htags, hvolume⟩
    have hfile := diskCopyFile_of hd htags
    rw [load_of_not_raw hread (length_container hfile hd)
      ((truncatedRawHfsKind_iff hfile hd).2 hvolume) hfile]
    exact ⟨rfl, fun _ => ⟨rfl, rfl⟩, fun h => absurd hd h⟩

/-! ## Main result -/

/-- Whatever the file holds: the drive takes a floppy of the library as the library did, unless
    it is a container that is not plain. -/
theorem load_agrees_iff (file : ImageFile) (d : FloppyDiskImage) (path : String) (readOnly : Bool)
    (hread : d.host.readAll path = some file.bytes) :
    (IsFloppy file → Agrees file (d.load path readOnly)) ↔
      (isDiskCopyFloppy file → Plain file.bytes) := by
  constructor
  · intro h hd
    exact (agrees_container hread hd).1 (h (Or.inl hd))
  · intro h hf
    by_cases hd : isDiskCopyFloppy file
    · exact (agrees_container hread hd).2 (h hd)
    · exact agrees_raw hread hf hd

/-- A container without tags, full of zeros. -/
def blankImage : ImageFile where
  suffix := "image"
  bytes := blankFile

theorem isDiskCopyFloppy_blankImage : isDiskCopyFloppy blankImage := by
  refine isDiskCopyFloppy_iff.2 ⟨?_, Or.inl blankFile_dataSize, ?_⟩
  · rw [show blankImage.bytes = blankFile from rfl, length_blankFile]
    decide
  · rw [show blankImage.bytes = blankFile from rfl, length_blankFile, blankFile_dataSize,
      blankFile_tagSize]
    rfl

theorem load_agrees_blankImage : blankDrive.host.readAll "disk" = some blankImage.bytes ∧
    Agrees blankImage (blankDrive.load "disk" false) := by
  have hread : blankDrive.host.readAll "disk" = some blankImage.bytes := rfl
  have hmdb : mid (mid blankFile headerBytes raw400KBytes) 940 32 = List.replicate 32 0 := by
    rw [mid_mid (by decide), blankFile, mid_append_right (by rw [length_blankHeader]; decide),
      length_blankHeader, mid, List.drop_replicate, List.take_replicate]
    rfl
  have hplain : Plain blankFile := by
    refine ⟨Or.inl blankFile_tagSize, Or.inr ?_⟩
    rw [blankFile_dataSize, HidesVolume, hmdb]
    exact fun h => absurd h.1 (by decide)
  exact ⟨hread, (load_agrees_iff blankImage blankDrive "disk" false hread).2 (fun _ => hplain)
    (Or.inl isDiskCopyFloppy_blankImage)⟩

/-- The header of a 400K container with one byte of tags. -/
def oneTagHeader : List UInt8 :=
  List.replicate 64 0 ++ be32Bytes 409600 ++ be32Bytes 1 ++ List.replicate 12 0

def oneTagImage : ImageFile where
  suffix := "image"
  bytes := oneTagHeader ++ List.replicate 409601 0

def oneTagDrive : FloppyDiskImage where
  host :=
    { files := fun _ => some oneTagImage.bytes, isWritable := fun _ => true, saveOk := fun _ => true }

/-- The library takes it for a floppy, and the drive does not. -/
theorem oneTagImage_refused : IsFloppy oneTagImage ∧
    oneTagDrive.host.readAll "disk" = some oneTagImage.bytes ∧
    ¬ Agrees oneTagImage (oneTagDrive.load "disk") := by
  have hhead : oneTagHeader.length = 84 := rfl
  have hdata : (readBe32 oneTagImage.bytes 64).toNat = raw400KBytes := by
    rw [oneTagImage, readBe32_append (by decide)]
    decide
  have htag : (readBe32 oneTagImage.bytes 68).toNat = 1 := by
    rw [oneTagImage, readBe32_append (by decide)]
    decide
  have hlen : oneTagImage.bytes.length = 409685 := by
    rw [oneTagImage, List.length_append, List.length_replicate, hhead]
  have hd : isDiskCopyFloppy oneTagImage := by
    refine isDiskCopyFloppy_iff.2 ⟨?_, Or.inl hdata, ?_⟩
    · rw [hlen]
      decide
    · rw [hlen, hdata, htag]
      rfl
  refine ⟨Or.inl hd, rfl, fun h => ?_⟩
  have htags := ((agrees_container rfl hd).1 h).tags
  rw [htag, hdata] at htags
  exact absurd htags (by decide)

end CuteMac.Storage
