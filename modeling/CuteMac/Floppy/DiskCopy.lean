/-
  Disk Copy 4.2 containers.

  A container is read back from the bytes that were saved, unless its data has
  the header of a raw volume at a fixed offset.

  * `SectorWrite`, `commitAt`: a sector is written somewhere on the disk;
  * `HidesVolume`: the data that makes the container look like a raw volume;
  * `Survives`: the file is read back as what was saved;
  * `survives_iff`: when it is, for every run of sector writes.
-/
import CuteMac.Floppy.Invariant

namespace CuteMac.Floppy

open Slice

namespace FloppyDiskImage

/-! ## Sector writes -/

/-- A sector written with the head on some track and side. -/
structure SectorWrite where
  track : Int
  side : Int
  sector : Int
  data : List UInt8
  tags : List UInt8

def commitAt (d : FloppyDiskImage) (w : SectorWrite) : FloppyDiskImage :=
  (((d.setCurrentTrack w.track).setCurrentSide w.side).commitSector w.sector w.data w.tags).1

theorem wf_commitSector {d : FloppyDiskImage} (hd : d.Wf) (k : Int) (data tags : List UInt8) :
    (d.commitSector k data tags).1.Wf := by
  have hs := sameDisk_commitSector d k data tags
  have hm : (d.commitSector k data tags).1.writeMarks = d.writeMarks := by
    have h := congrArg Prod.fst (commitSector_buffered d d.writeBytes d.writeMarks k data tags)
    rw [buffered_self] at h
    rw [h]
    rfl
  refine hd.of_sameDisk hs ?_ ?_ fun h => ?_
  · rw [hs.highDensity, writeBytes_commitSector]
    exact hd.settled
  · rw [hm, writeBytes_commitSector]
    exact hd.marks
  · rcases trackCache_commitSector d k data tags with hc | hc
    · exact (hd.cache (hc ▸ h)).of_sameDisk hs hc
    · rw [hc] at h
      exact absurd rfl h

theorem kind_flushWrites {d : FloppyDiskImage} (hd : d.Wf) : d.flushWrites.1.kind = d.kind := by
  rw [flushWrites_fst hd]

theorem setCurrentTrack_self {d : FloppyDiskImage} {track : Int}
    (h : d.currentTrack = clampTrack track) : d.setCurrentTrack track = d :=
  if_neg (not_not.2 h)

theorem setCurrentSide_self {d : FloppyDiskImage} {side : Int}
    (h : d.currentSide = clampSide d.doubleSided side) : d.setCurrentSide side = d :=
  if_neg (not_not.2 h)

/-- A sector written where the head already is. -/
theorem commitAt_here {d : FloppyDiskImage} {w : SectorWrite}
    (ht : d.currentTrack = clampTrack w.track)
    (hs : d.currentSide = clampSide d.doubleSided w.side) :
    d.commitAt w = (d.commitSector w.sector w.data w.tags).1 := by
  rw [commitAt, setCurrentTrack_self ht, setCurrentSide_self hs]

/-- A container stays one. -/
theorem commitAt_inv {d : FloppyDiskImage} (hd : d.Wf ∧ d.kind = .diskCopy42) (w : SectorWrite) :
    (d.commitAt w).Wf ∧ (d.commitAt w).kind = .diskCopy42 := by
  obtain ⟨hwf, hk⟩ := hd
  have ht := wf_setCurrentTrack hwf w.track
  have hs := wf_setCurrentSide ht w.side
  have hkt : (d.setCurrentTrack w.track).kind = .diskCopy42 := by
    unfold setCurrentTrack
    split
    · exact (kind_flushWrites hwf).trans hk
    · exact hk
  have hks : ((d.setCurrentTrack w.track).setCurrentSide w.side).kind = .diskCopy42 := by
    unfold setCurrentSide
    split
    · exact (kind_flushWrites ht).trans hkt
    · exact hkt
  exact ⟨wf_commitSector hs .., (sameDisk_commitSector ..).kind.trans hks⟩

/-! ## The saved file -/

/-- The file of a container, and where its parts are. -/
structure Container (d : FloppyDiskImage) (file : List UInt8) : Prop where
  length : file.length = headerBytes + d.data.length + d.tags.length * tagBytesPerSector
  dataSize : (readBe32 file 64).toNat = d.data.length
  tagSize : (readBe32 file 68).toNat = d.tags.length * tagBytesPerSector
  data : mid file headerBytes d.data.length = d.data
  tagBytes : mid file (headerBytes + d.data.length) (d.tags.length * tagBytesPerSector) =
    d.tags.flatten
  dataChecksum : readBe32 file 72 = diskCopyChecksum d.data
  tagChecksum : readBe32 file 76 = diskCopyChecksum (d.tags.flatten.drop tagBytesPerSector)

theorem container_imageBytes {d : FloppyDiskImage} (hd : d.Wf) (hk : d.kind = .diskCopy42) :
    ∃ file, d.imageBytes = some file ∧ Container d file := by
  obtain ⟨hlen, hds, hts⟩ := hd.header hk
  have hflat := length_flatten_blocks hd.tag
  have hhead : headerBytes = 84 := rfl
  let output := d.diskCopyHeader ++ d.data ++ d.tags.flatten
  have hout : output.length = headerBytes + d.data.length + d.tags.length * tagBytesPerSector := by
    simp only [output, List.length_append, hlen, hflat]
  let c1 := diskCopyChecksum d.data
  let c2 := diskCopyChecksum (d.tags.flatten.drop tagBytesPerSector)
  have hread (o : Nat) (ho : o + 4 ≤ 72) :
      readBe32 (writeBe32 (writeBe32 output 72 c1) 76 c2) o = readBe32 d.diskCopyHeader o := by
    rw [readBe32_writeBe32_ne c2 (Or.inl (by omega)), readBe32_writeBe32_ne c1 (Or.inl (by omega)),
      readBe32_append (by rw [List.length_append]; omega), readBe32_append (by omega)]
  have hmid (i n : Nat) (hi : headerBytes ≤ i) :
      mid (writeBe32 (writeBe32 output 72 c1) 76 c2) i n = mid output i n := by
    rw [mid_writeBe32 c2 (Or.inr (by omega)), mid_writeBe32 c1 (Or.inr (by omega))]
  refine ⟨writeBe32 (writeBe32 output 72 c1) 76 c2, ?_, ?_⟩
  · unfold imageBytes
    rw [if_pos hk, if_neg (not_not.2 hlen)]
  · refine ⟨?_, ?_, ?_, ?_, ?_, ?_, ?_⟩
    · rw [length_writeBe32, length_writeBe32, hout]
    · rw [hread 64 (by decide), hds]
    · rw [hread 68 (by decide), hts]
    · rw [hmid _ _ (Nat.le_refl _), mid_append_left (by rw [List.length_append]; omega),
        mid_append_right (by omega), hlen, Nat.sub_self, mid_self]
    · rw [hmid _ _ (by omega), mid_append_right (by rw [List.length_append]; omega),
        List.length_append, hlen, Nat.sub_self, ← hflat, mid_self]
    · rw [readBe32_writeBe32_ne c2 (Or.inl (by decide)), readBe32_writeBe32 (by omega)]
    · rw [readBe32_writeBe32 (by rw [length_writeBe32]; omega)]

/-- A save that succeeds leaves the image's file. -/
theorem readAll_persistImage {d : FloppyDiskImage} (h : d.persistImage.2 = true) :
    d.persistImage.1.host.readAll d.path = d.imageBytes := by
  unfold persistImage at h ⊢
  split at h
  · cases h
  · rename_i hw
    rw [if_neg hw]
    cases hi : d.imageBytes with
    | none => simp [hi] at h
    | some output =>
      simp only [hi, Host.save] at h ⊢
      split at h
      · rename_i hok
        rw [if_pos hok]
        simp only [Host.readAll, if_true]
        exact if_neg fun hp => hw (Or.inr hp)
      · cases h

/-! ## Reading it back -/

/-- The data has what a raw volume of that file size has in its volume header. -/
def HidesVolume (data : List UInt8) (size : Nat) : Prop :=
  let mdb := mid data 940 32
  mdbWord mdb 0 = 0x4244 ∧ mdbWord mdb 18 ≠ 0 ∧ mdbWord mdb 20 * 65536 + mdbWord mdb 22 ≠ 0 ∧
    size < volumeBytes mdb ∧ volumeBytes mdb ≤ targetBytes size + hfsGeometrySlackBytes

instance (data : List UInt8) (size : Nat) : Decidable (HidesVolume data size) :=
  inferInstanceAs (Decidable (_ ∧ _ ∧ _ ∧ _ ∧ _))

/-- The size of a container's file. -/
def containerBytes (d : FloppyDiskImage) : Nat :=
  headerBytes + d.data.length + d.tags.length * tagBytesPerSector

/-- What was read back is the container that was saved. -/
structure Survives (d : FloppyDiskImage) (file : List UInt8) (r : FloppyDiskImage × Bool) :
    Prop where
  loaded : r.2 = true
  kind : r.1.kind = .diskCopy42
  data : r.1.data = d.data
  tags : r.1.tags = d.tags
  dataChecksum : readBe32 file 72 = diskCopyChecksum d.data
  tagChecksum : readBe32 file 76 = diskCopyChecksum (d.tags.flatten.drop tagBytesPerSector)

section
variable {d : FloppyDiskImage} {file : List UInt8}

theorem containerBytes_lt (hd : d.Wf) (hk : d.kind = .diskCopy42) :
    (d.data.length = raw400KBytes ∧ raw400KBytes < d.containerBytes ∧
        d.containerBytes < raw800KBytes) ∨
      (d.data.length = raw800KBytes ∧ raw800KBytes < d.containerBytes ∧
        d.containerBytes < raw1440KBytes) ∨
      (d.data.length = raw1440KBytes ∧ raw1440KBytes < d.containerBytes) := by
  have hi : d.inserted = true := by simp [inserted, hk]
  have ht : d.tags.length ≤ d.data.length / bytesPerSector := by
    rcases hd.tags with h | h
    · simp [h]
    · omega
  simp only [containerBytes, headerBytes, tagBytesPerSector, bytesPerSector, raw400KBytes,
    raw800KBytes, raw1440KBytes] at *
  rcases hd.size hi with h | h | h <;> simp only [raw400KBytes, raw800KBytes, raw1440KBytes] at h <;>
    omega

/-- The probe for a raw volume looks into the data of the container. -/
theorem truncatedRawHfsKind_container (hd : d.Wf) (hk : d.kind = .diskCopy42)
    (hc : Container d file) : truncatedRawHfsKind file = .empty ↔
      (d.data.length = raw1440KBytes ∨ ¬ HidesVolume d.data d.containerBytes) := by
  have hl : file.length = d.containerBytes := hc.length
  have hsize := containerBytes_lt hd hk
  by_cases hn : d.data.length = raw1440KBytes
  · have hbig : raw1440KBytes ≤ d.containerBytes := by
      rcases hsize with h | h | h
      · exact absurd (h.1.symm.trans hn) (by decide)
      · exact absurd (h.1.symm.trans hn) (by decide)
      · exact h.2.le
    simp only [truncatedRawHfsKind, hl]
    rw [if_pos (Or.inr (Or.inl hbig))]
    simp [hn]
  have hmdb : mid file 1024 32 = mid d.data 940 32 := by
    have h972 : 940 + 32 ≤ d.data.length := by
      simp only [raw400KBytes, raw800KBytes, raw1440KBytes] at hsize
      omega
    rw [← hc.data, mid_mid h972]
    rfl
  have hprobe : ¬ (d.containerBytes ≤ raw400KBytes ∨ raw1440KBytes ≤ d.containerBytes ∨
      d.containerBytes < 1056) := by
    simp only [raw400KBytes, raw800KBytes, raw1440KBytes] at hsize hn ⊢
    omega
  simp only [truncatedRawHfsKind, hl, hmdb]
  rw [if_neg hprobe]
  unfold HidesVolume
  split
  · simp only [true_iff]
    omega
  · have hv : ¬ (d.data.length = raw1440KBytes) := hn
    split
    · simp only [reduceCtorEq, false_iff]
      omega
    · simp only [reduceCtorEq, false_iff]
      omega

theorem diskCopyFile_container (hd : d.Wf) (hk : d.kind = .diskCopy42) (hc : Container d file) :
    DiskCopyFile file := by
  have hi : d.inserted = true := by simp [inserted, hk]
  refine ⟨?_, ?_, ?_⟩
  · rw [hc.dataSize]
    exact hd.size hi
  · rw [hc.tagSize, hc.dataSize]
    rcases hd.tags with h | h
    · exact Or.inl (by rw [h]; rfl)
    · exact Or.inr (by rw [h])
  · rw [hc.dataSize, hc.tagSize, hc.length]

theorem diskCopyTags_container (hd : d.Wf) (hc : Container d file) : diskCopyTags file = d.tags := by
  unfold diskCopyTags
  rw [hc.dataSize, hc.tagSize, hc.tagBytes, Nat.mul_div_cancel _ (by decide)]
  exact block_flatten hd.tag

theorem load_of_not_raw {e : FloppyDiskImage} {path : String}
    (he : e.host.readAll path = some file) (hraw : file.length ≠ raw400KBytes ∧
      file.length ≠ raw800KBytes ∧ file.length ≠ raw1440KBytes)
    (ht : truncatedRawHfsKind file = .empty) (h : DiskCopyFile file) (readOnly : Bool) :
    e.load path readOnly =
      ({ e with forceReadOnly := readOnly }.insert path .diskCopy42 (file.take headerBytes)
        (mid file headerBytes (readBe32 file 64).toNat) (diskCopyTags file)
        ((readBe32 file 64).toNat != raw400KBytes) ((readBe32 file 64).toNat == raw1440KBytes),
        true) := by
  have hh : headerBytes ≤ file.length := by
    have := h.length
    omega
  have he' : ({ e with forceReadOnly := readOnly } : FloppyDiskImage).host.readAll path = some file :=
    he
  simp only [load, he', ht]
  rw [if_neg hraw.1, if_neg hraw.2.1, if_neg hraw.2.2, if_neg (by decide), if_neg (by decide),
    if_pos hh, loadDiskCopy42_of h]

/-- The load of a container's file is one of a container exactly when no volume is seen in it. -/
theorem survives_load (hd : d.Wf) (hk : d.kind = .diskCopy42) (hc : Container d file)
    {e : FloppyDiskImage} {path : String} (he : e.host.readAll path = some file) (readOnly : Bool) :
    Survives d file (e.load path readOnly) ↔
      (d.data.length = raw1440KBytes ∨ ¬ HidesVolume d.data d.containerBytes) := by
  have hl : file.length = d.containerBytes := hc.length
  have hsize := containerBytes_lt hd hk
  have hraw : file.length ≠ raw400KBytes ∧ file.length ≠ raw800KBytes ∧
      file.length ≠ raw1440KBytes := by
    rw [hl]
    simp only [raw400KBytes, raw800KBytes, raw1440KBytes] at hsize ⊢
    omega
  rw [← truncatedRawHfsKind_container hd hk hc]
  constructor
  · intro hs
    by_contra ht
    -- a volume is seen, and the kind of the image is a raw one
    have he' : ({ e with forceReadOnly := readOnly } : FloppyDiskImage).host.readAll path =
      some file := he
    have hkind := hs.kind
    simp only [load, he'] at hkind
    rw [if_neg hraw.1, if_neg hraw.2.1, if_neg hraw.2.2] at hkind
    rcases truncatedRawHfsKind_cases file with h | h | h
    · exact ht h
    · simp only [h, if_true] at hkind
      cases hkind
    · simp only [h, reduceCtorEq, if_false, if_true] at hkind
      cases hkind
  · intro ht
    rw [load_of_not_raw he hraw ht (diskCopyFile_container hd hk hc)]
    refine ⟨rfl, rfl, ?_, ?_, hc.dataChecksum, hc.tagChecksum⟩
    · change mid file headerBytes (readBe32 file 64).toNat = d.data
      rw [hc.dataSize, hc.data]
    · exact diskCopyTags_container hd hc

end

/-! ## Main result -/

/-- Whatever sectors are written to a container, the file that is saved is read back as that
container, with its check sums, unless its data hides a volume. -/
theorem survives_iff {d₀ : FloppyDiskImage} {path : String} {readOnly : Bool}
    (hload : (d₀.load path readOnly).2 = true)
    (hkind : (d₀.load path readOnly).1.kind = .diskCopy42) (writes : List SectorWrite)
    {d : FloppyDiskImage} (hd : d = Machine.run commitAt (d₀.load path readOnly).1 writes)
    (hsave : d.persistImage.2 = true) {e : FloppyDiskImage} (he : e.host = d.persistImage.1.host)
    (readOnly' : Bool) :
    (∃ file, e.host.readAll d.path = some file ∧ Survives d file (e.load d.path readOnly')) ↔
      (d.data.length = raw1440KBytes ∨ ¬ HidesVolume d.data d.containerBytes) := by
  have hwf : (d₀.load path readOnly).1.Wf := by
    rcases load_cases d₀ path readOnly with h | h
    · rw [h] at hload
      cases hload
    · exact h.2
  obtain ⟨hd1, hd2⟩ : d.Wf ∧ d.kind = .diskCopy42 := by
    rw [hd]
    exact Machine.run_inv (I := fun d : FloppyDiskImage => d.Wf ∧ d.kind = .diskCopy42)
      (fun d w h => commitAt_inv h w) ⟨hwf, hkind⟩ writes
  obtain ⟨file, hfile, hc⟩ := container_imageBytes hd1 hd2
  have hread : e.host.readAll d.path = some file := by
    rw [he, readAll_persistImage hsave, hfile]
  constructor
  · rintro ⟨file', hfile', hs⟩
    obtain rfl : file' = file := Option.some.inj (hfile'.symm.trans hread)
    exact (survives_load hd1 hd2 hc hread readOnly').1 hs
  · intro h
    exact ⟨file, hread, (survives_load hd1 hd2 hc hread readOnly').2 h⟩

/-! ## A blank container -/

/-- The header of a 400K container without tags. -/
def blankHeader : List UInt8 :=
  List.replicate 64 0 ++ be32Bytes 409600 ++ be32Bytes 0 ++ List.replicate 12 0

theorem length_blankHeader : blankHeader.length = headerBytes := rfl

def blankFile : List UInt8 := blankHeader ++ List.replicate raw400KBytes 0

/-- A drive beside files that are all blank containers. -/
def blankDrive : FloppyDiskImage where
  host := { files := fun _ => some blankFile, isWritable := fun _ => true, saveOk := fun _ => true }

def blankDisk : FloppyDiskImage :=
  blankDrive.insert "disk" .diskCopy42 blankHeader (List.replicate raw400KBytes 0) [] false false

theorem blankFile_word {o : Nat} (h : o + 4 ≤ headerBytes) :
    readBe32 blankFile o = readBe32 blankHeader o := readBe32_append h

theorem blankFile_dataSize : (readBe32 blankFile 64).toNat = raw400KBytes := by
  rw [blankFile_word (by decide)]
  decide

theorem blankFile_tagSize : (readBe32 blankFile 68).toNat = 0 := by
  rw [blankFile_word (by decide)]
  decide

theorem length_blankFile : blankFile.length = 409684 := by
  rw [blankFile, List.length_append, List.length_replicate, length_blankHeader]
  rfl

theorem load_blank : blankDrive.load "disk" = (blankDisk, true) := by
  have hmdb : mid blankFile 1024 32 = List.replicate 32 0 := by
    rw [blankFile, mid_append_right (by rw [length_blankHeader]; decide), length_blankHeader, mid,
      List.drop_replicate, List.take_replicate]
    rfl
  have ht : truncatedRawHfsKind blankFile = .empty := by
    simp only [truncatedRawHfsKind, length_blankFile, hmdb]
    rw [if_neg (by decide), if_pos (Or.inl (by decide))]
  have hf : DiskCopyFile blankFile := by
    refine ⟨Or.inl blankFile_dataSize, Or.inl blankFile_tagSize, ?_⟩
    rw [blankFile_dataSize, blankFile_tagSize, length_blankFile]
    decide
  have hhead : blankFile.take headerBytes = blankHeader := List.take_left' rfl
  have hdata : mid blankFile headerBytes raw400KBytes = List.replicate raw400KBytes 0 := by
    rw [blankFile, mid_append_right length_blankHeader.le, length_blankHeader, Nat.sub_self, mid,
      List.drop_zero, List.take_replicate, Nat.min_self]
  have htags : diskCopyTags blankFile = [] := by
    rw [diskCopyTags, blankFile_tagSize]
    rfl
  have hread : blankDrive.host.readAll "disk" = some blankFile := rfl
  rw [load_of_not_raw hread (by rw [length_blankFile]; decide) ht hf,
    blankFile_dataSize, hhead, hdata, htags]
  rfl

theorem wf_blankDisk : blankDisk.Wf := by
  rcases load_cases blankDrive "disk" false with h | h
  · rw [load_blank] at h
    exact absurd (congrArg Prod.snd h) (by decide)
  · rw [load_blank] at h
    exact h.2

/-- The blank container keeps its check sums. -/
theorem survives_blank :
    ∃ file, blankDisk.persistImage.1.host.readAll "disk" = some file ∧
      Survives blankDisk file (blankDisk.persistImage.1.load "disk") := by
  have hmdb : mid blankDisk.data 940 32 = List.replicate 32 0 := by
    change mid (List.replicate raw400KBytes 0) 940 32 = _
    rw [mid, List.drop_replicate, List.take_replicate]
    rfl
  have hload : (blankDrive.load "disk").2 = true := by rw [load_blank]
  have hkind : (blankDrive.load "disk").1.kind = .diskCopy42 := by
    rw [load_blank]
    rfl
  have hrun : blankDisk = Machine.run commitAt (blankDrive.load "disk").1 [] := by
    rw [load_blank]
    rfl
  refine (survives_iff hload hkind [] hrun ?_ rfl false).2 (Or.inr ?_)
  · exact persistImage_ok wf_blankDisk (SameDisk.refl _) rfl rfl fun _ => rfl
  · rw [HidesVolume, hmdb]
    exact fun h => absurd h.1 (by decide)

/-- A boot block with the words of a volume header: 1594 blocks of 512 bytes. -/
def volumeBlock : List UInt8 :=
  List.replicate 428 0 ++ [0x42, 0x44] ++ List.replicate 16 0 ++ [0x06, 0x3a, 0x00, 0x00, 0x02, 0x00] ++
    List.replicate 60 0

theorem length_volumeBlock : volumeBlock.length = bytesPerSector := by
  simp only [volumeBlock, List.length_append, List.length_replicate]
  rfl

def volumeWrite : SectorWrite where
  track := 0
  side := 0
  sector := 1
  data := volumeBlock
  tags := []

/-- The image after the boot block was written. -/
theorem commitAt_volumeWrite : (blankDisk.commitAt volumeWrite).Wf ∧
    (blankDisk.commitAt volumeWrite).kind = .diskCopy42 ∧
    (blankDisk.commitAt volumeWrite).path = "disk" ∧
    (blankDisk.commitAt volumeWrite).data.length = raw400KBytes ∧
    (blankDisk.commitAt volumeWrite).persistImage.2 = true ∧
    HidesVolume (blankDisk.commitAt volumeWrite).data
      (blankDisk.commitAt volumeWrite).containerBytes := by
  have hlen : blankDisk.data.length = raw400KBytes := List.length_replicate ..
  have hlt : 1 < blankDisk.data.length / bytesPerSector := by
    rw [hlen]
    decide
  have hc := commitAt_here (d := blankDisk) (w := volumeWrite) rfl rfl
  have hblk : blankDisk.sectorBlock volumeWrite.sector = (1 : Nat) := by decide
  have hvol : volumeWrite.data.length = bytesPerSector := length_volumeBlock
  have hdata := data_commitSector hvol hblk hlt volumeWrite.tags
  rw [← hc] at hdata
  obtain ⟨hwf, hk⟩ := commitAt_inv ⟨wf_blankDisk, rfl⟩ volumeWrite
  have hsame := sameDisk_commitSector blankDisk volumeWrite.sector volumeWrite.data volumeWrite.tags
  rw [← hc] at hsame
  refine ⟨hwf, hk, hsame.path, hsame.dataLength.trans hlen, ?_, ?_⟩
  · refine persistImage_ok hwf (SameDisk.refl _) (by simp [inserted, hk]) hsame.writable fun n => ?_
    rw [hsame.saveOk]
    rfl
  · have hsize : (blankDisk.commitAt volumeWrite).containerBytes = 409684 := by
      rw [containerBytes, hsame.dataLength, hsame.tagsLength, hlen]
      rfl
    have hmdb : mid (blankDisk.commitAt volumeWrite).data 940 32 = mid volumeBlock 428 32 := by
      have hb := block_putBlock (hasBlock_of_lt hlt) hvol
      have hm := congrArg (fun l => mid l 428 32) hb
      simp only [block] at hm
      rw [mid_mid (by decide)] at hm
      rw [hdata]
      exact hm
    rw [hsize, HidesVolume, hmdb]
    decide +kernel

/-- One boot block written to the blank container, and the file that is saved is another disk. -/
theorem volumeWrite_not_survives :
    (blankDrive.load "disk").2 = true ∧ (blankDrive.load "disk").1.kind = .diskCopy42 ∧
      (Machine.run commitAt (blankDrive.load "disk").1 [volumeWrite]).persistImage.2 = true ∧
      ∃ file, (Machine.run commitAt (blankDrive.load "disk").1 [volumeWrite]).persistImage.1.host.readAll
          "disk" = some file ∧
        ¬ Survives (Machine.run commitAt (blankDrive.load "disk").1 [volumeWrite]) file
          ((Machine.run commitAt (blankDrive.load "disk").1 [volumeWrite]).persistImage.1.load "disk") := by
  obtain ⟨hwf, hk, hpath, hlen, hsave, hhides⟩ := commitAt_volumeWrite
  obtain ⟨file, hfile, hc⟩ := container_imageBytes hwf hk
  have hread := readAll_persistImage hsave
  rw [hpath, hfile] at hread
  have hrun : Machine.run commitAt (blankDrive.load "disk").1 [volumeWrite] =
      blankDisk.commitAt volumeWrite := by
    rw [load_blank, Machine.run_cons, Machine.run_nil]
  rw [hrun, load_blank]
  refine ⟨rfl, rfl, hsave, file, hread, fun hs => ?_⟩
  rcases (survives_load hwf hk hc hread false).1 hs with h | h
  · exact absurd (hlen.symm.trans h) (by decide)
  · exact h hhides

end FloppyDiskImage

end CuteMac.Floppy
