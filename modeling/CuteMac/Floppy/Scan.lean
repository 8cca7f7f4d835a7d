/-
  Writing as a scanner.

  * `gcrFormat`, `mfmFormat`: the records the two loops look for;
  * `processWrites_fst`: the loops act on the records of the write buffer, in
    order;
  * `commitSector_eq`, `SameDisk`: what a write changes, and what it does not;
  * `session`: the scanner that a drive is while bytes are written;
  * `abs_writeDiskBytes`: the drive refines it.
-/
import CuteMac.Floppy.Drive
import CuteMac.Lib.Framing

namespace CuteMac.Floppy

open Slice Framing FloppyDiskImage

/-! ## Formats -/

def gcrVerdict (b : List UInt8) : Verdict :=
  if b.length < gcrRecordBytes then .wait
  else if mid b 707 3 = gcrTrailer then .take gcrRecordBytes
  else .slip

def mfmVerdict (b : List UInt8) : Verdict :=
  if b.length < 4 then .wait
  else if b.getD 3 0 = 0xfe then if b.length < addressBytes then .wait else .take addressBytes
  else if b.getD 3 0 = 0xfb ∨ b.getD 3 0 = 0xf8 then
    if b.length < dataRecordBytes then .wait else .take dataRecordBytes
  else .slip

theorem gcrVerdict_take {b : List UInt8} {n : Nat} (h : gcrVerdict b = .take n) :
    n = gcrRecordBytes ∧ n ≤ b.length := by
  unfold gcrVerdict at h
  split at h
  · cases h
  · split at h
    · cases h
      exact ⟨rfl, by omega⟩
    · cases h

theorem gcrVerdict_wait {b : List UInt8} : gcrVerdict b = .wait ↔ b.length < gcrRecordBytes := by
  unfold gcrVerdict
  split
  · simp [*]
  · split <;> simp [*]

theorem gcrVerdict_append {b : List UInt8} (c : List UInt8) (h : gcrVerdict b ≠ .wait) :
    gcrVerdict (b ++ c) = gcrVerdict b := by
  have hl : ¬ b.length < gcrRecordBytes := fun hl => h (gcrVerdict_wait.2 hl)
  have hm : mid (b ++ c) 707 3 = mid b 707 3 :=
    mid_append_left (by simp only [gcrRecordBytes] at hl; omega)
  unfold gcrVerdict
  rw [if_neg hl, if_neg (by rw [List.length_append]; omega), hm]

def gcrFormat : Format UInt8 where
  sync := gcrSync
  verdict := gcrVerdict
  sync_ne := by decide
  take_pos := fun b n h => by rw [(gcrVerdict_take h).1]; decide
  take_le := fun b n h => (gcrVerdict_take h).2
  stable := fun b c h => gcrVerdict_append c h

theorem mfmVerdict_take {b : List UInt8} {n : Nat} (h : mfmVerdict b = .take n) :
    (n = addressBytes ∨ n = dataRecordBytes) ∧ n ≤ b.length := by
  unfold mfmVerdict at h
  split_ifs at h with h1 h2 h3 h4 h5
  · cases h
    exact ⟨Or.inl rfl, by omega⟩
  · cases h
    exact ⟨Or.inr rfl, by omega⟩

theorem mfmVerdict_append {b : List UInt8} (c : List UInt8) (h : mfmVerdict b ≠ .wait) :
    mfmVerdict (b ++ c) = mfmVerdict b := by
  have hl : ¬ b.length < 4 := fun hl => h (if_pos hl)
  have hg : (b ++ c).getD 3 0 = b.getD 3 0 := getD_append_left c 0 (by omega)
  unfold mfmVerdict at h ⊢
  rw [List.length_append, hg]
  split_ifs at h ⊢ <;> first | rfl | omega | exact absurd rfl h

/-- From the length of a data field on, the verdict is there. -/
theorem mfmVerdict_ne_wait {b : List UInt8} (h : dataRecordBytes ≤ b.length) :
    mfmVerdict b ≠ .wait := by
  have h4 : ¬ b.length < 4 := fun hl => absurd (hl.trans_le' h) (by decide)
  have ha : ¬ b.length < addressBytes := fun hl => absurd (hl.trans_le' h) (by decide)
  have hd : ¬ b.length < dataRecordBytes := Nat.not_lt.2 h
  unfold mfmVerdict
  rw [if_neg h4, if_neg ha, if_neg hd]
  split_ifs <;> simp

def mfmFormat : Format UInt8 where
  sync := mfmSync
  verdict := mfmVerdict
  sync_ne := by decide
  take_pos := fun b n h => by rcases (mfmVerdict_take h).1 with rfl | rfl <;> decide
  take_le := fun b n h => (mfmVerdict_take h).2
  stable := fun b c h => mfmVerdict_append c h

/-- The records of a disk. -/
def format (highDensity : Bool) : Format UInt8 := if highDensity then mfmFormat else gcrFormat

/-- What is kept in the write buffer fits the write window. -/
theorem cut_rest_le (highDensity : Bool) (b : List UInt8) :
    (cut (format highDensity) b).2.length < gcrRecordBytes := by
  cases highDensity with
  | false =>
    refine cut_rest_lt (F := gcrFormat) (by decide) (fun b hb h => ?_) b
    exact absurd (gcrVerdict_wait.1 h) (by omega)
  | true =>
    refine (cut_rest_lt (F := mfmFormat) (N := dataRecordBytes) (by decide)
      (fun b hb => mfmVerdict_ne_wait hb) b).trans (by decide)

namespace FloppyDiskImage

/-! ## The loops -/

/-- The image with other write buffers. -/
def buffered (d : FloppyDiskImage) (bytes : List UInt8) (marks : List Bool) : FloppyDiskImage :=
  { d with writeBytes := bytes, writeMarks := marks }

section
variable (d : FloppyDiskImage) (bytes : List UInt8) (marks : List Bool)

theorem persistImage_buffered : (d.buffered bytes marks).persistImage =
    (d.persistImage.1.buffered bytes marks, d.persistImage.2) := by
  have hi : (d.buffered bytes marks).imageBytes = d.imageBytes := rfl
  have hw : (d.buffered bytes marks).writable = d.writable := rfl
  have hp : (d.buffered bytes marks).path = d.path := rfl
  simp only [persistImage, hi, hw, hp]
  split
  · rfl
  · split <;> rfl

theorem commitSector_buffered (k : Int) (data tags : List UInt8) :
    (d.buffered bytes marks).commitSector k data tags =
      ((d.commitSector k data tags).1.buffered bytes marks, (d.commitSector k data tags).2) := by
  have hp (blk : Nat) : (d.buffered bytes marks).putSector blk data tags =
    (d.putSector blk data tags).buffered bytes marks := rfl
  have hb : (d.buffered bytes marks).sectorBlock k = d.sectorBlock k := rfl
  have hd : (d.buffered bytes marks).data = d.data := rfl
  simp only [commitSector, hp, hb, hd, persistImage_buffered]
  split
  · rfl
  · split
    · rfl
    · split <;> rfl

theorem gcrRecord_buffered (r : List UInt8) : (d.buffered bytes marks).gcrRecord r =
    ((d.gcrRecord r).1.buffered bytes marks, (d.gcrRecord r).2) := by
  have ht : (d.buffered bytes marks).currentTrack = d.currentTrack := rfl
  simp only [gcrRecord, commitSector_buffered, ht]
  split
  · split <;> rfl
  · rfl

theorem mfmIdField_buffered (r : List UInt8) :
    (d.buffered bytes marks).mfmIdField r = (d.mfmIdField r).buffered bytes marks := by
  have ht : (d.buffered bytes marks).currentTrack = d.currentTrack := rfl
  have hs : (d.buffered bytes marks).currentSide = d.currentSide := rfl
  have he : (d.buffered bytes marks).traceEnabled = d.traceEnabled := rfl
  simp only [mfmIdField, ht, hs, he]
  split
  · rfl
  · split <;> rfl

theorem mfmDataField_buffered (r : List UInt8) : (d.buffered bytes marks).mfmDataField r =
    ((d.mfmDataField r).1.buffered bytes marks, (d.mfmDataField r).2) := by
  have hs : (d.buffered bytes marks).writeMfmSector = d.writeMfmSector := rfl
  have ht : (d.buffered bytes marks).traceEnabled = d.traceEnabled := rfl
  simp only [mfmDataField, commitSector_buffered, hs, ht]
  split
  · rfl
  · split <;> rfl

/-- What a record of a disk does. -/
def act : Bool → List UInt8 → FloppyDiskImage → FloppyDiskImage
  | true, r, d => if r.getD 3 0 = 0xfe then d.mfmIdField r else (d.mfmDataField r).1
  | false, r, d => (d.gcrRecord r).1

theorem act_buffered (highDensity : Bool) (r : List UInt8) :
    act highDensity r (d.buffered bytes marks) = (act highDensity r d).buffered bytes marks := by
  cases highDensity with
  | false => rw [act, gcrRecord_buffered]; rfl
  | true =>
    simp only [act]
    split
    · exact mfmIdField_buffered ..
    · rw [mfmDataField_buffered]

/-- The records of a list act, in order. -/
def acts (highDensity : Bool) (d : FloppyDiskImage) (rs : List (List UInt8)) : FloppyDiskImage :=
  rs.foldl (fun d r => act highDensity r d) d

theorem acts_buffered (highDensity : Bool) (rs : List (List UInt8)) :
    acts highDensity (d.buffered bytes marks) rs = (acts highDensity d rs).buffered bytes marks := by
  induction rs generalizing d with
  | nil => rfl
  | cons r rs ih =>
    rw [acts, List.foldl_cons, act_buffered]
    exact ih _

end

@[simp] theorem buffered_self (d : FloppyDiskImage) : d.buffered d.writeBytes d.writeMarks = d := rfl

@[simp] theorem writeBytes_buffered (d : FloppyDiskImage) (bytes : List UInt8) (marks : List Bool) :
    (d.buffered bytes marks).writeBytes = bytes := rfl

@[simp] theorem writeMarks_buffered (d : FloppyDiskImage) (bytes : List UInt8) (marks : List Bool) :
    (d.buffered bytes marks).writeMarks = marks := rfl

@[simp] theorem buffered_buffered (d : FloppyDiskImage) (bytes bytes' : List UInt8)
    (marks marks' : List Bool) :
    (d.buffered bytes marks).buffered bytes' marks' = d.buffered bytes' marks' := rfl

theorem removeWrites_eq (d : FloppyDiskImage) (n : Nat) :
    d.removeWrites n = d.buffered (d.writeBytes.drop n) (d.writeMarks.drop n) := rfl

/-- The marks that go with the rest of the write buffer. -/
def restMarks (d : FloppyDiskImage) (rest : List UInt8) : List Bool :=
  d.writeMarks.drop (d.writeBytes.length - rest.length)

theorem restMarks_drop (d : FloppyDiskImage) {i : Nat} (hi : i ≤ d.writeBytes.length) :
    d.restMarks (d.writeBytes.drop i) = d.writeMarks.drop i := by
  rw [restMarks, List.length_drop, Nat.sub_sub_self hi]

/-- The image after the records of the write buffer have acted, with what is kept of it. -/
def scanned (F : Format UInt8) (highDensity : Bool) (d : FloppyDiskImage) : FloppyDiskImage :=
  (acts highDensity d (cut F d.writeBytes).1).buffered (cut F d.writeBytes).2
    (d.restMarks (cut F d.writeBytes).2)

section
variable {F : Format UInt8} {highDensity : Bool} {d : FloppyDiskImage} {i n : Nat}

theorem scanned_none (hF : F.sync.length = 3) (h : indexOf F.sync d.writeBytes = none) :
    scanned F highDensity d =
      if 2 < d.writeBytes.length then d.removeWrites (d.writeBytes.length - 2) else d := by
  have hk : keep F d.writeBytes = d.writeBytes.drop (d.writeBytes.length - 2) := by rw [keep, hF]
  rw [scanned, cut_none h, hk, restMarks_drop d (Nat.sub_le ..)]
  split_ifs with h
  · rfl
  · rw [Nat.sub_eq_zero_of_le (by omega)]
    rfl

theorem scanned_wait (h : indexOf F.sync d.writeBytes = some i)
    (hv : F.verdict (d.writeBytes.drop i) = .wait) :
    scanned F highDensity d = d.removeWrites i := by
  rw [scanned, cut_wait h hv, restMarks_drop d (indexOf_lt F.sync_ne h).le]
  rfl

/-- Scanning what is left of the write buffer, after a record has acted. -/
theorem scanned_buffered (x : FloppyDiskImage) (hn : n ≤ d.writeBytes.length) :
    scanned F highDensity (x.buffered (d.writeBytes.drop n) (d.writeMarks.drop n)) =
      (acts highDensity x (cut F (d.writeBytes.drop n)).1).buffered (cut F (d.writeBytes.drop n)).2
        (d.restMarks (cut F (d.writeBytes.drop n)).2) := by
  have hl := (cut_rest_suffix (F := F) (d.writeBytes.drop n)).length_le
  rw [List.length_drop] at hl
  rw [scanned, acts_buffered, restMarks, restMarks, writeBytes_buffered, writeMarks_buffered,
    buffered_buffered, List.drop_drop, List.length_drop]
  congr 2
  omega

theorem scanned_slip (h : indexOf F.sync d.writeBytes = some i)
    (hv : F.verdict (d.writeBytes.drop i) = .slip) :
    scanned F highDensity d = scanned F highDensity ((d.removeWrites i).removeWrites 1) := by
  have hd : (d.removeWrites i).removeWrites 1 =
      d.buffered (d.writeBytes.drop (i + 1)) (d.writeMarks.drop (i + 1)) := by
    simp only [removeWrites_eq, buffered_buffered, writeBytes_buffered, writeMarks_buffered,
      List.drop_drop]
  rw [hd, scanned_buffered d (indexOf_lt F.sync_ne h), scanned, cut_slip h hv]

theorem scanned_take (h : indexOf F.sync d.writeBytes = some i)
    (hv : F.verdict (d.writeBytes.drop i) = .take n) :
    scanned F highDensity d = scanned F highDensity
      ((act highDensity ((d.removeWrites i).writeBytes.take n) (d.removeWrites i)).removeWrites n) := by
  have hle := F.take_le _ _ hv
  have hi := indexOf_lt F.sync_ne h
  rw [List.length_drop] at hle
  have hd : (act highDensity ((d.removeWrites i).writeBytes.take n) (d.removeWrites i)).removeWrites n =
      (act highDensity ((d.writeBytes.drop i).take n) d).buffered (d.writeBytes.drop (i + n))
        (d.writeMarks.drop (i + n)) := by
    simp only [removeWrites_eq, act_buffered, buffered_buffered, writeBytes_buffered,
      writeMarks_buffered, List.drop_drop]
  rw [hd, scanned_buffered _ (by omega), scanned, cut_take h hv, acts, List.foldl_cons]
  rfl

end

/-- The loop over GCR records. -/
theorem processGcrWrites_fst (d : FloppyDiskImage) (committed : Bool) :
    (d.processGcrWrites committed).1 = scanned gcrFormat false d := by
  fun_induction processGcrWrites d committed with
  | case1 d c h => exact (scanned_none rfl h).symm
  | case2 d c i h d' hl => exact (scanned_wait h (gcrVerdict_wait.2 hl)).symm
  | case3 d c i h d' hl ht ih =>
    have hv : gcrFormat.verdict (d.writeBytes.drop i) = .slip := (if_neg hl).trans (if_neg ht)
    exact ih.trans (scanned_slip h hv).symm
  | case4 d c i h d' hl ht r ih =>
    have hv : gcrFormat.verdict (d.writeBytes.drop i) = .take gcrRecordBytes :=
      (if_neg hl).trans (if_pos (not_not.1 ht))
    exact ih.trans (scanned_take h hv).symm

/-- The loop over MFM fields. -/
theorem processMfmWrites_fst (d : FloppyDiskImage) (committed : Bool) :
    (d.processMfmWrites committed).1 = scanned mfmFormat true d := by
  fun_induction processMfmWrites d committed with
  | case1 d c h => exact (scanned_none rfl h).symm
  | case2 d c i h d' hl => exact (scanned_wait h (if_pos hl)).symm
  | case3 d c i h d' hl ht hs =>
    have hv : mfmFormat.verdict (d.writeBytes.drop i) = .wait :=
      (if_neg hl).trans ((if_pos ht).trans (if_pos hs))
    exact (scanned_wait h hv).symm
  | case4 d c i h d' hl ht hs ih =>
    have hv : mfmFormat.verdict (d.writeBytes.drop i) = .take addressBytes :=
      (if_neg hl).trans ((if_pos ht).trans (if_neg hs))
    have ha : (d'.writeBytes.take addressBytes).getD 3 0 = 0xfe := by
      rw [getD_take (by decide), ht]
    rw [scanned_take h hv, act, if_pos ha]
    exact ih
  | case5 d c i h d' hl ht ht' hs =>
    have hv : mfmFormat.verdict (d.writeBytes.drop i) = .wait :=
      (if_neg hl).trans ((if_neg ht).trans ((if_pos ht').trans (if_pos hs)))
    exact (scanned_wait h hv).symm
  | case6 d c i h d' hl ht ht' hs r ih =>
    have hv : mfmFormat.verdict (d.writeBytes.drop i) = .take dataRecordBytes :=
      (if_neg hl).trans ((if_neg ht).trans ((if_pos ht').trans (if_neg hs)))
    have ha : ¬ (d'.writeBytes.take dataRecordBytes).getD 3 0 = 0xfe := by
      rw [getD_take (by decide)]
      exact ht
    rw [scanned_take h hv, act, if_neg ha]
    exact ih
  | case7 d c i h d' hl ht ht' ih =>
    have hv : mfmFormat.verdict (d.writeBytes.drop i) = .slip :=
      (if_neg hl).trans ((if_neg ht).trans (if_neg ht'))
    exact ih.trans (scanned_slip h hv).symm

theorem processWrites_fst (d : FloppyDiskImage) :
    d.processWrites.1 = scanned (format d.highDensity) d.highDensity d := by
  unfold processWrites format
  split
  · simp [*, processMfmWrites_fst]
  · simp [*, processGcrWrites_fst]

/-! ## Commits -/

theorem persistImage_eq (d : FloppyDiskImage) :
    d.persistImage = ({ d with host := d.persistImage.1.host }, d.persistImage.2) := by
  unfold persistImage
  split
  · rfl
  · split <;> rfl

theorem saveOk_save (host : Host) (path : String) (output : List UInt8) :
    (host.save path output).1.saveOk = host.saveOk := by
  unfold Host.save
  split <;> rfl

theorem saveOk_persistImage (d : FloppyDiskImage) :
    d.persistImage.1.host.saveOk = d.host.saveOk := by
  unfold persistImage
  split
  · rfl
  · split
    · rfl
    · exact saveOk_save ..

theorem commitSector_of_not {d : FloppyDiskImage} {k : Int} {data tags : List UInt8}
    (h : ¬ (data.length = bytesPerSector ∧ 0 ≤ d.sectorBlock k ∧
      d.sectorBlock k < (d.data.length / bytesPerSector : Nat))) :
    d.commitSector k data tags = (d, false) := by
  unfold commitSector
  split
  · rfl
  · exact if_pos (by omega)

/-- What a commit does to a sector that the disk has. -/
theorem commitSector_eq {d : FloppyDiskImage} {k : Int} {data : List UInt8} {blk : Nat}
    (hdata : data.length = bytesPerSector) (hblk : d.sectorBlock k = blk)
    (hlt : blk < d.data.length / bytesPerSector) (tags : List UInt8) :
    d.commitSector k data tags =
      let p := (d.putSector blk data tags).persistImage
      ({ d.putSector blk data tags with
        host := p.1.host
        commits := d.commits ++ [{ block := blk, data := data, tags := tags, saved := p.2 }]
        writeFailed := d.writeFailed || !p.2
        trackCache := if p.2 then {} else d.trackCache }, p.2) := by
  have hp := persistImage_eq (d.putSector blk data tags)
  have hr : ¬ ((blk : Int) < 0 ∨ (d.data.length / bytesPerSector : Nat) ≤ (blk : Int)) := by omega
  simp only [commitSector, hblk, Int.toNat_natCast]
  rw [if_neg (not_not.2 hdata), if_neg hr, hp]
  cases (d.putSector blk data tags).persistImage.2 with
  | false => simp [putSector]
  | true => simp [putSector, invalidateTrackCache]

theorem data_commitSector {d : FloppyDiskImage} {k : Int} {data : List UInt8} {blk : Nat}
    (hdata : data.length = bytesPerSector) (hblk : d.sectorBlock k = blk)
    (hlt : blk < d.data.length / bytesPerSector) (tags : List UInt8) :
    (d.commitSector k data tags).1.data = putBlock bytesPerSector d.data blk data := by
  rw [commitSector_eq hdata hblk hlt]
  rfl

/-- A block number of the disk. -/
theorem hasBlock_of_lt {d : FloppyDiskImage} {blk : Nat}
    (h : blk < d.data.length / bytesPerSector) : HasBlock bytesPerSector d.data blk :=
  (Nat.le_div_iff_mul_le (by decide)).1 h

/-- What no write to the disk changes. -/
structure SameDisk (d d' : FloppyDiskImage) : Prop where
  path : d'.path = d.path
  kind : d'.kind = d.kind
  diskCopyHeader : d'.diskCopyHeader = d.diskCopyHeader
  writable : d'.writable = d.writable
  doubleSided : d'.doubleSided = d.doubleSided
  highDensity : d'.highDensity = d.highDensity
  motorOn : d'.motorOn = d.motorOn
  currentTrack : d'.currentTrack = d.currentTrack
  currentSide : d'.currentSide = d.currentSide
  saveOk : d'.host.saveOk = d.host.saveOk
  dataLength : d'.data.length = d.data.length
  tagsLength : d'.tags.length = d.tags.length
  tagLength : (∀ t ∈ d.tags, t.length = tagBytesPerSector) → ∀ t ∈ d'.tags, t.length = tagBytesPerSector

/-- The members that may change without changing the disk. -/
theorem SameDisk.of {d d' : FloppyDiskImage} (h : d' = { d with
    trackCache := d'.trackCache
    writeBytes := d'.writeBytes
    writeMarks := d'.writeMarks
    writeMfmSector := d'.writeMfmSector
    writeFailed := d'.writeFailed
    traceShift := d'.traceShift
    traceEvents := d'.traceEvents
    lastNibbles := d'.lastNibbles }) : SameDisk d d' := by
  rw [h]
  exact ⟨rfl, rfl, rfl, rfl, rfl, rfl, rfl, rfl, rfl, rfl, rfl, rfl, id⟩

theorem SameDisk.refl (d : FloppyDiskImage) : SameDisk d d := SameDisk.of rfl

theorem SameDisk.trans {d d' d'' : FloppyDiskImage} (h : SameDisk d d') (h' : SameDisk d' d'') :
    SameDisk d d'' where
  path := h'.path.trans h.path
  kind := h'.kind.trans h.kind
  diskCopyHeader := h'.diskCopyHeader.trans h.diskCopyHeader
  writable := h'.writable.trans h.writable
  doubleSided := h'.doubleSided.trans h.doubleSided
  highDensity := h'.highDensity.trans h.highDensity
  motorOn := h'.motorOn.trans h.motorOn
  currentTrack := h'.currentTrack.trans h.currentTrack
  currentSide := h'.currentSide.trans h.currentSide
  saveOk := h'.saveOk.trans h.saveOk
  dataLength := h'.dataLength.trans h.dataLength
  tagsLength := h'.tagsLength.trans h.tagsLength
  tagLength := fun ht => h'.tagLength (h.tagLength ht)

theorem sameDisk_putSector {d : FloppyDiskImage} {blk : Nat} {data : List UInt8}
    (hdata : data.length = bytesPerSector) (hlt : blk < d.data.length / bytesPerSector)
    (tags : List UInt8) : SameDisk d (d.putSector blk data tags) := by
  refine ⟨rfl, rfl, rfl, rfl, rfl, rfl, rfl, rfl, rfl, rfl,
    length_putBlock (hasBlock_of_lt hlt) hdata, ?_, ?_⟩
  · simp only [putSector]
    split <;> simp
  · intro ht t hmem
    simp only [putSector] at hmem
    split at hmem
    · rename_i hc
      rcases List.mem_or_eq_of_mem_set hmem with hmem | rfl
      · exact ht t hmem
      · exact hc.2.2
    · exact ht t hmem

theorem sameDisk_commitSector (d : FloppyDiskImage) (k : Int) (data tags : List UInt8) :
    SameDisk d (d.commitSector k data tags).1 := by
  by_cases h : data.length = bytesPerSector ∧ 0 ≤ d.sectorBlock k ∧
      d.sectorBlock k < (d.data.length / bytesPerSector : Nat)
  · obtain ⟨hdata, h0, hlt⟩ := h
    obtain ⟨blk, hblk⟩ := Int.eq_ofNat_of_zero_le h0
    have hlt' : blk < d.data.length / bytesPerSector := by omega
    have hput := sameDisk_putSector hdata hlt' tags
    have hok := saveOk_persistImage (d.putSector blk data tags)
    rw [commitSector_eq hdata hblk hlt' tags]
    exact ⟨rfl, rfl, rfl, rfl, rfl, rfl, rfl, rfl, rfl, hok, hput.dataLength, hput.tagsLength,
      hput.tagLength⟩
  · rw [commitSector_of_not h]
    exact SameDisk.of rfl

theorem sameDisk_act (highDensity : Bool) (r : List UInt8) (d : FloppyDiskImage) :
    SameDisk d (act highDensity r d) := by
  cases highDensity with
  | false =>
    simp only [act, gcrRecord]
    split
    · split
      · exact sameDisk_commitSector ..
      · exact SameDisk.of rfl
    · exact SameDisk.of rfl
  | true =>
    simp only [act]
    split
    · simp only [mfmIdField]
      split
      · exact SameDisk.of rfl
      · split <;> exact SameDisk.of rfl
    · simp only [mfmDataField]
      split
      · exact sameDisk_commitSector ..
      · split <;> exact SameDisk.of rfl

theorem ensureTrackCache_eq (d : FloppyDiskImage) :
    d.ensureTrackCache = { d with trackCache := d.ensureTrackCache.trackCache } := by
  unfold ensureTrackCache
  split <;> rfl

theorem inferSector_eq (d : FloppyDiskImage) :
    d.inferSector = { d with writeMfmSector := d.inferSector.writeMfmSector } := by
  unfold inferSector
  split <;> rfl

/-- Taking a byte moves the head and may look up the sector. -/
theorem takeByte_eq (d : FloppyDiskImage) : d.takeByte = { d with
    trackCache := d.takeByte.trackCache
    writeMfmSector := d.ensureTrackCache.inferSector.writeMfmSector } := by
  have he : d.ensureTrackCache.inferSector = { d with
      trackCache := d.ensureTrackCache.inferSector.trackCache
      writeMfmSector := d.ensureTrackCache.inferSector.writeMfmSector } := by
    rw [inferSector_eq, ensureTrackCache_eq]
  simp only [takeByte]
  split
  · exact he
  · rw [he]
    rfl

theorem sameDisk_takeByte (d : FloppyDiskImage) : SameDisk d d.takeByte :=
  SameDisk.of (by rw [takeByte_eq])

theorem sameDisk_acts (highDensity : Bool) (rs : List (List UInt8)) (d : FloppyDiskImage) :
    SameDisk d (acts highDensity d rs) := by
  induction rs generalizing d with
  | nil => exact SameDisk.of rfl
  | cons r rs ih => exact (sameDisk_act highDensity r d).trans (ih _)

/-! ## Sessions -/

theorem ensureTrackCache_buffered (d : FloppyDiskImage) (bytes : List UInt8) (marks : List Bool) :
    (d.buffered bytes marks).ensureTrackCache = d.ensureTrackCache.buffered bytes marks := by
  have hc : (d.buffered bytes marks).trackCache = d.trackCache := rfl
  have ht : (d.buffered bytes marks).currentTrack = d.currentTrack := rfl
  have hs : (d.buffered bytes marks).currentSide = d.currentSide := rfl
  simp only [ensureTrackCache, hc, ht, hs]
  split <;> rfl

theorem takeByte_marks (d : FloppyDiskImage) (marks : List Bool) :
    (d.buffered d.writeBytes marks).takeByte = d.takeByte.buffered d.writeBytes marks := by
  have hi (x : FloppyDiskImage) (hx : x.writeBytes = d.writeBytes) :
      (x.buffered d.writeBytes marks).inferSector = x.inferSector.buffered d.writeBytes marks := by
    have hd : (x.buffered d.writeBytes marks).highDensity = x.highDensity := rfl
    have hs : (x.buffered d.writeBytes marks).writeMfmSector = x.writeMfmSector := rfl
    simp only [inferSector, hd, hs, hx, writeBytes_buffered]
    split <;> rfl
  have hw : d.ensureTrackCache.writeBytes = d.writeBytes := by rw [ensureTrackCache_eq]
  have hc (x : FloppyDiskImage) : (x.buffered d.writeBytes marks).trackCache = x.trackCache := rfl
  simp only [takeByte, ensureTrackCache_buffered, hi _ hw, hc]
  split <;> rfl

/-- The scanner that the drive is while bytes are written. -/
def session (highDensity : Bool) : Scanner UInt8 FloppyDiskImage where
  format := format highDensity
  pre := fun window d => (d.buffered window []).takeByte.buffered [] []
  act := act highDensity

/-- The write buffer, and the image without it. -/
def abs (d : FloppyDiskImage) : List UInt8 × FloppyDiskImage := (d.writeBytes, d.buffered [] [])

/-- Bytes can be written. -/
def Ready (d : FloppyDiskImage) : Prop :=
  d.writable = true ∧ d.inserted = true ∧ d.motorOn = true

instance (d : FloppyDiskImage) : Decidable d.Ready :=
  inferInstanceAs (Decidable (_ ∧ _ ∧ _))

theorem Ready.of_sameDisk {d d' : FloppyDiskImage} (hd : d.Ready) (h : SameDisk d d') : d'.Ready := by
  obtain ⟨hw, hi, hm⟩ := hd
  refine ⟨h.writable.trans hw, ?_, h.motorOn.trans hm⟩
  rw [inserted, h.kind]
  exact hi

/-- The image after a byte, when bytes can be written. -/
theorem writeDiskByte_fst {d : FloppyDiskImage} (hd : d.Ready) (value : UInt8) (mark : Bool) :
    (d.writeDiskByte value mark).1 = scanned (format d.highDensity) d.highDensity
      (d.takeByte.buffered (d.writeBytes ++ [value]) (d.writeMarks ++ [mark])) := by
  obtain ⟨hw, hi, hm⟩ := hd
  have hwb : d.takeByte.writeBytes = d.writeBytes := by rw [takeByte_eq]
  have hwm : d.takeByte.writeMarks = d.writeMarks := by rw [takeByte_eq]
  have hb : ({ d.takeByte with
      writeBytes := d.takeByte.writeBytes ++ [value]
      writeMarks := d.takeByte.writeMarks ++ [mark] } : FloppyDiskImage) =
      d.takeByte.buffered (d.writeBytes ++ [value]) (d.writeMarks ++ [mark]) := by
    rw [hwb, hwm]
    rfl
  have hp := processWrites_fst
    (d.takeByte.buffered (d.writeBytes ++ [value]) (d.writeMarks ++ [mark]))
  have hh : (d.takeByte.buffered (d.writeBytes ++ [value]) (d.writeMarks ++ [mark])).highDensity =
      d.highDensity := (sameDisk_takeByte d).highDensity
  rw [hh] at hp
  -- what is kept fits the write window, so nothing is dropped
  have hwin := cut_rest_le d.highDensity (d.writeBytes ++ [value])
  have hz : (cut (format d.highDensity) (d.writeBytes ++ [value])).2.length - maximumWriteWindow = 0 := by
    simp only [gcrRecordBytes, maximumWriteWindow] at hwin ⊢
    omega
  unfold writeDiskByte
  rw [if_neg (by simp [hw, hi, hm])]
  simp only [hb, hp]
  rw [removeWrites_eq]
  simp only [scanned, writeBytes_buffered, writeMarks_buffered, buffered_buffered, hz, List.drop_zero]

/-- Writing a byte is a step of the scanner. -/
theorem abs_writeDiskByte {d : FloppyDiskImage} (hd : d.Ready) (value : UInt8) (mark : Bool) :
    abs (d.writeDiskByte value mark).1 = (session d.highDensity).step (abs d) value := by
  rw [writeDiskByte_fst hd]
  simp only [abs, scanned, writeBytes_buffered, buffered_buffered, Scanner.step, session]
  have hp : ((d.buffered d.writeBytes []).takeByte.buffered [] []) = d.takeByte.buffered [] [] := by
    rw [takeByte_marks, buffered_buffered]
  rw [hp, acts_buffered]
  exact congrArg _ (acts_buffered ..).symm

theorem sameDisk_scanned (F : Format UInt8) (highDensity : Bool) (d : FloppyDiskImage) :
    SameDisk d (scanned F highDensity d) :=
  (sameDisk_acts highDensity _ d).trans (SameDisk.of rfl)

theorem sameDisk_writeDiskByte (d : FloppyDiskImage) (value : UInt8) (mark : Bool) :
    SameDisk d (d.writeDiskByte value mark).1 := by
  by_cases hd : d.Ready
  · rw [writeDiskByte_fst hd]
    exact (sameDisk_takeByte d).trans ((SameDisk.of rfl).trans (sameDisk_scanned ..))
  · have hn : (!d.writable || !d.inserted || !d.motorOn) = true := by
      simpa [Ready, or_assoc, imp_iff_not_or] using hd
    unfold writeDiskByte
    rw [if_pos hn]
    exact SameDisk.of rfl

/-- Bytes are written, one after the other. -/
def writeDiskBytes (d : FloppyDiskImage) (bytes : List DiskByte) : FloppyDiskImage :=
  Machine.run (fun d b => (d.writeDiskByte b.value b.mark).1) d bytes

theorem sameDisk_writeDiskBytes (d : FloppyDiskImage) (bytes : List DiskByte) :
    SameDisk d (d.writeDiskBytes bytes) :=
  Machine.run_inv (I := SameDisk d) (fun d' b h => h.trans (sameDisk_writeDiskByte d' b.value b.mark))
    (SameDisk.of rfl) bytes

/-- Writing bytes is a run of the scanner; the marks play no part in it. -/
theorem abs_writeDiskBytes {d : FloppyDiskImage} (hd : d.Ready) (bytes : List DiskByte) :
    abs (d.writeDiskBytes bytes) =
      Machine.run (session d.highDensity).step (abs d) (bytes.map DiskByte.value) := by
  induction bytes generalizing d with
  | nil => rfl
  | cons b bytes ih =>
    have hs := sameDisk_writeDiskByte d b.value b.mark
    have := ih (hd.of_sameDisk hs)
    rw [hs.highDensity, abs_writeDiskByte hd] at this
    exact this

end FloppyDiskImage

end CuteMac.Floppy
