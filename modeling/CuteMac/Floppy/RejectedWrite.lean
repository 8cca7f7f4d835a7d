/-
  Sector writes that are rejected.

  * `WriteOp`, `writeOp`: a byte is written, or a write session ends;
  * `records`, `writeOp_eq`: the records that such an operation acts on;
  * `request`, `act_request`: the sector that a record is for;
  * `Undone`, `CanSave`, `Holds`: what a rejected write should leave, and when the
    image file takes a sector or has it already;
  * `rejected_write_iff`: when every rejected write leaves the disk as it was.
-/
import CuteMac.Floppy.GcrTrack

namespace CuteMac.Floppy

open Slice Framing FloppyDiskImage Machine

namespace FloppyDiskImage

/-! ## Operations -/

inductive WriteOp where
  | byte (value : UInt8) (mark : Bool)
  | flush

def writeOp (d : FloppyDiskImage) : WriteOp → FloppyDiskImage
  | .byte value mark => (d.writeDiskByte value mark).1
  | .flush => d.flushWrites.1

/-- The image in front of the records of an operation. -/
def pending (d : FloppyDiskImage) : WriteOp → FloppyDiskImage
  | .byte value mark =>
    if d.Ready then d.takeByte.buffered (d.writeBytes ++ [value]) (d.writeMarks ++ [mark])
    else { d with writeFailed := true }
  | .flush => d

/-- The records that an operation finds in the write buffer. -/
def records (d : FloppyDiskImage) : WriteOp → List (List UInt8)
  | .byte value _ =>
    if d.Ready then (cut (format d.highDensity) (d.writeBytes ++ [value])).1 else []
  | .flush => (cut (format d.highDensity) d.writeBytes).1

/-- The disk, its files and the track under the head are the same. -/
structure SameContents (d d' : FloppyDiskImage) : Prop where
  data : d'.data = d.data
  tags : d'.tags = d.tags
  trackCache : d'.trackCache = d.trackCache
  host : d'.host = d.host
  writeFailed : d'.writeFailed = d.writeFailed ∨ d'.writeFailed = false

/-- An operation does what its records do. -/
theorem writeOp_eq (d : FloppyDiskImage) (op : WriteOp) :
    SameContents (acts d.highDensity (d.pending op) (d.records op)) (d.writeOp op) := by
  cases op with
  | byte value mark =>
    by_cases hd : d.Ready
    · simp only [pending, records, writeOp, if_pos hd, writeDiskByte_fst hd]
      exact ⟨rfl, rfl, rfl, rfl, .inl rfl⟩
    · have hn : (!d.writable || !d.inserted || !d.motorOn) = true := by
        simpa [Ready, or_assoc, imp_iff_not_or] using hd
      simp only [pending, records, writeOp, if_neg hd, writeDiskByte, if_pos hn]
      exact ⟨rfl, rfl, rfl, rfl, .inl rfl⟩
  | flush =>
    unfold writeOp flushWrites
    by_cases hb : d.writeBytes = []
    · rw [if_neg (not_not.2 hb)]
      simp only [records, hb, cut_nil]
      exact ⟨rfl, rfl, rfl, rfl, .inr rfl⟩
    · rw [if_pos hb, processWrites_fst]
      exact ⟨rfl, rfl, rfl, rfl, .inr rfl⟩

/-! ## Records -/

/-- A sector that is to be written. -/
structure Request where
  sector : Int
  data : List UInt8
  tags : List UInt8

/-- The sector that a record is for; nothing, where the record names none or has an error. -/
def request (d : FloppyDiskImage) : Bool → List UInt8 → Option Request
  | false, r =>
    match decodeGcr (r.getD 3 0), decodeGcrPayload (mid r 4 703) with
    | some sector, some payload =>
      if sector.toNat < sectorsForTrack d.currentTrack then
        some ⟨sector.toNat, mid payload tagBytesPerSector bytesPerSector,
          payload.take tagBytesPerSector⟩
      else none
    | _, _ => none
  | true, r =>
    if r.getD 3 0 ≠ 0xfe ∧ 0 ≤ d.writeMfmSector ∧ d.writeMfmSector < sectorsPerTrack ∧
        mfmCrc (r.take (4 + bytesPerSector)) =
          be16 (r.getD (4 + bytesPerSector) 0) (r.getD (5 + bytesPerSector) 0) then
      some ⟨d.writeMfmSector, mid r 4 bytesPerSector, []⟩
    else none

def commit (d : FloppyDiskImage) (q : Request) : FloppyDiskImage × Bool :=
  d.commitSector q.sector q.data q.tags

/-- A record commits the sector that it is for, and else nothing of the disk. -/
theorem act_request (d : FloppyDiskImage) (highDensity : Bool) (r : List UInt8) :
    match d.request highDensity r with
    | some q => act highDensity r d = (d.commit q).1
    | none => (act highDensity r d).data = d.data ∧ (act highDensity r d).tags = d.tags ∧
        (act highDensity r d).host = d.host := by
  cases highDensity with
  | false =>
    simp only [request, act, gcrRecord]
    cases decodeGcr (r.getD 3 0) with
    | none => exact ⟨rfl, rfl, rfl⟩
    | some sector =>
      cases decodeGcrPayload (mid r 4 703) with
      | none => exact ⟨rfl, rfl, rfl⟩
      | some payload =>
        by_cases hsector : sector.toNat < sectorsForTrack d.currentTrack
        · simp only [if_pos hsector]
          rfl
        · simp only [if_neg hsector]
          exact ⟨trivial, trivial, trivial⟩
  | true =>
    simp only [request, act]
    by_cases hid : r.getD 3 0 = 0xfe
    · rw [if_neg fun h => h.1 hid, if_pos hid]
      unfold mfmIdField
      dsimp only
      split_ifs <;> exact ⟨rfl, rfl, rfl⟩
    rw [if_neg hid]
    unfold mfmDataField
    dsimp only
    by_cases hfield : 0 ≤ d.writeMfmSector ∧ d.writeMfmSector < sectorsPerTrack ∧
        mfmCrc (r.take (4 + bytesPerSector)) =
          be16 (r.getD (4 + bytesPerSector) 0) (r.getD (5 + bytesPerSector) 0)
    · rw [if_pos ⟨hid, hfield⟩, if_pos hfield]
      rfl
    · rw [if_neg fun h => hfield h.2, if_neg hfield]
      split_ifs <;> exact ⟨rfl, rfl, rfl⟩

/-! ## Rejected writes -/

/-- Nothing of the disk, of its tracks and of the track under the head has changed, and its file
    holds what it held. -/
structure Undone (d d' : FloppyDiskImage) : Prop where
  data : d'.data = d.data
  tags : d'.tags = d.tags
  trackCache : d'.trackCache = d.trackCache
  buildTrackBytes : d'.buildTrackBytes = d.buildTrackBytes
  buildMfmTrack : d'.buildMfmTrack = d.buildMfmTrack
  file : d.host.files d.path = d.imageBytes → d'.host.files d'.path = d'.imageBytes

/-- The image file can be saved. -/
def CanSave (d : FloppyDiskImage) : Prop :=
  d.writable = true ∧ d.path ≠ "" ∧
    (d.kind = .diskCopy42 → d.diskCopyHeader.length = headerBytes) ∧
      d.host.saveOk d.host.saves = true

/-- The disk has no such sector. -/
def Refuses (d : FloppyDiskImage) (q : Request) : Prop :=
  ¬ (q.data.length = bytesPerSector ∧ 0 ≤ d.sectorBlock q.sector ∧
    d.sectorBlock q.sector < (d.data.length / bytesPerSector : Nat))

/-- The sector has these contents already, and this tag. -/
def Holds (d : FloppyDiskImage) (q : Request) : Prop :=
  block bytesPerSector d.data (d.sectorBlock q.sector).toNat = q.data ∧
    (q.tags.length = tagBytesPerSector →
      (d.sectorBlock q.sector).toNat < d.tags.length →
        d.tags.getD (d.sectorBlock q.sector).toNat [] = q.tags)

theorem persistImage_snd (d : FloppyDiskImage) : d.persistImage.2 = true ↔ d.CanSave := by
  unfold persistImage CanSave
  by_cases hw : (!d.writable) = true ∨ d.path = ""
  · rw [if_pos hw]
    refine iff_of_false Bool.false_ne_true ?_
    rintro ⟨hwritable, hpath, -⟩
    rcases hw with hw | hw
    · rw [hwritable] at hw
      cases hw
    · exact hpath hw
  · rw [if_neg hw]
    rw [not_or] at hw
    unfold imageBytes Host.save
    by_cases hk : d.kind = .diskCopy42
    · by_cases hl : d.diskCopyHeader.length ≠ headerBytes
      · simp [hk, hl, hw]
      · simp only [hk, hl, if_true, if_false]
        split_ifs <;> simp_all
    · simp only [hk, if_false]
      split_ifs <;> simp_all

section
variable {d : FloppyDiskImage} {q : Request}

theorem putSector_canSave (blk : Nat) (data tags : List UInt8) :
    (d.putSector blk data tags).CanSave ↔ d.CanSave := Iff.rfl

theorem files_persistImage (h : d.persistImage.2 = false) :
    d.persistImage.1.host.files = d.host.files := by
  unfold persistImage at h ⊢
  by_cases hw : (!d.writable) = true ∨ d.path = ""
  · rw [if_pos hw]
  · rw [if_neg hw] at h ⊢
    cases hi : d.imageBytes with
    | none => rfl
    | some output =>
      rw [hi] at h
      unfold Host.save at h ⊢
      dsimp only at h ⊢
      split_ifs at h ⊢
      rfl

/-- A sector that the disk has takes its contents only when it has them. -/
theorem putBlock_eq_iff {blk : Nat} {data : List UInt8} (hdata : data.length = bytesPerSector)
    (hlt : blk < d.data.length / bytesPerSector) :
    putBlock bytesPerSector d.data blk data = d.data ↔
      block bytesPerSector d.data blk = data := by
  constructor
  · intro h
    rw [← block_putBlock (hasBlock_of_lt hlt) hdata, h]
  · rintro rfl
    exact putBlock_block (hasBlock_of_lt hlt)

theorem putTag_eq_iff {blk : Nat} {tags : List UInt8} :
    (if tags ≠ [] ∧ blk < d.tags.length ∧ tags.length = tagBytesPerSector then d.tags.set blk tags
      else d.tags) = d.tags ↔
    (tags.length = tagBytesPerSector → blk < d.tags.length → d.tags.getD blk [] = tags) := by
  by_cases h : tags ≠ [] ∧ blk < d.tags.length ∧ tags.length = tagBytesPerSector
  · have hblk := h.2.1
    have htag := h.2.2
    rw [if_pos h, List.getD_eq_getElem?_getD, List.getElem?_eq_getElem hblk]
    constructor
    · intro hset _ _
      have hget : (d.tags.set blk tags)[blk]? = d.tags[blk]? := by rw [hset]
      rw [List.getElem?_set_self hblk, List.getElem?_eq_getElem hblk] at hget
      exact (Option.some.inj hget).symm
    · intro hsame
      have hget : d.tags[blk] = tags := hsame htag hblk
      rw [← hget, List.set_getElem_self]
  · rw [if_neg h]
    refine iff_of_true rfl fun htag hblk => absurd ⟨?_, hblk, htag⟩ h
    intro hnil
    rw [hnil] at htag
    cases htag

/-- A commit that is rejected leaves the disk as it was where it has no such sector or has its
    contents already. -/
theorem commit_undone_iff (d : FloppyDiskImage) (q : Request) :
    ((d.commit q).2 = false → Undone d (d.commit q).1) ↔
      (d.CanSave ∨ d.Refuses q ∨ d.Holds q) := by
  by_cases hrefuse : d.Refuses q
  · refine iff_of_true (fun _ => ?_) (.inr (.inl hrefuse))
    rw [commit, commitSector_of_not hrefuse]
    exact ⟨rfl, rfl, rfl, rfl, rfl, id⟩
  obtain ⟨hdata, h0, hlt⟩ := not_not.1 hrefuse
  obtain ⟨blk, hblk⟩ := Int.eq_ofNat_of_zero_le h0
  have hlt' : blk < d.data.length / bytesPerSector := by omega
  have htoNat : (d.sectorBlock q.sector).toNat = blk := by rw [hblk, Int.toNat_natCast]
  have hcommit := commitSector_eq hdata hblk hlt' q.tags
  have hsaved := persistImage_snd (d.putSector blk q.data q.tags)
  rw [putSector_canSave] at hsaved
  by_cases hsave : d.CanSave
  · refine iff_of_true (fun hfail => ?_) (.inl hsave)
    rw [commit, hcommit] at hfail
    exact absurd (hsaved.2 hsave) (by rw [hfail]; exact Bool.false_ne_true)
  have hfail : (d.putSector blk q.data q.tags).persistImage.2 = false := by
    rw [← Bool.not_eq_true]
    exact mt hsaved.1 hsave
  have hfiles := files_persistImage hfail
  rw [commit, hcommit]
  dsimp only
  rw [hfail]
  constructor
  · intro h
    have hundone := h rfl
    refine .inr (.inr ⟨?_, ?_⟩)
    · rw [htoNat]
      exact (putBlock_eq_iff hdata hlt').1 hundone.data
    · rw [htoNat]
      exact putTag_eq_iff.1 hundone.tags
  · rintro (h | h | ⟨hblock, htag⟩) -
    · exact absurd h hsave
    · exact absurd h hrefuse
    · rw [htoNat] at hblock htag
      have hdata' := (putBlock_eq_iff hdata hlt').2 hblock
      have htags' := putTag_eq_iff.2 htag
      have hput : d.putSector blk q.data q.tags = d := by
        unfold putSector
        rw [hdata', htags']
      rw [hput]
      rw [hput] at hfiles
      refine ⟨rfl, rfl, rfl, rfl, rfl, fun hfile => ?_⟩
      show d.persistImage.1.host.files d.path = d.imageBytes
      rw [hfiles]
      exact hfile

end

/-! ## Every run -/

/-- The commits of an operation that are rejected leave the disk as it was. -/
def RejectsCleanly (d : FloppyDiskImage) (op : WriteOp) : Prop :=
  Guarded (fun d' r => act d.highDensity r d')
    (fun d' r => ∀ q, d'.request d.highDensity r = some q →
      (d'.commit q).2 = false → Undone d' (d'.commit q).1) (d.pending op) (d.records op)

/-- At each commit of an operation the image file can be saved, or the disk has no such sector, or
    the sector has its contents. -/
def TakesSectors (d : FloppyDiskImage) (op : WriteOp) : Prop :=
  Guarded (fun d' r => act d.highDensity r d')
    (fun d' r => ∀ q, d'.request d.highDensity r = some q →
      d'.CanSave ∨ d'.Refuses q ∨ d'.Holds q) (d.pending op) (d.records op)

theorem rejectsCleanly_iff (d : FloppyDiskImage) (op : WriteOp) :
    RejectsCleanly d op ↔ TakesSectors d op :=
  guarded_congr (fun d' _ => forall₂_congr fun q _ => commit_undone_iff d' q) _ _

theorem rejected_write_iff (d : FloppyDiskImage) (ops : List WriteOp) :
    Guarded writeOp RejectsCleanly d ops ↔ Guarded writeOp TakesSectors d ops :=
  guarded_congr rejectsCleanly_iff d ops

/-! ## A full host disk -/

/-- The record of the first sector, with ones. -/
def onesRecord : List UInt8 :=
  gcrSectorRecord 0 (List.replicate tagBytesPerSector 0 ++ List.replicate bytesPerSector 1)

/-- A 400K disk of zeros whose file can no longer be saved; all but the last byte of the record has
    been written. -/
def fullDisk : FloppyDiskImage :=
  { plainDisk 0 with
    host := {
      files := fun _ => some (List.replicate raw400KBytes 0)
      isWritable := fun _ => true
      saveOk := fun _ => false }
    writeBytes := onesRecord.dropLast
    writeMarks := List.replicate 709 false }

/-- The sector of ones. -/
def onesRequest : Request :=
  ⟨0, List.replicate bytesPerSector 1, List.replicate tagBytesPerSector 0⟩

theorem records_fullDisk : fullDisk.records (.byte 0xff false) = [onesRecord] := by
  have hbytes : fullDisk.writeBytes ++ [0xff] = onesRecord := by
    have hlast : onesRecord = (gcrSync ++ [gcr (UInt8.ofNat 0)] ++ encodedPayload
        (List.replicate tagBytesPerSector 0 ++ List.replicate bytesPerSector 1) ++ [0xde, 0xaa]) ++
          [0xff] := by
      simp only [onesRecord, gcrSectorRecord, gcrTrailer, List.append_assoc, List.cons_append,
        List.nil_append]
    show onesRecord.dropLast ++ [0xff] = onesRecord
    rw [hlast, List.dropLast_concat]
  have hready : fullDisk.Ready := ⟨rfl, rfl, rfl⟩
  have hformat : format fullDisk.highDensity = gcrFormat := rfl
  have hcut : ∀ r, gcrSync <+: r → gcrVerdict r = .take r.length → (cut gcrFormat r).1 = [r] :=
    fun r hs hv => congrArg Prod.fst (cut_record (F := gcrFormat) hs hv)
  have hsync : gcrSync <+: onesRecord := gcrSync_prefix
  have hverdict : gcrVerdict onesRecord = .take onesRecord.length := by
    rw [onesRecord]
    exact verdict_gcrSectorRecord
  unfold records
  dsimp only
  rw [if_pos hready, hbytes, hformat]
  exact hcut onesRecord hsync hverdict

theorem request_onesRecord (d : FloppyDiskImage) (ht : d.currentTrack = 0) :
    d.request false onesRecord = some onesRequest := by
  have hpay : decodeGcrPayload (encodedPayload
      (List.replicate tagBytesPerSector 0 ++ List.replicate bytesPerSector 1)) =
        some (List.replicate tagBytesPerSector 0 ++ List.replicate bytesPerSector 1) :=
    decodeGcrPayload_encodedPayload (by
      rw [List.length_append, List.length_replicate, List.length_replicate]
      rfl)
  have hnum : decodeGcr (gcr (UInt8.ofNat 0)) = some 0 := by decide
  unfold request
  dsimp only
  rw [onesRecord, number_gcrSectorRecord, payload_gcrSectorRecord, hnum, hpay, ht]
  dsimp only
  rw [if_pos (by decide), mid_append_right List.length_replicate.le,
    List.length_replicate, Nat.sub_self, List.take_left' List.length_replicate]
  refine congrArg (fun data => some (⟨0, data, _⟩ : Request)) ?_
  exact List.take_of_length_le (List.length_replicate.le)

/-- The sector is lost in memory only. -/
theorem full_disk_keeps_sector :
    ¬ Guarded writeOp RejectsCleanly fullDisk [.byte 0xff false] := by
  rintro ⟨hrejects, -⟩
  have htakes := (rejectsCleanly_iff _ _).1 hrejects
  unfold TakesSectors at htakes
  rw [records_fullDisk] at htakes
  obtain ⟨e, he⟩ : ∃ e, e = fullDisk.pending (.byte 0xff false) := ⟨_, rfl⟩
  have hready : fullDisk.Ready := ⟨rfl, rfl, rfl⟩
  have hpending : e = fullDisk.takeByte.buffered (fullDisk.writeBytes ++ [0xff])
      (fullDisk.writeMarks ++ [false]) := by
    rw [he, pending, if_pos hready]
  rw [takeByte_eq] at hpending
  rw [← he] at htakes
  have ht : e.currentTrack = 0 := by rw [hpending]; rfl
  have hblock : e.sectorBlock 0 = 0 := by rw [hpending]; rfl
  have hdata : e.data = List.replicate raw400KBytes 0 := by rw [hpending]; rfl
  have hsave : e.host.saveOk = fun _ => false := by rw [hpending]; rfl
  rcases htakes.1 onesRequest (request_onesRecord e ht) with hcan | hrefuse | hholds
  · have hok := hcan.2.2.2
    rw [hsave] at hok
    cases hok
  · refine hrefuse ⟨List.length_replicate, ?_, ?_⟩
    · rw [show onesRequest.sector = 0 from rfl, hblock]
    · rw [show onesRequest.sector = 0 from rfl, hblock, hdata, List.length_replicate]
      decide
  · have hsame := hholds.1
    rw [show onesRequest.sector = 0 from rfl, hblock, hdata] at hsame
    have hget : (block bytesPerSector (List.replicate raw400KBytes (0 : UInt8)) 0)[0]? =
        (List.replicate bytesPerSector (1 : UInt8))[0]? :=
      congrArg (fun l : List UInt8 => l[0]?) hsame
    rw [block, getElem?_mid, if_pos (by decide), List.getElem?_replicate, if_pos (by decide),
      List.getElem?_replicate, if_pos (by decide)] at hget
    exact absurd (Option.some.inj hget) (by decide)

end FloppyDiskImage

end CuteMac.Floppy
