/-
  A GCR track that is written as a whole.

  * `gcrSectorRecord`: the record of a sector;
  * `act_gcrSector`: it is written into its sector;
  * `write_gcrTrack`: a track that is built from some disk of the same geometry;
  * `gcrTrack_writeBack`: a track that is written back as it was read, and a
    track of another disk.
-/
import CuteMac.Floppy.MfmWrite
import CuteMac.Floppy.Tracks

namespace CuteMac.Floppy

open Slice Framing FloppyDiskImage

/-! ## Records -/

/-- The record of a sector: its number, its tag and its data. -/
def gcrSectorRecord (sector : Nat) (payload : List UInt8) : List UInt8 :=
  gcrSync ++ [gcr (UInt8.ofNat sector)] ++ encodedPayload payload ++ gcrTrailer

/-- What stands on the track in front of the record of a sector. -/
def gcrGap (d : FloppyDiskImage) (physicalTrack side sector : Nat) : List UInt8 :=
  let formatByte : UInt8 := if d.doubleSided then 0x22 else 0x02
  let trackLow := UInt8.ofNat physicalTrack &&& 0x3f
  let sideAndTrackHigh :=
    (UInt8.ofNat (physicalTrack / 64) &&& 0x01) ||| (if side ≠ 0 then 0x20 else 0x00)
  let addressChecksum :=
    formatByte ^^^ trackLow ^^^ sideAndTrackHigh ^^^ UInt8.ofNat sector
  List.replicate 18 0xff ++ [0xd5, 0xaa, 0x96] ++
    ([gcr trackLow, gcr (UInt8.ofNat sector), gcr sideAndTrackHigh, gcr formatByte,
      gcr addressChecksum] ++ [0xde, 0xaa, 0xff] ++ List.replicate 14 0xff)

theorem sectorBytes_eq (d : FloppyDiskImage) (physicalTrack side sector : Nat) :
    d.sectorBytes physicalTrack side sector = gcrGap d physicalTrack side sector ++
      gcrSectorRecord sector (d.sectorPayload physicalTrack side sector) ++
      List.replicate 8 0xff := by
  simp only [FloppyDiskImage.sectorBytes, gcrGap, gcrSectorRecord, gcrSync, gcrTrailer,
    List.append_assoc]

section
variable {sector : Nat} {payload : List UInt8}

theorem length_gcrSectorRecord : (gcrSectorRecord sector payload).length = gcrRecordBytes := by
  simp [gcrSectorRecord, length_encodedPayload, gcrSync, gcrTrailer, gcrRecordBytes]

theorem gcrSync_prefix : gcrSync <+: gcrSectorRecord sector payload := by
  rw [gcrSectorRecord, List.append_assoc, List.append_assoc]
  exact List.prefix_append ..

theorem number_gcrSectorRecord :
    (gcrSectorRecord sector payload).getD 3 0 = gcr (UInt8.ofNat sector) := rfl

theorem payload_gcrSectorRecord :
    mid (gcrSectorRecord sector payload) 4 703 = encodedPayload payload := by
  have h : (gcrSync ++ [gcr (UInt8.ofNat sector)]).length = 4 := rfl
  rw [gcrSectorRecord, List.append_assoc, mid_append_right h.le, h, Nat.sub_self,
    mid_append_left (by rw [length_encodedPayload])]
  rw [← length_encodedPayload payload, mid_self]

theorem trailer_gcrSectorRecord :
    mid (gcrSectorRecord sector payload) 707 3 = gcrTrailer := by
  have h : (gcrSync ++ [gcr (UInt8.ofNat sector)] ++ encodedPayload payload).length = 707 := by
    rw [List.length_append, length_encodedPayload]
    rfl
  rw [gcrSectorRecord, mid_append_right h.le, h]
  rfl

theorem verdict_gcrSectorRecord :
    gcrVerdict (gcrSectorRecord sector payload) = .take (gcrSectorRecord sector payload).length := by
  unfold gcrVerdict
  rw [trailer_gcrSectorRecord, length_gcrSectorRecord, if_neg (Nat.lt_irrefl _), if_pos rfl]

end

/-- Between two records, the pattern does not occur: the one address mark is another. -/
theorem not_gcrSync_infix {d : FloppyDiskImage} {w : List UInt8} {physicalTrack side sector : Nat}
    (hw : 0xd5 ∉ w) :
    ¬ gcrSync <:+: w ++ gcrGap d physicalTrack side sector ++ gcrSync.dropLast := by
  intro h
  rw [gcrGap, List.append_assoc, List.append_assoc, List.append_assoc] at h
  have h := infix_of_infix_append rfl hw h
  have h := infix_of_infix_append rfl (fun hm => absurd (List.eq_of_mem_replicate hm) (by decide)) h
  rw [List.cons_append, List.infix_cons_iff] at h
  rcases h with h | h
  · -- the address mark
    obtain ⟨t, ht⟩ := h
    simp [gcrSync] at ht
  · -- what follows it has no 0xd5 but the one of the record
    have h : gcrSync <:+: [0xaa, 0x96] ++ (_ ++ gcrSync.dropLast) := h
    have h := infix_of_infix_append rfl (by decide) h
    refine absurd (infix_of_infix_append rfl (fun hm => ?_) h) (by decide)
    simp only [List.mem_append, List.mem_cons, List.not_mem_nil, or_false] at hm
    rcases hm with ((hm | hm | hm | hm | hm) | hm) | hm
    · exact gcr_ne_d5 _ hm.symm
    · exact gcr_ne_d5 _ hm.symm
    · exact gcr_ne_d5 _ hm.symm
    · exact gcr_ne_d5 _ hm.symm
    · exact gcr_ne_d5 _ hm.symm
    · exact absurd hm (by decide)
    · exact absurd (List.eq_of_mem_replicate hm) (by decide)

namespace FloppyDiskImage

/-! ## What records do -/

/-- The tag that a sector is written to the track with. -/
def sectorTag (d : FloppyDiskImage) (blk : Nat) : List UInt8 :=
  let tag := d.tags.getD blk []
  if tag.length = tagBytesPerSector then tag else List.replicate tagBytesPerSector 0

theorem length_sectorTag (d : FloppyDiskImage) (blk : Nat) :
    (d.sectorTag blk).length = tagBytesPerSector := by
  simp only [sectorTag]
  split
  · assumption
  · exact List.length_replicate

theorem sectorPayload_eq {d : FloppyDiskImage} {physicalTrack side sector : Nat}
    (h : firstBlockForTrack physicalTrack side d.doubleSided + sector < d.data.length / bytesPerSector) :
    d.sectorPayload physicalTrack side sector =
      d.sectorTag (firstBlockForTrack physicalTrack side d.doubleSided + sector) ++
        block bytesPerSector d.data (firstBlockForTrack physicalTrack side d.doubleSided + sector) :=
  if_pos h

/-- The record of a sector of the track under the head. -/
theorem act_gcrSector {x : FloppyDiskImage} {sector : Nat} {tag data : List UInt8}
    (hk : sector < sectorsForTrack x.currentTrack) (htag : tag.length = tagBytesPerSector)
    (hdata : data.length = bytesPerSector) :
    act false (gcrSectorRecord sector (tag ++ data)) x = (x.commitSector sector data tag).1 := by
  have hn : sector < 12 := by
    have h : ∀ n ∈ [8, 9, 10, 11, 12], n ≤ 12 := by decide
    exact hk.trans_le (h _ (sectorsForTrack_mem _))
  have hnum : decodeGcr (gcr (UInt8.ofNat sector)) = some (UInt8.ofNat sector) := by
    rw [decodeGcr_gcr]
    have h : ∀ n < 12, UInt8.ofNat n &&& 0x3f = UInt8.ofNat n := by decide
    rw [h sector hn]
  have hpay : decodeGcrPayload (encodedPayload (tag ++ data)) = some (tag ++ data) :=
    decodeGcrPayload_encodedPayload (by
      rw [List.length_append, htag, hdata, encodedPayloadBytes, Nat.add_comm])
  have hmid : mid (tag ++ data) tagBytesPerSector bytesPerSector = data := by
    rw [mid_append_right htag.le, htag, Nat.sub_self, ← hdata, mid_self]
  have hto : (UInt8.ofNat sector).toNat = sector := UInt8.toNat_ofNat_of_lt' (hn.trans (by decide))
  simp only [act, gcrRecord]
  rw [number_gcrSectorRecord, payload_gcrSectorRecord, hnum, hpay]
  simp only [hto]
  rw [if_pos hk, hmid, List.take_left' htag]

/-! ## Sectors -/

/-- A writable 400K or 800K disk that turns. -/
structure GcrReady (d : FloppyDiskImage) : Prop where
  wf : d.Wf
  ready : d.Ready
  highDensity : d.highDensity = false

theorem GcrReady.of_sameDisk {d d' : FloppyDiskImage} (h : d.GcrReady) (hs : SameDisk d d')
    (hwf : d'.Wf) : d'.GcrReady :=
  ⟨hwf, h.ready.of_sameDisk hs, hs.highDensity.trans h.highDensity⟩

theorem GcrReady.write {d : FloppyDiskImage} (h : d.GcrReady) (s : List DiskByte) :
    (d.writeDiskBytes s).GcrReady :=
  h.of_sameDisk (sameDisk_writeDiskBytes d s) (wf_writeDiskBytes h.wf s)

/-- The block of a sector of the track under the head. -/
def gcrBlock (d : FloppyDiskImage) (sector : Nat) : Nat :=
  firstBlockForTrack d.currentTrack d.currentSide d.doubleSided + sector

/-- Between two sectors: the disk is ready, and no mark is pending. -/
structure GcrIdle (d : FloppyDiskImage) : Prop where
  ready : d.GcrReady
  saves : d.Saves
  noSync : 0xd5 ∉ d.writeBytes

/-- The bytes of a GCR track have no marks. -/
def gcrBytes (bytes : List UInt8) : List DiskByte := mfmBytes bytes

theorem map_value_gcrBytes (bytes : List UInt8) : (gcrBytes bytes).map DiskByte.value = bytes :=
  map_value_mfmBytes bytes

theorem gcrBytes_append (a b : List UInt8) : gcrBytes (a ++ b) = gcrBytes a ++ gcrBytes b :=
  List.map_append

section
variable {d src : FloppyDiskImage}

theorem GcrReady.gcrBlock_lt (h : d.GcrReady) {k : Nat} (hk : k < sectorsForTrack d.currentTrack) :
    d.gcrBlock k < d.data.length / bytesPerSector := by
  have hfirst := firstBlockForTrack_le d.doubleSided h.wf.track h.wf.side
  have hi := h.ready.2.1
  have hds := h.wf.doubleSided hi
  have hhd := h.wf.highDensity hi
  rw [h.highDensity] at hhd
  have hcount : (if d.doubleSided then 1600 else 800) = d.data.length / bytesPerSector := by
    rw [hds]
    rcases h.wf.size hi with hl | hl | hl
    · rw [hl]; rfl
    · rw [hl]; rfl
    · rw [hl] at hhd
      exact absurd hhd (by decide)
  rw [← hcount, gcrBlock]
  omega

/-- Bytes of a gap. -/
theorem write_gcrGap (h : d.GcrReady) {s : List DiskByte} (hw : ¬ gcrSync <:+: d.writeBytes)
    (hg : ∀ b ∈ s.map DiskByte.value, b = 0xff) :
    Idle d (d.writeDiskBytes s) ∧
      (2 ≤ s.length → 0xd5 ∉ (d.writeDiskBytes s).writeBytes) := by
  have hhd := h.highDensity
  obtain ⟨hidle, hkept⟩ := write_gap h.wf h.ready (x := 0xad) (by rw [hhd]; rfl)
    (by rw [hhd]; exact hw) fun hm => absurd (hg _ hm) (by decide)
  exact ⟨hidle, fun hs hm => absurd (hg _ (hkept hs _ hm)) (by decide)⟩

/-- What a sector of a track that is written commits. -/
def gcrCommit (d src : FloppyDiskImage) (sector : Nat) : Commit where
  block := d.gcrBlock sector
  data := block bytesPerSector src.data (d.gcrBlock sector)
  tags := src.sectorTag (d.gcrBlock sector)
  saved := true

/-- One sector of the track under the head, with the contents of some disk. -/
theorem write_gcrSector (h : d.GcrIdle) (hds : src.doubleSided = d.doubleSided)
    (hlen : src.data.length = d.data.length) {k : Nat} (hk : k < sectorsForTrack d.currentTrack) :
    (d.writeDiskBytes (gcrBytes (src.sectorBytes d.currentTrack d.currentSide k))).GcrIdle ∧
      Wrote d (d.writeDiskBytes (gcrBytes (src.sectorBytes d.currentTrack d.currentSide k)))
        (gcrCommit d src k) := by
  obtain ⟨hready, hsaves, hno⟩ := h
  have hhd := hready.highDensity
  have hlt := hready.gcrBlock_lt hk
  have hlts : d.gcrBlock k < src.data.length / bytesPerSector := by rw [hlen]; exact hlt
  have hblock : (block bytesPerSector src.data (d.gcrBlock k)).length = bytesPerSector :=
    length_block (hasBlock_of_lt hlts)
  have hpay : src.sectorPayload d.currentTrack d.currentSide k =
      src.sectorTag (d.gcrBlock k) ++ block bytesPerSector src.data (d.gcrBlock k) := by
    rw [gcrBlock, ← hds] at hlts ⊢
    exact sectorPayload_eq hlts
  -- the record with the gap in front of it, and the gap behind it
  obtain ⟨r, hr⟩ : ∃ r, r = gcrSectorRecord k
      (src.sectorTag (d.gcrBlock k) ++ block bytesPerSector src.data (d.gcrBlock k)) := ⟨_, rfl⟩
  obtain ⟨front, hfront⟩ : ∃ front, front =
      gcrBytes (gcrGap src d.currentTrack d.currentSide k ++ r) := ⟨_, rfl⟩
  have hsplit : gcrBytes (src.sectorBytes d.currentTrack d.currentSide k) =
      front ++ gcrBytes (List.replicate 8 0xff) := by
    rw [hfront, ← gcrBytes_append, sectorBytes_eq, hpay, ← hr]
  have hvalue : front.map DiskByte.value = gcrGap src d.currentTrack d.currentSide k ++ r := by
    rw [hfront, map_value_gcrBytes]
  have hsync : gcrFormat.sync <+: r := by rw [hr]; exact gcrSync_prefix
  have hv : gcrVerdict r = .take r.length := by rw [hr, verdict_gcrSectorRecord]
  obtain ⟨x, hx, hempty, hact, -⟩ := write_frame hready.wf hready.ready hvalue
    (by rw [hhd]; exact not_gcrSync_infix hno) (by rw [hhd]; exact hsync) (by rw [hhd]; exact hv)
  have hkx : Kept d x := (kept_takeByte d).trans hx.kept
  have hkept := hkx.sameDisk
  rw [hhd, hr, act_gcrSector (by rw [hkept.currentTrack]; exact hk) (length_sectorTag src _) hblock]
    at hact
  have hblk : x.sectorBlock k = (d.gcrBlock k : Nat) := by
    rw [sectorBlock, if_neg (by rw [hkept.highDensity, hhd]; decide), gcrBlock, hkept.currentTrack,
      hkept.currentSide, hkept.doubleSided]
    push_cast
    rfl
  obtain ⟨saved, hwrote, hsaved⟩ := wrote_commitSector hblock hblk
    (by rw [hkept.dataLength]; exact hlt) (src.sectorTag (d.gcrBlock k))
  obtain rfl : saved = true := hsaved d hready.wf hkept hready.ready.2.1 hsaves
  have hw : Wrote d _ (gcrCommit d src k) := hwrote.congr hkx hact
  obtain ⟨hidle, hgap⟩ := write_gcrGap (hready.write front)
    (s := gcrBytes (List.replicate 8 0xff)) (by rw [hempty]; decide)
    (fun b hb => List.eq_of_mem_replicate (by rwa [map_value_gcrBytes] at hb))
  rw [hsplit, writeDiskBytes_append]
  have hw' := hw.congr (Kept.rfl' d) hidle.kept
  exact ⟨⟨(hready.write front).write _, hsaves.of_sameDisk hw'.same, hgap (by decide)⟩, hw'⟩

/-! ## Tracks -/

theorem buildTrackBytes_eq (hi : src.inserted = true) (physicalTrack side : Nat) :
    gcrBytes (src.buildTrackBytes physicalTrack side) = gcrBytes (List.replicate 48 0xff) ++
      (interleavedSectorOrder (sectorsForTrack physicalTrack)).flatMap
        (fun k => gcrBytes (src.sectorBytes physicalTrack side k)) ++
      gcrBytes (List.replicate 128 0xff) := by
  rw [FloppyDiskImage.buildTrackBytes, if_neg (by simp [hi]), gcrBytes_append, gcrBytes_append]
  congr 2
  exact List.map_flatMap ..

/-- A track of the disk under the head, with the contents of some disk of the same geometry. -/
theorem write_gcrTrack (h : d.GcrReady) (hs : d.Saves) (hp : ¬ gcrSync <:+: d.writeBytes)
    (hi : src.inserted = true) (hds : src.doubleSided = d.doubleSided)
    (hlen : src.data.length = d.data.length) :
    WroteAll d (d.writeDiskBytes (gcrBytes (src.buildTrackBytes d.currentTrack d.currentSide)))
      ((interleavedSectorOrder (sectorsForTrack d.currentTrack)).map (gcrCommit d src)) := by
  obtain ⟨hlead, hno⟩ := write_gcrGap h (s := gcrBytes (List.replicate 48 0xff)) hp
    (fun b hb => List.eq_of_mem_replicate (by rwa [map_value_gcrBytes] at hb))
  have hidle : (d.writeDiskBytes (gcrBytes (List.replicate 48 0xff))).GcrIdle :=
    ⟨h.write _, hs.of_sameDisk hlead.kept.sameDisk, hno (by decide)⟩
  have hstep : ∀ x : FloppyDiskImage, x.GcrIdle → SameDisk d x →
      ∀ k ∈ interleavedSectorOrder (sectorsForTrack d.currentTrack),
      (x.writeDiskBytes (gcrBytes (src.sectorBytes d.currentTrack d.currentSide k))).GcrIdle ∧
        Wrote x (x.writeDiskBytes (gcrBytes (src.sectorBytes d.currentTrack d.currentSide k)))
          (gcrCommit d src k) := by
    intro x hx hsame k hk
    have hw := write_gcrSector hx (hds.trans hsame.doubleSided.symm)
      (hlen.trans hsame.dataLength.symm) (k := k)
      (by rw [hsame.currentTrack]; exact mem_interleavedSectorOrder.1 hk)
    rw [gcrCommit, gcrBlock, hsame.currentTrack, hsame.currentSide, hsame.doubleSided] at hw
    exact hw
  obtain ⟨hlast, hall⟩ := (WroteAll.of_kept hlead.kept).flatMap hstep hidle
  rw [List.nil_append] at hall
  obtain ⟨hend, -⟩ := write_gcrGap hlast.ready (s := gcrBytes (List.replicate 128 0xff))
    (fun hinf => hlast.noSync (hinf.subset (by decide)))
    (fun b hb => List.eq_of_mem_replicate (by rwa [map_value_gcrBytes] at hb))
  rw [buildTrackBytes_eq hi, writeDiskBytes_append, writeDiskBytes_append]
  exact hall.kept hend.kept

/-- The blocks of the track under the head. -/
def OnTrack (d : FloppyDiskImage) (b : Nat) : Prop :=
  firstBlockForTrack d.currentTrack d.currentSide d.doubleSided ≤ b ∧
    b < firstBlockForTrack d.currentTrack d.currentSide d.doubleSided + sectorsForTrack d.currentTrack

/-- What a track that is written commits. -/
def gcrCommits (d src : FloppyDiskImage) : List Commit :=
  (interleavedSectorOrder (sectorsForTrack d.currentTrack)).map (gcrCommit d src)

theorem mem_gcrCommits {c : Commit} :
    c ∈ gcrCommits d src ↔ ∃ k < sectorsForTrack d.currentTrack, gcrCommit d src k = c := by
  simp only [gcrCommits, List.mem_map, mem_interleavedSectorOrder]

theorem block_gcrCommits : ((gcrCommits d src).map Commit.block).Perm
    ((List.range (sectorsForTrack d.currentTrack)).map d.gcrBlock) := by
  rw [gcrCommits, List.map_map]
  exact (interleavedSectorOrder_perm d.currentTrack).map _

theorem mem_block_gcrCommits {b : Nat} :
    b ∈ (gcrCommits d src).map Commit.block ↔ d.OnTrack b := by
  rw [block_gcrCommits.mem_iff, List.mem_map]
  constructor
  · rintro ⟨k, hk, rfl⟩
    have hk := List.mem_range.1 hk
    exact ⟨Nat.le_add_right _ _, Nat.add_lt_add_left hk _⟩
  · rintro ⟨h1, h2⟩
    exact ⟨b - firstBlockForTrack d.currentTrack d.currentSide d.doubleSided,
      List.mem_range.2 (by omega), Nat.add_sub_cancel' h1⟩

theorem saved_gcrCommits : ((gcrCommits d src).any fun c => !c.saved) = false := by
  rw [List.any_eq_false]
  intro c hc
  obtain ⟨k, -, rfl⟩ := mem_gcrCommits.1 hc
  simp [gcrCommit]

/-- The tags of a disk that has tags are what its tracks carry. -/
theorem sectorTag_eq (h : d.Wf) {b : Nat} (hb : b < d.tags.length) :
    d.sectorTag b = d.tags.getD b [] := by
  have hmem : d.tags.getD b [] ∈ d.tags := by
    rw [List.getD_eq_getElem?_getD, List.getElem?_eq_getElem hb]
    exact List.getElem_mem hb
  exact if_pos (h.tag _ hmem)

theorem GcrReady.tags_length (h : d.GcrReady) (ht : d.tags ≠ []) :
    d.tags.length = d.data.length / bytesPerSector :=
  h.wf.tags.resolve_left ht

/-- Every sector of the track under the head was written once, and the disk is as it was. -/
structure Restored (d d' : FloppyDiskImage) : Prop where
  commits : ∃ cs, d'.commits = d.commits ++ cs ∧ (∀ c ∈ cs, c.saved = true) ∧
    (cs.map Commit.block).Perm ((List.range (sectorsForTrack d.currentTrack)).map d.gcrBlock)
  failed : d'.writeFailed = d.writeFailed
  data : d'.data = d.data
  tags : d'.tags = d.tags

/-- The blocks of the track under the head are the ones of another disk, and their tags where both
disks have tags; the rest is as it was. -/
structure Replaced (d src d' : FloppyDiskImage) : Prop where
  failed : d'.writeFailed = d.writeFailed
  onTrack : ∀ b, d.OnTrack b → block bytesPerSector d'.data b = block bytesPerSector src.data b ∧
    (d.tags ≠ [] → src.tags ≠ [] → d'.tags.getD b [] = src.tags.getD b [])
  offTrack : ∀ b, ¬ d.OnTrack b → block bytesPerSector d'.data b = block bytesPerSector d.data b ∧
    d'.tags.getD b [] = d.tags.getD b []

/-- **Write-back.**  A track that is written back as it was read changes nothing, and a track of
another disk of the same geometry replaces the track. -/
theorem gcrTrack_writeBack (h : d.GcrReady) (hs : d.Saves) (hp : ¬ gcrSync <:+: d.writeBytes) :
    Restored d (d.writeDiskBytes (gcrBytes (d.buildTrackBytes d.currentTrack d.currentSide))) ∧
      ∀ src : FloppyDiskImage, src.Wf → src.inserted = true → src.data.length = d.data.length →
        Replaced d src
          (d.writeDiskBytes (gcrBytes (src.buildTrackBytes d.currentTrack d.currentSide))) := by
  have hlt : ∀ src, ∀ c ∈ gcrCommits d src, c.block < d.data.length / bytesPerSector := by
    intro src c hc
    obtain ⟨k, hk, rfl⟩ := mem_gcrCommits.1 hc
    exact h.gcrBlock_lt hk
  have hdata : ∀ src, ∀ c ∈ gcrCommits d src, c.data = block bytesPerSector src.data c.block := by
    intro src c hc
    obtain ⟨k, -, rfl⟩ := mem_gcrCommits.1 hc
    rfl
  have htags : ∀ src, ∀ c ∈ gcrCommits d src,
      c.tags = src.sectorTag c.block ∧ c.tags.length = tagBytesPerSector := by
    intro src c hc
    obtain ⟨k, -, rfl⟩ := mem_gcrCommits.1 hc
    exact ⟨rfl, length_sectorTag ..⟩
  constructor
  · have hall : WroteAll d _ (gcrCommits d d) := write_gcrTrack h hs hp h.ready.2.1 rfl rfl
    refine ⟨⟨gcrCommits d d, hall.commits, fun c hc => ?_, block_gcrCommits⟩, ?_,
      hall.self (hlt d) (hdata d), hall.tags.trans (putTags_self fun c hc => ?_)⟩
    · obtain ⟨k, -, rfl⟩ := mem_gcrCommits.1 hc
      rfl
    · rw [hall.failed, saved_gcrCommits, Bool.or_false]
    · by_cases ht : d.tags = []
      · exact Or.inl ht
      · have hb := hlt d c hc
        rw [← h.tags_length ht] at hb
        exact Or.inr (Or.inr ((htags d c hc).1.trans (sectorTag_eq h.wf hb)))
  · intro src hsrc hi hlen
    have hds : src.doubleSided = d.doubleSided := by
      rw [hsrc.doubleSided hi, h.wf.doubleSided h.ready.2.1, hlen]
    have hall : WroteAll d _ (gcrCommits d src) := write_gcrTrack h hs hp hi hds hlen
    have hblocks := hall.of_source hlen (hlt src) (hdata src)
    have htag : ∀ b, ((gcrCommits d src).foldl putTag d.tags).getD b [] =
        if b ∈ (gcrCommits d src).map Commit.block ∧ b < d.tags.length then src.sectorTag b
        else d.tags.getD b [] := fun b => getD_putTags (htags src)
    rw [← hall.tags] at htag
    refine ⟨by rw [hall.failed, saved_gcrCommits, Bool.or_false], fun b hb => ?_, fun b hb => ?_⟩
    · have hmem : b ∈ (gcrCommits d src).map Commit.block := mem_block_gcrCommits.2 hb
      refine ⟨(hblocks b).trans (if_pos hmem), fun hdt hst => ?_⟩
      obtain ⟨c, hc, hcb⟩ := List.mem_map.1 hmem
      have hb' := hlt src c hc
      rw [hcb] at hb'
      have hbd : b < d.tags.length := by rw [h.tags_length hdt]; exact hb'
      have hbs : b < src.tags.length := by rw [hsrc.tags.resolve_left hst, hlen]; exact hb'
      exact ((htag b).trans (if_pos ⟨hmem, hbd⟩)).trans (sectorTag_eq hsrc hbs)
    · have hmem : b ∉ (gcrCommits d src).map Commit.block := mt mem_block_gcrCommits.1 hb
      exact ⟨(hblocks b).trans (if_neg hmem), (htag b).trans (if_neg fun hm => hmem hm.1)⟩

end

/-! ## Two disks -/

/-- A writable 400K disk that turns, with one byte all over. -/
def plainDisk (fill : UInt8) : FloppyDiskImage :=
  { insert { host := { files := fun _ => none, isWritable := fun _ => true, saveOk := fun _ => true } }
      "disk" .raw400K [] (List.replicate raw400KBytes fill) [] false false with motorOn := true }

theorem length_plainDisk (fill : UInt8) : (plainDisk fill).data.length = raw400KBytes :=
  List.length_replicate

theorem wf_plainDisk (fill : UInt8) : (plainDisk fill).Wf := by
  have hload : (loadRaw { host := (plainDisk fill).host } "disk" (List.replicate raw400KBytes fill)
      .raw400K).1.Wf :=
    wf_loadRaw (by decide) (Or.inl ⟨List.length_replicate, rfl⟩)
  exact hload.switched rfl

theorem gcrReady_plainDisk (fill : UInt8) : (plainDisk fill).GcrReady :=
  ⟨wf_plainDisk fill, ⟨rfl, rfl, rfl⟩, rfl⟩

theorem saves_plainDisk (fill : UInt8) : (plainDisk fill).Saves := ⟨rfl, fun _ => rfl⟩

/-- A disk of zeros, with its own track and with a track of ones. -/
theorem plainDisk_writeBack :
    Restored (plainDisk 0) ((plainDisk 0).writeDiskBytes
        (gcrBytes ((plainDisk 0).buildTrackBytes (plainDisk 0).currentTrack
          (plainDisk 0).currentSide))) ∧
      Replaced (plainDisk 0) (plainDisk 1) ((plainDisk 0).writeDiskBytes
        (gcrBytes ((plainDisk 1).buildTrackBytes (plainDisk 0).currentTrack
          (plainDisk 0).currentSide))) := by
  have hnone : ¬ gcrSync <:+: (plainDisk 0).writeBytes :=
    fun h => absurd (h.subset (List.mem_cons_self ..)) List.not_mem_nil
  obtain ⟨hself, hother⟩ := gcrTrack_writeBack (gcrReady_plainDisk 0) (saves_plainDisk 0) hnone
  exact ⟨hself, hother (plainDisk 1) (wf_plainDisk 1) rfl
    ((length_plainDisk 1).trans (length_plainDisk 0).symm)⟩

/-- A record without a sector number, but for its last byte. -/
def badRecord : List UInt8 := gcrSync ++ List.replicate 704 0 ++ [0xde, 0xaa]

/-- The disk of zeros, after the start of a record. -/
def pendingDisk : FloppyDiskImage := (plainDisk 0).writeDiskBytes (gcrBytes badRecord)

theorem act_badRecord (x : FloppyDiskImage) : (act false (badRecord ++ [0xff]) x).writeFailed = true := by
  have hnum : (badRecord ++ [0xff]).getD 3 0 = 0 := rfl
  have hnone : decodeGcr 0 = none := by decide
  simp only [act, gcrRecord]
  rw [hnum, hnone]

/-- The first byte of a track completes the record that is pending, and fails. -/
theorem pendingDisk_not_writeBack :
    pendingDisk.GcrReady ∧ pendingDisk.Saves ∧ pendingDisk.writeFailed = false ∧
      (pendingDisk.writeDiskBytes (gcrBytes (pendingDisk.buildTrackBytes pendingDisk.currentTrack
        pendingDisk.currentSide))).writeFailed = true := by
  have hready := gcrReady_plainDisk 0
  have hempty : (plainDisk 0).writeBytes = [] := rfl
  have hhd : (plainDisk 0).highDensity = false := rfl
  obtain ⟨r, hr⟩ : ∃ r, r = badRecord ++ [0xff] := ⟨_, rfl⟩
  have hdrop : r.dropLast = badRecord := by rw [hr, List.dropLast_concat]
  have hsync : gcrSync <+: r := by
    rw [hr, badRecord, List.append_assoc, List.append_assoc]
    exact List.prefix_append ..
  have hsync' : gcrSync <+: r.dropLast := by
    rw [hdrop, badRecord, List.append_assoc]
    exact List.prefix_append ..
  have hlen : r.length = gcrRecordBytes := by
    rw [hr, badRecord, List.length_append, List.length_append, List.length_append, List.length_replicate]
    rfl
  have hv : gcrVerdict r = .take r.length := by
    have htrailer : mid r 707 3 = gcrTrailer := by
      have h : (gcrSync ++ List.replicate 704 (0 : UInt8)).length = 707 := by
        rw [List.length_append, List.length_replicate]
        rfl
      rw [hr, badRecord, List.append_assoc, mid_append_right h.le, h]
      rfl
    unfold gcrVerdict
    rw [htrailer, hlen, if_neg (Nat.lt_irrefl _), if_pos rfl]
  -- all of the record but its last byte leaves the disk as it is
  have hcut : (cut (format (plainDisk 0).highDensity) ((plainDisk 0).writeBytes ++
      (gcrBytes badRecord).map DiskByte.value)).1 = [] := by
    rw [map_value_gcrBytes, hempty, hhd, List.nil_append, ← hdrop]
    exact congrArg Prod.fst (cut_dropLast (F := gcrFormat) hsync hv hsync')
  obtain ⟨hidle, -⟩ := write_idle hready.wf hready.ready hcut
  have hpending : Kept (plainDisk 0) pendingDisk := hidle.kept
  refine ⟨hready.write _, (saves_plainDisk 0).of_sameDisk hpending.sameDisk, ?_, ?_⟩
  · unfold Kept at hpending
    rw [hpending]
    exact (rfl : (plainDisk 0).writeFailed = false)
  · have hi : pendingDisk.inserted = true := (hready.write _).ready.2.1
    obtain ⟨t, ht⟩ : ∃ t, gcrBytes (pendingDisk.buildTrackBytes pendingDisk.currentTrack
        pendingDisk.currentSide) = { value := 0xff } :: t := by
      rw [buildTrackBytes_eq hi]
      exact ⟨_, rfl⟩
    have hbytes : (gcrBytes badRecord ++ [({ value := 0xff } : DiskByte)]).map DiskByte.value =
        [] ++ r := by
      rw [List.map_append, map_value_gcrBytes, List.nil_append, List.map_singleton, hr]
    obtain ⟨x, -, -, hact, -⟩ := write_frame hready.wf hready.ready hbytes
      (by rw [hempty, hhd]; decide) (by rw [hhd]; exact hsync) (by rw [hhd]; exact hv)
    rw [ht]
    refine failed_of_pending ?_
    unfold Kept at hact
    rw [hact, hr]
    exact act_badRecord x

end FloppyDiskImage

end CuteMac.Floppy
