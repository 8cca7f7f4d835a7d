/-
  The invariant of a floppy image.

  * `Wf`: sizes, tags, header, head position, write buffer and track cache fit
    each other;
  * `wf_load`: loading establishes it;
  * `wf_apply`: every operation keeps it;
  * `wf_of_reachable`: it holds in every reachable state.
-/
import CuteMac.Floppy.Scan

namespace CuteMac.Floppy

open Slice Framing

namespace FloppyDiskImage

/-! ## The invariant -/

/-- The header of a Disk Copy container tells the sizes of its data and its tags. -/
structure HeaderFits (d : FloppyDiskImage) : Prop where
  length : d.diskCopyHeader.length = headerBytes
  dataSize : (readBe32 d.diskCopyHeader 64).toNat = d.data.length
  tagSize : (readBe32 d.diskCopyHeader 68).toNat = d.tags.length * tagBytesPerSector

/-- A track cache that is in use is the one of the track under the head, for some contents. -/
structure CacheFits (d : FloppyDiskImage) : Prop where
  track : d.trackCache.track = d.currentTrack
  side : d.trackCache.side = d.currentSide
  cursor : d.trackCache.cursor < d.trackCache.bytes.length
  mfm : d.highDensity = true → ∃ data : List UInt8, data.length = d.data.length ∧
    d.trackCache.bytes = (mfmTrack data d.currentTrack d.currentSide).map DiskByte.value

/-- What holds of the image of every drive. -/
structure Wf (d : FloppyDiskImage) : Prop where
  path : d.inserted = true → d.path ≠ ""
  size : d.inserted = true → d.data.length = raw400KBytes ∨ d.data.length = raw800KBytes ∨
    d.data.length = raw1440KBytes
  doubleSided : d.inserted = true → d.doubleSided = (d.data.length != raw400KBytes)
  highDensity : d.inserted = true → d.highDensity = (d.data.length == raw1440KBytes)
  header : d.kind = .diskCopy42 → d.HeaderFits
  tags : d.tags = [] ∨ d.tags.length = d.data.length / bytesPerSector
  tag : ∀ t ∈ d.tags, t.length = tagBytesPerSector
  track : d.currentTrack < tracksPerSide
  side : d.currentSide < if d.doubleSided then 2 else 1
  settled : Settled (format d.highDensity) d.writeBytes
  marks : d.writeMarks.length = d.writeBytes.length
  cache : d.trackCache.bytes ≠ [] → d.CacheFits

theorem settled_nil' (highDensity : Bool) : Settled (format highDensity) ([] : List UInt8) :=
  settled_nil

theorem wf_noDisk {d : FloppyDiskImage} (hk : d.kind = .empty) (ht : d.tags = [])
    (htrack : d.currentTrack = 0) (hside : d.currentSide = 0) (hb : d.writeBytes = [])
    (hm : d.writeMarks = []) (hc : d.trackCache = {}) : d.Wf := by
  have hi : ¬ d.inserted = true := by simp [inserted, hk]
  refine ⟨fun h => absurd h hi, fun h => absurd h hi, fun h => absurd h hi, fun h => absurd h hi,
    fun h => ?_, Or.inl ht, ?_, ?_, ?_, ?_, ?_, fun h => ?_⟩
  · rw [hk] at h
    cases h
  · rw [ht]
    intro t h
    cases h
  · rw [htrack]
    decide
  · rw [hside]
    split <;> decide
  · rw [hb]
    exact settled_nil' _
  · rw [hb, hm]
    rfl
  · rw [hc] at h
    exact absurd rfl h

/-- A write leaves the header, the geometry and the tags as they are. -/
theorem Wf.of_sameDisk {d d' : FloppyDiskImage} (hd : d.Wf) (h : SameDisk d d')
    (hs : Settled (format d'.highDensity) d'.writeBytes)
    (hm : d'.writeMarks.length = d'.writeBytes.length)
    (hc : d'.trackCache.bytes ≠ [] → d'.CacheFits) : d'.Wf := by
  have hi : d'.inserted = d.inserted := by rw [inserted, inserted, h.kind]
  refine ⟨?_, ?_, ?_, ?_, ?_, ?_, h.tagLength hd.tag, ?_, ?_, hs, hm, hc⟩
  · rw [hi, h.path]; exact hd.path
  · rw [hi, h.dataLength]; exact hd.size
  · rw [hi, h.dataLength, h.doubleSided]; exact hd.doubleSided
  · rw [hi, h.dataLength, h.highDensity]; exact hd.highDensity
  · intro hk
    obtain ⟨h1, h2, h3⟩ := hd.header (h.kind ▸ hk)
    refine ⟨?_, ?_, ?_⟩
    · rw [h.diskCopyHeader, h1]
    · rw [h.diskCopyHeader, h.dataLength, h2]
    · rw [h.diskCopyHeader, h.tagsLength, h3]
  · rw [h.dataLength, h.tagsLength]
    rcases hd.tags with ht | ht
    · left
      have hl := h.tagsLength
      rw [ht] at hl
      exact List.length_eq_zero_iff.1 hl
    · exact Or.inr ht
  · rw [h.currentTrack]; exact hd.track
  · rw [h.currentSide, h.doubleSided]; exact hd.side

/-! ## Saving -/

/-- Saving fails only where the file cannot be written. -/
theorem persistImage_ok {d x : FloppyDiskImage} (hd : d.Wf) (hx : SameDisk d x)
    (hi : d.inserted = true) (hw : d.writable = true) (hok : ∀ n, d.host.saveOk n = true) :
    x.persistImage.2 = true := by
  have hfile : ∃ file, x.imageBytes = some file := by
    unfold imageBytes
    split
    · rename_i hk
      rw [if_neg (by rw [hx.diskCopyHeader, (hd.header (hx.kind ▸ hk)).length]; exact not_not.2 rfl)]
      exact ⟨_, rfl⟩
    · exact ⟨_, rfl⟩
  obtain ⟨file, hfile⟩ := hfile
  unfold persistImage
  rw [if_neg (by simp [hx.writable, hx.path, hw, hd.path hi]), hfile]
  simp [Host.save, hx.saveOk, hok]

/-! ## The track cache -/

theorem CacheFits.of_sameDisk {d d' : FloppyDiskImage} (hc : d.CacheFits) (h : SameDisk d d')
    (ht : d'.trackCache = d.trackCache) : d'.CacheFits := by
  obtain ⟨h1, h2, h3, h4⟩ := hc
  refine ⟨?_, ?_, ?_, ?_⟩
  · rw [ht, h.currentTrack, h1]
  · rw [ht, h.currentSide, h2]
  · rw [ht]; exact h3
  · rw [h.highDensity, ht, h.currentTrack, h.currentSide, h.dataLength]
    exact h4

theorem cacheFits_rebuildTrackCache {d : FloppyDiskImage}
    (h : d.rebuildTrackCache.trackCache.bytes ≠ []) : d.rebuildTrackCache.CacheFits := by
  refine ⟨rfl, rfl, List.length_pos_iff.2 h, fun hh => ⟨d.data, rfl, ?_⟩⟩
  exact if_pos hh

/-- After a look at the cache, it is the one of the track under the head. -/
theorem cacheFits_ensureTrackCache {d : FloppyDiskImage} (hd : d.trackCache.bytes ≠ [] → d.CacheFits)
    (h : d.ensureTrackCache.trackCache.bytes ≠ []) : d.ensureTrackCache.CacheFits := by
  unfold ensureTrackCache at h ⊢
  split at h
  · rw [if_pos (by assumption)]
    exact cacheFits_rebuildTrackCache h
  · rw [if_neg (by assumption)]
    exact hd h

theorem cacheFits_advanceCursor {d : FloppyDiskImage} (hd : d.CacheFits) :
    d.advanceCursor.CacheFits := by
  obtain ⟨h1, h2, h3, h4⟩ := hd
  exact ⟨h1, h2, Nat.mod_lt _ (Nat.zero_lt_of_lt h3), h4⟩

theorem cacheFits_takeByte {d : FloppyDiskImage} (hd : d.trackCache.bytes ≠ [] → d.CacheFits)
    (h : d.takeByte.trackCache.bytes ≠ []) : d.takeByte.CacheFits := by
  have he : d.ensureTrackCache.inferSector.trackCache = d.ensureTrackCache.trackCache := by
    rw [inferSector_eq]
  have hs : SameDisk d.ensureTrackCache d.ensureTrackCache.inferSector :=
    SameDisk.of (by rw [inferSector_eq])
  simp only [takeByte] at h ⊢
  split at h
  · rename_i hb
    exact absurd hb h
  · rename_i hb
    rw [if_neg hb]
    rw [he] at hb
    exact cacheFits_advanceCursor ((cacheFits_ensureTrackCache hd hb).of_sameDisk hs he)

/-- A commit drops the cache. -/
theorem trackCache_commitSector (d : FloppyDiskImage) (k : Int) (data tags : List UInt8) :
    (d.commitSector k data tags).1.trackCache = d.trackCache ∨
      (d.commitSector k data tags).1.trackCache = {} := by
  by_cases h : data.length = bytesPerSector ∧ 0 ≤ d.sectorBlock k ∧
      d.sectorBlock k < (d.data.length / bytesPerSector : Nat)
  · obtain ⟨hdata, h0, hlt⟩ := h
    obtain ⟨blk, hblk⟩ := Int.eq_ofNat_of_zero_le h0
    rw [commitSector_eq hdata hblk (by omega) tags]
    by_cases hp : (d.putSector blk data tags).persistImage.2 = true
    · exact Or.inr (if_pos hp)
    · exact Or.inl (if_neg hp)
  · rw [commitSector_of_not h]
    exact Or.inl rfl

theorem trackCache_act (highDensity : Bool) (r : List UInt8) (d : FloppyDiskImage) :
    (act highDensity r d).trackCache = d.trackCache ∨ (act highDensity r d).trackCache = {} := by
  cases highDensity with
  | false =>
    simp only [act, gcrRecord]
    split
    · split
      · exact trackCache_commitSector ..
      · exact Or.inl rfl
    · exact Or.inl rfl
  | true =>
    simp only [act]
    split
    · simp only [mfmIdField]
      split
      · exact Or.inl rfl
      · split <;> exact Or.inl rfl
    · simp only [mfmDataField]
      split
      · exact trackCache_commitSector ..
      · split <;> exact Or.inl rfl

theorem cacheFits_acts (highDensity : Bool) (rs : List (List UInt8)) {d : FloppyDiskImage}
    (hd : d.trackCache.bytes ≠ [] → d.CacheFits)
    (h : (acts highDensity d rs).trackCache.bytes ≠ []) : (acts highDensity d rs).CacheFits := by
  induction rs generalizing d with
  | nil => exact hd h
  | cons r rs ih =>
    refine ih (fun h' => ?_) h
    rcases trackCache_act highDensity r d with ht | ht
    · exact (hd (ht ▸ h')).of_sameDisk (sameDisk_act highDensity r d) ht
    · rw [ht] at h'
      exact absurd rfl h'

/-! ## Writing -/

theorem length_restMarks {d : FloppyDiskImage} (hm : d.writeMarks.length = d.writeBytes.length)
    {rest : List UInt8} (hr : rest <:+ d.writeBytes) : (d.restMarks rest).length = rest.length := by
  have := hr.length_le
  rw [restMarks, List.length_drop]
  omega

theorem wf_scanned {d : FloppyDiskImage} (hd : d.Wf) {x : FloppyDiskImage} (hx : SameDisk d x)
    (hc : x.trackCache.bytes ≠ [] → x.CacheFits)
    (hm : x.writeMarks.length = x.writeBytes.length) :
    (scanned (format d.highDensity) d.highDensity x).Wf := by
  have hs := hx.trans (sameDisk_scanned (format d.highDensity) d.highDensity x)
  refine hd.of_sameDisk hs ?_ ?_ fun h => ?_
  · rw [hs.highDensity]
    exact settled_rest _
  · exact length_restMarks hm (cut_rest_suffix _)
  · exact (cacheFits_acts d.highDensity _ hc h).of_sameDisk (SameDisk.of rfl) rfl

theorem wf_writeDiskByte {d : FloppyDiskImage} (hd : d.Wf) (value : UInt8) (mark : Bool) :
    (d.writeDiskByte value mark).1.Wf := by
  by_cases hr : d.Ready
  · rw [writeDiskByte_fst hr]
    refine wf_scanned hd ((sameDisk_takeByte d).trans (SameDisk.of rfl)) (fun h => ?_) ?_
    · exact (cacheFits_takeByte hd.cache h).of_sameDisk (SameDisk.of rfl) rfl
    · have := hd.marks
      simp [buffered, this]
  · have hn : (!d.writable || !d.inserted || !d.motorOn) = true := by
      simpa [Ready, or_assoc, imp_iff_not_or] using hr
    unfold writeDiskByte
    rw [if_pos hn]
    exact hd.of_sameDisk (SameDisk.of rfl) hd.settled hd.marks fun h =>
      (hd.cache h).of_sameDisk (SameDisk.of rfl) rfl

/-- Nothing of a settled write buffer is processed. -/
theorem processWrites_settled {d : FloppyDiskImage}
    (hd : Settled (format d.highDensity) d.writeBytes) : d.processWrites.1 = d := by
  rw [processWrites_fst, scanned, hd]
  have hm : d.restMarks d.writeBytes = d.writeMarks := by simp [restMarks]
  rw [hm]
  rfl

/-- The end of a write session. -/
theorem flushWrites_fst {d : FloppyDiskImage} (hd : d.Wf) : d.flushWrites.1 =
    { d with writeBytes := [], writeMarks := [], writeMfmSector := -1, writeFailed := false } := by
  simp only [flushWrites, processWrites_settled hd.settled, ite_self]

theorem wf_flushWrites {d : FloppyDiskImage} (hd : d.Wf) : d.flushWrites.1.Wf := by
  rw [flushWrites_fst hd]
  exact hd.of_sameDisk (SameDisk.of rfl) (settled_nil' _) rfl fun h =>
    (hd.cache h).of_sameDisk (SameDisk.of rfl) rfl

/-! ## The head and the motor -/

theorem Wf.moveHead {d : FloppyDiskImage} (hd : d.Wf) {track side : Nat}
    (ht : track < tracksPerSide) (hs : side < if d.doubleSided then 2 else 1) :
    Wf { d with currentTrack := track, currentSide := side, trackCache := {} } :=
  ⟨hd.path, hd.size, hd.doubleSided, hd.highDensity,
    fun h => ⟨(hd.header h).length, (hd.header h).dataSize, (hd.header h).tagSize⟩,
    hd.tags, hd.tag, ht, hs, hd.settled, hd.marks, fun h => absurd rfl h⟩

theorem clampTrack_lt (track : Int) : clampTrack track < tracksPerSide := by
  simp only [clampTrack, tracksPerSide]
  omega

theorem clampSide_lt (doubleSided : Bool) (side : Int) :
    clampSide doubleSided side < if doubleSided then 2 else 1 := by
  unfold clampSide
  split <;> omega

theorem wf_setCurrentTrack {d : FloppyDiskImage} (hd : d.Wf) (track : Int) :
    (d.setCurrentTrack track).Wf := by
  unfold setCurrentTrack
  split
  · exact (wf_flushWrites hd).moveHead (clampTrack_lt track) (wf_flushWrites hd).side
  · exact hd

theorem wf_setCurrentSide {d : FloppyDiskImage} (hd : d.Wf) (side : Int) :
    (d.setCurrentSide side).Wf := by
  unfold setCurrentSide
  split
  · refine (wf_flushWrites hd).moveHead (wf_flushWrites hd).track ?_
    have hs : d.flushWrites.1.doubleSided = d.doubleSided := by rw [flushWrites_fst hd]
    rw [hs]
    exact clampSide_lt d.doubleSided side
  · exact hd

/-- Switches and traces are no part of the invariant. -/
theorem Wf.switched {d : FloppyDiskImage} (hd : d.Wf) {d' : FloppyDiskImage} (h : d' = { d with
    motorOn := d'.motorOn
    mediaChanged := d'.mediaChanged
    forceReadOnly := d'.forceReadOnly
    traceEnabled := d'.traceEnabled
    traceShift := d'.traceShift
    traceEvents := d'.traceEvents
    lastNibbles := d'.lastNibbles
    host := d'.host }) : d'.Wf := by
  rw [h]
  refine ⟨hd.path, hd.size, hd.doubleSided, hd.highDensity, fun h => ?_, hd.tags, hd.tag, hd.track,
    hd.side, hd.settled, hd.marks, fun h => ?_⟩
  · exact ⟨(hd.header h).length, (hd.header h).dataSize, (hd.header h).tagSize⟩
  · exact ⟨(hd.cache h).track, (hd.cache h).side, (hd.cache h).cursor, (hd.cache h).mfm⟩

theorem wf_setMotorOn {d : FloppyDiskImage} (hd : d.Wf) (on : Bool) : (d.setMotorOn on).Wf := by
  simp only [setMotorOn]
  split
  · exact (wf_flushWrites hd).switched rfl
  · exact hd.switched rfl

theorem wf_eject (d : FloppyDiskImage) : d.eject.Wf := wf_noDisk rfl rfl rfl rfl rfl rfl rfl

/-! ## Reading -/

theorem wf_ensureTrackCache {d : FloppyDiskImage} (hd : d.Wf) : d.ensureTrackCache.Wf := by
  have he := ensureTrackCache_eq d
  have hs : SameDisk d d.ensureTrackCache := SameDisk.of (by rw [he])
  refine hd.of_sameDisk hs ?_ ?_ (cacheFits_ensureTrackCache hd.cache)
  · rw [he]; exact hd.settled
  · rw [he]; exact hd.marks

theorem wf_peekDiskByte {d : FloppyDiskImage} (hd : d.Wf) : d.peekDiskByte.1.Wf := by
  simp only [peekDiskByte]
  split
  · exact hd
  · split <;> exact wf_ensureTrackCache hd

theorem Wf.traced {d : FloppyDiskImage} (hd : d.Wf) (shift : UInt32) (events : List String)
    (nibbles : List UInt8) :
    Wf { d with traceShift := shift, traceEvents := events, lastNibbles := nibbles } :=
  hd.switched rfl

theorem wf_traceNibble {d : FloppyDiskImage} (hd : d.Wf) (value : UInt8) :
    (d.traceNibble value).Wf := by
  simp only [traceNibble]
  split
  · exact hd
  · split <;> exact hd.traced ..

theorem wf_nextDiskByte {d : FloppyDiskImage} (hd : d.Wf) : d.nextDiskByte.1.Wf := by
  have hp := wf_peekDiskByte hd
  simp only [nextDiskByte]
  split
  · exact hp
  · rename_i h
    have hb : d.peekDiskByte.1.trackCache.bytes ≠ [] := fun hb => h (by simp [hb])
    have ha : d.peekDiskByte.1.advanceCursor.Wf :=
      hp.of_sameDisk (SameDisk.of rfl) hp.settled hp.marks fun _ =>
        cacheFits_advanceCursor (hp.cache hb)
    exact wf_traceNibble ha _

/-! ## Loading -/

theorem wf_insert {d : FloppyDiskImage} {path : String} {kind : Kind} {header data : List UInt8}
    {tags : List (List UInt8)} {doubleSided highDensity : Bool} (hpath : path ≠ "")
    (hsize : data.length = raw400KBytes ∨ data.length = raw800KBytes ∨ data.length = raw1440KBytes)
    (hds : doubleSided = (data.length != raw400KBytes))
    (hhd : highDensity = (data.length == raw1440KBytes))
    (hheader : kind = .diskCopy42 → header.length = headerBytes ∧
      (readBe32 header 64).toNat = data.length ∧
      (readBe32 header 68).toNat = tags.length * tagBytesPerSector)
    (htags : tags = [] ∨ tags.length = data.length / bytesPerSector)
    (htag : ∀ t ∈ tags, t.length = tagBytesPerSector) :
    (d.insert path kind header data tags doubleSided highDensity).Wf where
  path := fun _ => hpath
  size := fun _ => hsize
  doubleSided := fun _ => hds
  highDensity := fun _ => hhd
  header := fun hk => ⟨(hheader hk).1, (hheader hk).2.1, (hheader hk).2.2⟩
  tags := htags
  tag := htag
  track := (by decide : 0 < tracksPerSide)
  side := by
    change 0 < _
    split <;> decide
  settled := settled_nil' _
  marks := rfl
  cache := fun h => absurd rfl h

theorem wf_loadRaw {d : FloppyDiskImage} {path : String} (hpath : path ≠ "") {bytes : List UInt8}
    {kind : Kind} (h : (bytes.length = raw400KBytes ∧ kind = .raw400K) ∨
      (bytes.length = raw800KBytes ∧ kind = .raw800K) ∨
      (bytes.length = raw1440KBytes ∧ kind = .raw1440K)) : (d.loadRaw path bytes kind).1.Wf := by
  refine wf_insert hpath ?_ ?_ ?_ ?_ (Or.inl rfl) (fun t ht => by cases ht)
  all_goals rcases h with ⟨hl, rfl⟩ | ⟨hl, rfl⟩ | ⟨hl, rfl⟩
  all_goals first
    | exact Or.inl hl
    | exact Or.inr (Or.inl hl)
    | exact Or.inr (Or.inr hl)
    | (rw [hl]; decide)

theorem length_padded (bytes : List UInt8) (size : Nat) : (padded bytes size).length = size := by
  simp only [padded, List.length_append, List.length_take, List.length_replicate]
  omega

/-- When a Disk Copy container is accepted. -/
structure DiskCopyFile (bytes : List UInt8) : Prop where
  dataSize : (readBe32 bytes 64).toNat = raw400KBytes ∨ (readBe32 bytes 64).toNat = raw800KBytes ∨
    (readBe32 bytes 64).toNat = raw1440KBytes
  tagSize : (readBe32 bytes 68).toNat = 0 ∨
    (readBe32 bytes 68).toNat = (readBe32 bytes 64).toNat / bytesPerSector * tagBytesPerSector
  length : headerBytes + (readBe32 bytes 64).toNat + (readBe32 bytes 68).toNat ≤ bytes.length

/-- The tags of an accepted container. -/
def diskCopyTags (bytes : List UInt8) : List (List UInt8) :=
  let tagBytes := mid bytes (headerBytes + (readBe32 bytes 64).toNat) (readBe32 bytes 68).toNat
  (List.range ((readBe32 bytes 68).toNat / tagBytesPerSector)).map (block tagBytesPerSector tagBytes)

/-- The sizes do not overflow their 32-bit sum once the tag size is accepted. -/
theorem loadDiskCopy42_of {d : FloppyDiskImage} {path : String} {bytes : List UInt8}
    (h : DiskCopyFile bytes) : d.loadDiskCopy42 path bytes =
      (d.insert path .diskCopy42 (bytes.take headerBytes)
        (mid bytes headerBytes (readBe32 bytes 64).toNat) (diskCopyTags bytes)
        ((readBe32 bytes 64).toNat != raw400KBytes) ((readBe32 bytes 64).toNat == raw1440KBytes),
        true) := by
  obtain ⟨h1, h2, h3⟩ := h
  have hlt : headerBytes + (readBe32 bytes 64).toNat + (readBe32 bytes 68).toNat < 2 ^ 32 := by
    simp only [raw400KBytes, raw800KBytes, raw1440KBytes, bytesPerSector, tagBytesPerSector,
      headerBytes] at *
    omega
  simp only [loadDiskCopy42]
  rw [Nat.mod_eq_of_lt hlt, if_neg (by omega), if_neg (by omega)]
  rfl

theorem loadDiskCopy42_of_not {d : FloppyDiskImage} {path : String} {bytes : List UInt8}
    (h : ¬ DiskCopyFile bytes) : d.loadDiskCopy42 path bytes = (d, false) := by
  simp only [loadDiskCopy42]
  split
  · rfl
  · rename_i h1
    split
    · rfl
    · rename_i h2
      refine absurd ⟨by omega, by omega, ?_⟩ h
      have hlt : headerBytes + (readBe32 bytes 64).toNat + (readBe32 bytes 68).toNat < 2 ^ 32 := by
        simp only [raw400KBytes, raw800KBytes, raw1440KBytes, bytesPerSector, tagBytesPerSector,
          headerBytes] at *
        omega
      rw [Nat.mod_eq_of_lt hlt] at h1
      omega

theorem length_diskCopyTags {bytes : List UInt8} :
    (diskCopyTags bytes).length = (readBe32 bytes 68).toNat / tagBytesPerSector := by
  simp [diskCopyTags]

theorem mem_diskCopyTags {bytes : List UInt8} (h : DiskCopyFile bytes) :
    ∀ t ∈ diskCopyTags bytes, t.length = tagBytesPerSector := by
  intro t ht
  simp only [diskCopyTags, List.mem_map, List.mem_range] at ht
  obtain ⟨k, hk, rfl⟩ := ht
  have hl := h.length
  refine length_block ((Nat.le_div_iff_mul_le (by decide)).1 ?_)
  rw [length_mid, Nat.min_eq_left (by omega)]
  exact hk

theorem wf_loadDiskCopy42 {d : FloppyDiskImage} {path : String} (hpath : path ≠ "")
    {bytes : List UInt8} (h : DiskCopyFile bytes) : (d.loadDiskCopy42 path bytes).1.Wf := by
  have hlen := h.length
  have hdata : (mid bytes headerBytes (readBe32 bytes 64).toNat).length =
      (readBe32 bytes 64).toNat := by
    rw [length_mid]
    omega
  have hhead : headerBytes ≤ bytes.length := by omega
  rw [loadDiskCopy42_of h]
  refine wf_insert hpath ?_ ?_ ?_ (fun _ => ⟨?_, ?_, ?_⟩) ?_ (mem_diskCopyTags h)
  · rw [hdata]; exact h.dataSize
  · rw [hdata]
  · rw [hdata]
  · rw [List.length_take]
    omega
  · rw [readBe32_take (by decide) hhead, hdata]
  · rw [readBe32_take (by decide) hhead, length_diskCopyTags]
    rcases h.tagSize with ht | ht
    · rw [ht, Nat.zero_div, Nat.zero_mul]
    · rw [ht, Nat.mul_div_cancel _ (by decide)]
  · rw [hdata]
    rcases h.tagSize with ht | ht
    · left
      rw [← List.length_eq_zero_iff, length_diskCopyTags, ht, Nat.zero_div]
    · right
      rw [length_diskCopyTags, ht, Nat.mul_div_cancel _ (by decide)]

/-- What a load does: the drive stays as it is, or a well-formed image is in it. -/
theorem load_cases (d : FloppyDiskImage) (path : String) (readOnly : Bool) :
    d.load path readOnly = ({ d with forceReadOnly := readOnly }, false) ∨
      (d.load path readOnly).2 = true ∧ (d.load path readOnly).1.Wf := by
  simp only [load, Host.readAll]
  by_cases hpath : path = ""
  · exact Or.inl (by rw [if_pos hpath])
  rw [if_neg hpath]
  cases hf : d.host.files path with
  | none => exact Or.inl rfl
  | some bytes =>
    simp only []
    split
    · exact Or.inr ⟨rfl, wf_loadRaw hpath (Or.inl ⟨‹_›, rfl⟩)⟩
    split
    · exact Or.inr ⟨rfl, wf_loadRaw hpath (Or.inr (Or.inl ⟨‹_›, rfl⟩))⟩
    split
    · exact Or.inr ⟨rfl, wf_loadRaw hpath (Or.inr (Or.inr ⟨‹_›, rfl⟩))⟩
    split
    · exact Or.inr ⟨rfl, wf_loadRaw hpath (Or.inr (Or.inl ⟨length_padded .., rfl⟩))⟩
    split
    · exact Or.inr ⟨rfl, wf_loadRaw hpath (Or.inr (Or.inr ⟨length_padded .., rfl⟩))⟩
    split
    · by_cases h : DiskCopyFile bytes
      · refine Or.inr ⟨?_, wf_loadDiskCopy42 hpath h⟩
        rw [loadDiskCopy42_of h]
      · exact Or.inl (loadDiskCopy42_of_not h)
    · exact Or.inl rfl

/-! ## Runs -/

/-- Every operation keeps the invariant. -/
theorem wf_apply {d : FloppyDiskImage} (hd : d.Wf) (op : Op) : (d.apply op).Wf := by
  cases op with
  | load path readOnly =>
    rcases load_cases d path readOnly with h | h
    · rw [apply, h]
      exact hd.switched rfl
    · exact h.2
  | eject => exact wf_eject d
  | setCurrentTrack track => exact wf_setCurrentTrack hd track
  | step towardTrackZero => exact wf_setCurrentTrack hd _
  | setCurrentSide side => exact wf_setCurrentSide hd side
  | setMotorOn on => exact wf_setMotorOn hd on
  | peekDiskByte => exact wf_peekDiskByte hd
  | nextDiskByte => exact wf_nextDiskByte hd
  | writeDiskByte value mark => exact wf_writeDiskByte hd value mark
  | flushWrites => exact wf_flushWrites hd
  | invalidateTrackCache =>
    exact hd.of_sameDisk (SameDisk.of rfl) hd.settled hd.marks fun h => absurd rfl h
  | clearMediaChanged => exact hd.switched rfl
  | setTraceEnabled enabled => exact hd.switched rfl
  | clearTrace => exact hd.switched rfl
  | world host => exact hd.switched rfl

end FloppyDiskImage

/-- The states of a drive: what a run of operations makes of a drive without a disk. -/
def Reachable (d : FloppyDiskImage) : Prop :=
  ∃ (host : Host) (ops : List Op), d = Machine.run FloppyDiskImage.apply { host := host } ops

theorem wf_of_reachable {d : FloppyDiskImage} (h : Reachable d) : d.Wf := by
  obtain ⟨host, ops, rfl⟩ := h
  have h0 : FloppyDiskImage.Wf { host := host } :=
    FloppyDiskImage.wf_noDisk rfl rfl rfl rfl rfl rfl rfl
  exact Machine.run_inv (I := FloppyDiskImage.Wf)
    (fun d op hd => FloppyDiskImage.wf_apply hd op) h0 ops

end CuteMac.Floppy
