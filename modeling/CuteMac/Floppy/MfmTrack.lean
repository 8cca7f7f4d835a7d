/-
  An MFM track that is written as a whole.

  * `write_mfmSector`: one sector, with its two fields and the gaps around them;
  * `write_mfmTrack`: a track that is built from the contents of some disk;
  * `mfmTrack_writeBack`: a track that is written back as it was read.
-/
import CuteMac.Floppy.MfmFraming
import CuteMac.Floppy.Tracks

namespace CuteMac.Floppy.FloppyDiskImage

open Slice Framing

/-! ## Sectors -/

/-- What a sector of a track that is written commits. -/
def mfmCommit (d : FloppyDiskImage) (data : List UInt8) (sector : Nat) : Commit where
  block := d.mfmBlock sector
  data := block bytesPerSector data (d.mfmBlock sector)
  tags := []
  saved := true

/-- Between two sectors: the disk is ready, and no sync byte is pending. -/
structure MfmIdle (d : FloppyDiskImage) : Prop where
  ready : d.MfmReady
  saves : d.Saves
  noSync : 0xa1 ∉ d.writeBytes

section
variable {d : FloppyDiskImage} {data : List UInt8}

theorem notMem_mfmRepeated {value x : UInt8} {count : Nat} (h : x ≠ value) :
    x ∉ (mfmRepeated value count).map DiskByte.value := by
  rw [map_value_mfmRepeated]
  exact fun hm => h (List.eq_of_mem_replicate hm)

/-- One sector of the track under the head, with the contents of some disk. -/
theorem write_mfmSector (h : d.MfmIdle) (hlen : data.length = raw1440KBytes) {k : Nat}
    (hk : k < sectorsPerTrack) :
    (d.writeDiskBytes (mfmSector data d.currentTrack d.currentSide k)).MfmIdle ∧
      Wrote d (d.writeDiskBytes (mfmSector data d.currentTrack d.currentSide k))
        (d.mfmCommit data k) := by
  obtain ⟨hready, hsaves, hno⟩ := h
  have hblock : (block bytesPerSector data (d.mfmBlock k)).length = bytesPerSector := by
    have hlt := hready.mfmBlock_lt hk
    rw [hready.length, ← hlen] at hlt
    exact length_block ((Nat.le_div_iff_mul_le (by decide)).1 hlt)
  -- the two fields, each with the gap in front of it, and the gap behind them
  obtain ⟨id, hid⟩ : ∃ id, id = mfmRepeated 0x00 12 ++
      mfmField 0xfe (mfmAddress d.currentTrack d.currentSide k) := ⟨_, rfl⟩
  obtain ⟨field, hfield⟩ : ∃ field, field = mfmRepeated 0x4e 22 ++ mfmRepeated 0x00 12 ++
      mfmField 0xfb (block bytesPerSector data (d.mfmBlock k)) := ⟨_, rfl⟩
  have hsplit : mfmSector data d.currentTrack d.currentSide k =
      id ++ field ++ mfmRepeated 0x4e 101 := by
    rw [hid, hfield]
    simp only [mfmSector, mfmBlock, List.append_assoc]
  have hidv : id.map DiskByte.value = List.replicate 12 0x00 ++
      mfmFieldBytes 0xfe (mfmAddress d.currentTrack d.currentSide k) := by
    rw [hid, List.map_append, map_value_mfmRepeated, map_value_mfmField]
  have hfieldv : field.map DiskByte.value = (List.replicate 22 0x4e ++ List.replicate 12 0x00) ++
      mfmFieldBytes 0xfb (block bytesPerSector data (d.mfmBlock k)) := by
    rw [hfield, List.map_append, List.map_append, map_value_mfmRepeated, map_value_mfmRepeated,
      map_value_mfmField]
  obtain ⟨hkept, hempty, hsector⟩ := write_idField hready hk hidv hno (by decide)
  have hready₁ := hready.write id
  have hknown := (idle_takeByte (d.writeDiskBytes id)).sector (by omega)
  obtain ⟨saved, hwrote, hsaved, hempty'⟩ := write_dataField hready₁ hk (hknown.trans hsector)
    (Or.inl rfl) hblock hfieldv (by rw [hempty]; exact List.not_mem_nil) (by decide)
  obtain ⟨hidle, hgap⟩ := write_mfmGap (hready₁.write field) (s := mfmRepeated 0x4e 101)
    (by rw [hempty']; decide) (notMem_mfmRepeated (by decide))
  have hblk : (d.writeDiskBytes id).mfmBlock k = d.mfmBlock k := by
    rw [mfmBlock, mfmBlock, hkept.sameDisk.currentTrack, hkept.sameDisk.currentSide]
  obtain rfl : saved = true := hsaved (hsaves.of_sameDisk hkept.sameDisk)
  rw [hsplit, writeDiskBytes_append, writeDiskBytes_append]
  rw [hblk] at hwrote
  refine ⟨⟨(hready₁.write field).write _, ?_, hgap ?_⟩, hwrote.congr hkept hidle.kept⟩
  · exact hsaves.of_sameDisk (hkept.sameDisk.trans (hwrote.same.trans hidle.kept.sameDisk))
  · rw [← List.length_map (f := DiskByte.value), map_value_mfmRepeated, List.length_replicate]
    decide

/-! ## Tracks -/

/-- The gap in front of the first sector has no sync bytes. -/
theorem notMem_mfmIndex : 0xa1 ∉ mfmIndex.map DiskByte.value := by
  have hfield : 0xa1 ∉ (mfmField 0xfc [] 0xc2).map DiskByte.value := by decide +kernel
  rw [mfmIndex, List.map_append, List.map_append, List.map_append]
  simp only [List.mem_append, not_or]
  exact ⟨⟨⟨notMem_mfmRepeated (by decide), notMem_mfmRepeated (by decide)⟩, hfield⟩,
    notMem_mfmRepeated (by decide)⟩

theorem length_mfmIndex : mfmIndex.length = 148 := by
  simp [mfmIndex, mfmField, mfmRepeated, mfmBytes]

theorem mfmIdle_writeIndex (h : d.MfmReady) (hs : d.Saves) (hp : ¬ mfmSync <:+: d.writeBytes) :
    Kept d (d.writeDiskBytes mfmIndex) ∧ (d.writeDiskBytes mfmIndex).MfmIdle := by
  obtain ⟨hidle, hgap⟩ := write_mfmGap h hp notMem_mfmIndex
  exact ⟨hidle.kept, h.write _, hs.of_sameDisk hidle.kept.sameDisk,
    hgap (by rw [length_mfmIndex]; decide)⟩

/-- A track of the disk under the head, with the contents of some disk. -/
theorem write_mfmTrack (h : d.MfmReady) (hs : d.Saves) (hp : ¬ mfmSync <:+: d.writeBytes)
    (hlen : data.length = raw1440KBytes) :
    WroteAll d (d.writeDiskBytes (mfmTrack data d.currentTrack d.currentSide))
      ((List.range sectorsPerTrack).map (d.mfmCommit data)) := by
  obtain ⟨hkept, hidle⟩ := mfmIdle_writeIndex h hs hp
  have hstep : ∀ x : FloppyDiskImage, x.MfmIdle → SameDisk d x → ∀ k ∈ List.range sectorsPerTrack,
      (x.writeDiskBytes (mfmSector data d.currentTrack d.currentSide k)).MfmIdle ∧
        Wrote x (x.writeDiskBytes (mfmSector data d.currentTrack d.currentSide k))
          (d.mfmCommit data k) := by
    intro x hx hsame k hk
    have hw := write_mfmSector hx hlen (List.mem_range.1 hk)
    rw [mfmCommit, mfmBlock, hsame.currentTrack, hsame.currentSide] at hw
    exact hw
  obtain ⟨hlast, hall⟩ := (WroteAll.of_kept hkept).flatMap hstep hidle
  rw [List.nil_append] at hall
  obtain ⟨hend, -⟩ := write_mfmGap hlast.ready
    (s := mfmRepeated 0x4e (bytesPerRevolution - (mfmIndex ++ (List.range sectorsPerTrack).flatMap
      (mfmSector data d.currentTrack d.currentSide)).length))
    (fun hi => hlast.noSync (hi.subset (by decide))) (notMem_mfmRepeated (by decide))
  have htrack := hall.kept hend.kept
  rw [← writeDiskBytes_append, ← writeDiskBytes_append] at htrack
  exact htrack

theorem mem_mfmCommits {c : Commit} :
    c ∈ (List.range sectorsPerTrack).map (d.mfmCommit data) ↔
      ∃ k < sectorsPerTrack, d.mfmCommit data k = c := by
  simp only [List.mem_map, List.mem_range]

/-- **Write-back.**  A track that is written back as it was read: every sector is written once,
with its own data, nothing fails, and the disk is as before. -/
theorem mfmTrack_writeBack (h : d.MfmReady) (hs : d.Saves) (hp : ¬ mfmSync <:+: d.writeBytes) :
    let d' := d.writeDiskBytes (d.buildMfmTrack d.currentTrack d.currentSide)
    d'.commits = d.commits ++ (List.range sectorsPerTrack).map (fun k =>
        { block := d.mfmBlock k, data := block bytesPerSector d.data (d.mfmBlock k), tags := [],
          saved := true }) ∧
      d'.writeFailed = d.writeFailed ∧ d'.data = d.data ∧ d'.tags = d.tags := by
  have hall := write_mfmTrack h hs hp h.length
  refine ⟨hall.commits, ?_, ?_, ?_⟩
  · have hsaved : ((List.range sectorsPerTrack).map (d.mfmCommit d.data)).any (fun c => !c.saved) =
        false := by
      rw [List.any_eq_false]
      intro c hc
      obtain ⟨k, -, rfl⟩ := mem_mfmCommits.1 hc
      simp [mfmCommit]
    exact hall.failed.trans (by rw [hsaved, Bool.or_false])
  · refine hall.self (fun c hc => ?_) fun c hc => ?_
    · obtain ⟨k, hk, rfl⟩ := mem_mfmCommits.1 hc
      exact h.mfmBlock_lt hk
    · obtain ⟨k, -, rfl⟩ := mem_mfmCommits.1 hc
      rfl
  · rw [buildMfmTrack, hall.tags]
    refine putTags_self fun c hc => ?_
    obtain ⟨k, -, rfl⟩ := mem_mfmCommits.1 hc
    exact Or.inr (Or.inl rfl)

/-- A disk of zeros is written back. -/
theorem zeroDisk_writeBack :
    let d' := zeroDisk.writeDiskBytes (zeroDisk.buildMfmTrack zeroDisk.currentTrack zeroDisk.currentSide)
    d'.commits = zeroDisk.commits ++ (List.range sectorsPerTrack).map (fun k =>
        { block := zeroDisk.mfmBlock k
          data := block bytesPerSector zeroDisk.data (zeroDisk.mfmBlock k)
          tags := []
          saved := true }) ∧
      d'.writeFailed = zeroDisk.writeFailed ∧ d'.data = zeroDisk.data ∧ d'.tags = zeroDisk.tags :=
  mfmTrack_writeBack mfmReady_zeroDisk saves_zeroDisk
    fun h => absurd (h.subset (List.mem_cons_self ..)) List.not_mem_nil

/-! ## A data field that is pending -/

/-- A data field with a wrong check sum fails, whatever sector it is for. -/
theorem act_badField {x : FloppyDiskImage} {type hi lo : UInt8} (ht : type ≠ 0xfe)
    (hdata : data.length = bytesPerSector) (hcrc : mfmCrc (mfmFieldBody type data) ≠ be16 hi lo) :
    (act true (mfmFieldBody type data ++ [hi, lo]) x).writeFailed = true := by
  have htype : (mfmFieldBody type data ++ [hi, lo]).getD 3 0 = type := rfl
  rw [act, if_neg (by rw [htype]; exact ht)]
  simp only [mfmDataField]
  rw [if_neg]
  · split <;> rfl
  · rw [take_mfmFieldBody hdata, getD_mfmFieldBody_hi hdata, getD_mfmFieldBody_lo hdata]
    exact fun h => hcrc h.2.2

/-- The high byte of a check sum that is not the one of a sector of zeros. -/
def badHi : UInt8 := (mfmCrc (mfmFieldBody 0xfb zeroSector) >>> (8 : UInt16)).toUInt8 + 1

/-- A data field with a wrong check sum, but for its last byte. -/
def staleField : List UInt8 := mfmFieldBody 0xfb zeroSector ++ [badHi]

theorem succ_ne (v : UInt8) : v + 1 ≠ v := by
  intro h
  have hv := congrArg UInt8.toNat h
  rw [UInt8.toNat_add] at hv
  change (v.toNat + 1) % 256 = v.toNat at hv
  omega

theorem badHi_crc (lo : UInt8) : mfmCrc (mfmFieldBody 0xfb zeroSector) ≠ be16 badHi lo := by
  intro h
  have hhi := be16_hi badHi lo
  rw [← h, badHi] at hhi
  exact succ_ne _ hhi.symm

/-- The disk after the ID field of its first sector and the start of a data field. -/
def staleDisk : FloppyDiskImage :=
  (zeroDisk.writeDiskBytes unmarkedId).writeDiskBytes (mfmBytes staleField)

/-- The rest of a track completes the field that is pending, and fails. -/
theorem staleDisk_not_writeBack :
    staleDisk.MfmReady ∧ staleDisk.Saves ∧ staleDisk.writeFailed = false ∧
      (staleDisk.writeDiskBytes (staleDisk.buildMfmTrack staleDisk.currentTrack
        staleDisk.currentSide)).writeFailed = true := by
  have hid : unmarkedId.map DiskByte.value =
      [] ++ mfmFieldBytes 0xfe (mfmAddress zeroDisk.currentTrack zeroDisk.currentSide 0) := by
    rw [List.nil_append]
    exact map_value_mfmBytes _
  obtain ⟨hkept, hempty, -⟩ := write_idField mfmReady_zeroDisk (by decide) hid List.not_mem_nil
    List.not_mem_nil
  have hready := mfmReady_zeroDisk.write unmarkedId
  have hhd := hready.highDensity
  obtain ⟨r, hr⟩ : ∃ r, r = mfmFieldBody 0xfb zeroSector ++ [badHi, 0x4e] := ⟨_, rfl⟩
  have hlen : r.length = dataRecordBytes := by
    rw [hr, List.length_append, length_mfmFieldBody, length_zeroSector]
    rfl
  have hsync : mfmSync <+: r := by
    rw [hr, mfmFieldBody, List.append_assoc]
    exact List.prefix_append ..
  have hdrop : r.dropLast = staleField := by
    rw [hr, List.append_cons, List.dropLast_concat, staleField]
  have hsync' : mfmSync <+: r.dropLast := by
    rw [hdrop, staleField, mfmFieldBody, List.append_assoc]
    exact List.prefix_append ..
  have hv : mfmVerdict r = .take r.length := by
    have htype : r.getD 3 0 = 0xfb := by rw [hr]; rfl
    unfold mfmVerdict
    rw [htype, hlen]
    decide
  -- all of the field but its last byte leaves the disk as it is
  have hcut : (cut (format (zeroDisk.writeDiskBytes unmarkedId).highDensity)
      ((zeroDisk.writeDiskBytes unmarkedId).writeBytes ++
        (mfmBytes staleField).map DiskByte.value)).1 = [] := by
    rw [hempty, hhd, map_value_mfmBytes, List.nil_append, ← hdrop]
    exact congrArg Prod.fst (cut_dropLast (F := mfmFormat) hsync hv hsync')
  obtain ⟨hidle, -⟩ := write_idle hready.wf hready.ready hcut
  have hstale : Kept zeroDisk staleDisk := hkept.trans hidle.kept
  refine ⟨hready.write _, saves_zeroDisk.of_sameDisk hstale.sameDisk, ?_, ?_⟩
  · unfold Kept at hstale
    rw [hstale]
    exact (rfl : zeroDisk.writeFailed = false)
  · obtain ⟨t, ht⟩ : ∃ t, staleDisk.buildMfmTrack staleDisk.currentTrack staleDisk.currentSide =
        { value := 0x4e } :: t := ⟨_, rfl⟩
    have hbytes : (mfmBytes staleField ++ [({ value := 0x4e } : DiskByte)]).map DiskByte.value =
        [] ++ r := by
      rw [List.map_append, map_value_mfmBytes, hr, staleField, List.nil_append, List.append_assoc,
        List.map_singleton, List.singleton_append]
    obtain ⟨x, -, -, hact, -⟩ := write_frame hready.wf hready.ready hbytes
      (by rw [hempty, hhd]; decide) (by rw [hhd]; exact hsync) (by rw [hhd]; exact hv)
    rw [ht]
    refine failed_of_pending ?_
    unfold Kept at hact
    rw [hact, hhd, hr]
    exact act_badField (by decide) length_zeroSector (badHi_crc 0x4e)

end

end CuteMac.Floppy.FloppyDiskImage
