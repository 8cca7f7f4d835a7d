/-
  The fields of an MFM track, as they are written.

  * `mfmFieldBytes`: a field without its marks;
  * `act_idField`: an ID field names the sector of the next data field;
  * `act_dataField`: a data field is written into that sector;
  * `write_idField`, `write_dataField`: the same for a gap and a field that are
    written byte by byte.
-/
import CuteMac.Floppy.Session

namespace CuteMac.Floppy

open Slice Framing FloppyDiskImage

/-! ## Fields -/

/-- The bytes of a field, without marks. -/
def mfmFieldBytes (type : UInt8) (payload : List UInt8) : List UInt8 :=
  mfmFieldBody type payload ++ [((mfmCrc (mfmFieldBody type payload)) >>> (8 : UInt16)).toUInt8,
    (mfmCrc (mfmFieldBody type payload)).toUInt8]

theorem map_value_mfmBytes (bytes : List UInt8) :
    (mfmBytes bytes).map DiskByte.value = bytes := by
  simp [mfmBytes, Function.comp_def]

theorem map_value_mfmField (type : UInt8) (payload : List UInt8) :
    (mfmField type payload).map DiskByte.value = mfmFieldBytes type payload := by
  simp [mfmField, mfmFieldBytes, mfmFieldBody, map_value_mfmBytes]

theorem map_value_mfmRepeated (value : UInt8) (count : Nat) :
    (mfmRepeated value count).map DiskByte.value = List.replicate count value :=
  map_value_mfmBytes _

section
variable {type : UInt8} {payload : List UInt8}

theorem length_mfmFieldBody : (mfmFieldBody type payload).length = payload.length + 4 := by
  simp [mfmFieldBody]

theorem length_mfmFieldBytes : (mfmFieldBytes type payload).length = payload.length + 6 := by
  simp [mfmFieldBytes, length_mfmFieldBody]

theorem mfmSync_prefix : mfmSync <+: mfmFieldBytes type payload := by
  rw [mfmFieldBytes, mfmFieldBody, List.append_assoc]
  exact List.prefix_append ..

theorem getD_mfmFieldBytes (i : Nat) :
    (mfmFieldBytes type payload).getD (4 + i) 0 = (payload ++
      [((mfmCrc (mfmFieldBody type payload)) >>> (8 : UInt16)).toUInt8,
        (mfmCrc (mfmFieldBody type payload)).toUInt8]).getD i 0 := by
  have h : mfmFieldBytes type payload = (List.replicate 3 0xa1 ++ [type]) ++ (payload ++
      [((mfmCrc (mfmFieldBody type payload)) >>> (8 : UInt16)).toUInt8,
        (mfmCrc (mfmFieldBody type payload)).toUInt8]) := by
    simp [mfmFieldBytes, mfmFieldBody]
  rw [h, List.getD_eq_getElem?_getD, List.getElem?_append_right (by simp),
    List.getD_eq_getElem?_getD]
  simp

theorem type_mfmFieldBytes : (mfmFieldBytes type payload).getD 3 0 = type := by
  simp [mfmFieldBytes, mfmFieldBody]

theorem mid_mfmFieldBytes : mid (mfmFieldBytes type payload) 4 payload.length = payload := by
  have h : mfmFieldBytes type payload = (List.replicate 3 0xa1 ++ [type]) ++ (payload ++
      [((mfmCrc (mfmFieldBody type payload)) >>> (8 : UInt16)).toUInt8,
        (mfmCrc (mfmFieldBody type payload)).toUInt8]) := by
    simp [mfmFieldBytes, mfmFieldBody]
  rw [h, mid_append_right (by simp), mid_append_left (by simp)]
  simp

/-- The check sum that a field is written with is the one that is expected. -/
theorem crc_mfmFieldBytes :
    mfmCrc ((mfmFieldBytes type payload).take (4 + payload.length)) =
      be16 ((mfmFieldBytes type payload).getD (4 + payload.length) 0)
        ((mfmFieldBytes type payload).getD (5 + payload.length) 0) := by
  have hb : (mfmFieldBytes type payload).take (4 + payload.length) = mfmFieldBody type payload :=
    List.take_left' (by rw [length_mfmFieldBody, Nat.add_comm])
  have h5 : 5 + payload.length = 4 + (payload.length + 1) := by omega
  rw [hb, h5, getD_mfmFieldBytes, getD_mfmFieldBytes]
  simp [List.getD_eq_getElem?_getD, be16_split]

end

/-! ## What fields do -/

namespace FloppyDiskImage

/-- The next data field goes to a sector. -/
def setMfmSector (d : FloppyDiskImage) (sector : Int) : FloppyDiskImage :=
  { d with writeMfmSector := sector }

theorem verdict_idField {payload : List UInt8} (h : payload.length = 4) :
    mfmVerdict (mfmFieldBytes 0xfe payload) = .take (mfmFieldBytes 0xfe payload).length := by
  have hl : (mfmFieldBytes 0xfe payload).length = addressBytes := by rw [length_mfmFieldBytes, h]; rfl
  unfold mfmVerdict
  rw [type_mfmFieldBytes, hl, if_neg (by decide), if_pos rfl, if_neg (by decide)]

theorem verdict_dataField {type : UInt8} {data : List UInt8} (ht : type = 0xfb ∨ type = 0xf8)
    (hdata : data.length = bytesPerSector) :
    mfmVerdict (mfmFieldBytes type data) = .take (mfmFieldBytes type data).length := by
  have hl : (mfmFieldBytes type data).length = dataRecordBytes := by
    rw [length_mfmFieldBytes, hdata]
    rfl
  have hne : type ≠ 0xfe := by rcases ht with rfl | rfl <;> decide
  unfold mfmVerdict
  rw [type_mfmFieldBytes, hl, if_neg (by decide), if_neg hne, if_pos ht, if_neg (by decide)]

/-- The ID field of a sector of the track under the head. -/
theorem act_idField {x : FloppyDiskImage} (ht : x.currentTrack < 256) (hs : x.currentSide < 256)
    {sector : Nat} (hk : sector + 1 < 256) :
    act true (mfmFieldBytes 0xfe (mfmAddress x.currentTrack x.currentSide sector)) x =
      x.setMfmSector sector := by
  have hcrc := @crc_mfmFieldBytes 0xfe (mfmAddress x.currentTrack x.currentSide sector)
  have hg := @getD_mfmFieldBytes 0xfe (mfmAddress x.currentTrack x.currentSide sector)
  have h4 := hg 0
  have h5 := hg 1
  have h6 := hg 2
  have h7 := hg 3
  simp only [mfmAddress, List.cons_append, List.getD_cons_zero, List.getD_cons_succ] at h4 h5 h6 h7
  have hsec : ((UInt8.ofNat (sector + 1)).toNat : Int) - 1 = sector := by
    rw [UInt8.toNat_ofNat_of_lt' hk]
    omega
  rw [act, if_pos type_mfmFieldBytes]
  simp only [mfmIdField]
  rw [if_pos]
  · exact congrArg x.setMfmSector ((congrArg (fun v : UInt8 => (v.toNat : Int) - 1) h6).trans hsec)
  · refine ⟨hcrc, ?_, ?_, h7⟩
    · exact (congrArg UInt8.toNat h4).trans (UInt8.toNat_ofNat_of_lt' ht)
    · exact (congrArg UInt8.toNat h5).trans (UInt8.toNat_ofNat_of_lt' hs)

/-- A data field of the sector that was named. -/
theorem act_dataField {x : FloppyDiskImage} {type : UInt8} {data : List UInt8}
    (ht : type = 0xfb ∨ type = 0xf8) (hdata : data.length = bytesPerSector)
    (hk : 0 ≤ x.writeMfmSector ∧ x.writeMfmSector < sectorsPerTrack) :
    act true (mfmFieldBytes type data) x = (x.commitSector x.writeMfmSector data).1 := by
  have hcrc := @crc_mfmFieldBytes type data
  have hmid := @mid_mfmFieldBytes type data
  have hne : type ≠ 0xfe := by rcases ht with rfl | rfl <;> decide
  rw [hdata] at hcrc hmid
  rw [act, if_neg (by rw [type_mfmFieldBytes]; exact hne)]
  simp only [mfmDataField]
  rw [if_pos ⟨hk.1, hk.2, hcrc⟩, hmid]

/-! ## Fields that are written -/

/-- The block of a sector of the track under the head. -/
def mfmBlock (d : FloppyDiskImage) (sector : Nat) : Nat :=
  (d.currentTrack * 2 + d.currentSide) * sectorsPerTrack + sector

/-- A gap without sync bytes, in front of a field. -/
theorem not_mfmSync_infix {w g : List UInt8} (hw : 0xa1 ∉ w) (hg : 0xa1 ∉ g) :
    ¬ mfmSync <:+: w ++ g ++ mfmSync.dropLast := by
  intro h
  have hc := h.sublist.count_le 0xa1
  rw [List.count_append, List.count_append, List.count_eq_zero_of_not_mem hw,
    List.count_eq_zero_of_not_mem hg] at hc
  exact absurd hc (by decide)

/-- A writable high-density disk that turns. -/
structure MfmReady (d : FloppyDiskImage) : Prop where
  wf : d.Wf
  ready : d.Ready
  highDensity : d.highDensity = true

theorem MfmReady.of_sameDisk {d d' : FloppyDiskImage} (h : d.MfmReady) (hs : SameDisk d d')
    (hwf : d'.Wf) : d'.MfmReady :=
  ⟨hwf, h.ready.of_sameDisk hs, hs.highDensity.trans h.highDensity⟩

theorem MfmReady.write {d : FloppyDiskImage} (h : d.MfmReady) (s : List DiskByte) :
    (d.writeDiskBytes s).MfmReady :=
  h.of_sameDisk (sameDisk_writeDiskBytes d s) (wf_writeDiskBytes h.wf s)

section
variable {d : FloppyDiskImage}

theorem MfmReady.length (h : d.MfmReady) : d.data.length = raw1440KBytes := by
  have := h.wf.highDensity h.ready.2.1
  rw [h.highDensity] at this
  exact beq_iff_eq.1 this.symm

theorem MfmReady.side (h : d.MfmReady) : d.currentSide < 2 := by
  have hds := h.wf.doubleSided h.ready.2.1
  have hs := h.wf.side
  rw [hds, h.length] at hs
  exact hs

theorem MfmReady.mfmBlock_lt (h : d.MfmReady) {k : Nat} (hk : k < sectorsPerTrack) :
    d.mfmBlock k < d.data.length / bytesPerSector := by
  have ht : d.currentTrack < 80 := h.wf.track
  have hs := h.side
  rw [h.length]
  simp only [mfmBlock, sectorsPerTrack, raw1440KBytes, bytesPerSector] at hk ⊢
  omega

theorem sectorBlock_mfm (hd : d.highDensity = true) (k : Nat) :
    d.sectorBlock k = (d.mfmBlock k : Nat) := by
  rw [sectorBlock, if_pos hd, mfmBlock]
  push_cast
  rfl

/-- Bytes without sync bytes. -/
theorem write_mfmGap (h : d.MfmReady) {s : List DiskByte} (hw : ¬ mfmSync <:+: d.writeBytes)
    (hg : 0xa1 ∉ s.map DiskByte.value) :
    Idle d (d.writeDiskBytes s) ∧
      (2 ≤ s.length → 0xa1 ∉ (d.writeDiskBytes s).writeBytes) := by
  have hhd := h.highDensity
  obtain ⟨hidle, hkept⟩ := write_gap h.wf h.ready (x := 0xa1) (by rw [hhd]; rfl)
    (by rw [hhd]; exact hw) hg
  exact ⟨hidle, fun hs hm => hg (hkept hs _ hm)⟩

/-- A gap and an ID field of the track under the head. -/
theorem write_idField (h : d.MfmReady) {s : List DiskByte} {g : List UInt8} {sector : Nat}
    (hk : sector < sectorsPerTrack)
    (hs : s.map DiskByte.value =
      g ++ mfmFieldBytes 0xfe (mfmAddress d.currentTrack d.currentSide sector))
    (hw : 0xa1 ∉ d.writeBytes) (hg : 0xa1 ∉ g) :
    Kept d (d.writeDiskBytes s) ∧ (d.writeDiskBytes s).writeBytes = [] ∧
      (d.writeDiskBytes s).writeMfmSector = sector := by
  have hhd := h.highDensity
  have hno := not_mfmSync_infix hw hg
  have hv := verdict_idField (show (mfmAddress d.currentTrack d.currentSide sector).length = 4
    from rfl)
  obtain ⟨x, hx, h1, h2, h3⟩ := write_frame h.wf h.ready hs (by rw [hhd]; exact hno)
    (by rw [hhd]; exact mfmSync_prefix) (by rw [hhd]; exact hv)
  have hkx : Kept d x := (kept_takeByte d).trans hx.kept
  have hact : act true
      (mfmFieldBytes 0xfe (mfmAddress d.currentTrack d.currentSide sector)) x =
      x.setMfmSector sector := by
    have ht : d.currentTrack < 80 := h.wf.track
    have hside := h.side
    have e1 := hkx.sameDisk.currentTrack
    have e2 := hkx.sameDisk.currentSide
    rw [← e1, ← e2]
    simp only [sectorsPerTrack] at hk
    exact act_idField (by omega) (by omega) (by omega)
  rw [hhd, hact] at h2 h3
  have hset : Kept x (x.setMfmSector sector) := rfl
  exact ⟨hkx.trans (hset.trans h2), h1, h3⟩

/-- A gap and a data field, when the sector is known. -/
theorem write_dataField (h : d.MfmReady) {s : List DiskByte} {g data : List UInt8} {type : UInt8}
    {sector : Nat} (hk : sector < sectorsPerTrack) (hsec : d.takeByte.writeMfmSector = sector)
    (ht : type = 0xfb ∨ type = 0xf8) (hdata : data.length = bytesPerSector)
    (hs : s.map DiskByte.value = g ++ mfmFieldBytes type data)
    (hw : 0xa1 ∉ d.writeBytes) (hg : 0xa1 ∉ g) :
    ∃ saved, Wrote d (d.writeDiskBytes s)
        { block := d.mfmBlock sector, data := data, tags := [], saved := saved } ∧
      (d.Saves → saved = true) ∧ (d.writeDiskBytes s).writeBytes = [] := by
  have hhd := h.highDensity
  have hno := not_mfmSync_infix hw hg
  obtain ⟨x, hx, h1, h2, h3⟩ := write_frame h.wf h.ready hs (by rw [hhd]; exact hno)
    (by rw [hhd]; exact mfmSync_prefix) (by rw [hhd]; exact verdict_dataField ht hdata)
  have hkx : Kept d x := (kept_takeByte d).trans hx.kept
  have hsx : x.writeMfmSector = sector := by
    rw [hx.sector (by rw [hsec]; omega), hsec]
  have hblk : x.sectorBlock x.writeMfmSector = (d.mfmBlock sector : Nat) := by
    rw [hsx, sectorBlock_mfm (hkx.sameDisk.highDensity.trans hhd), mfmBlock, mfmBlock,
      hkx.sameDisk.currentTrack, hkx.sameDisk.currentSide]
  have hlt : d.mfmBlock sector < x.data.length / bytesPerSector := by
    rw [hkx.sameDisk.dataLength]
    exact h.mfmBlock_lt hk
  obtain ⟨saved, hwrote, hsaved⟩ := wrote_commitSector hdata hblk hlt []
  rw [hhd, act_dataField ht hdata (by rw [hsx]; omega)] at h2
  exact ⟨saved, hwrote.congr hkx h2, hsaved d h.wf hkx.sameDisk h.ready.2.1, h1⟩

end

end FloppyDiskImage

end CuteMac.Floppy
