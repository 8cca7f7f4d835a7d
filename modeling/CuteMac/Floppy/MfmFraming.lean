/-
  What frames the fields of an MFM track.

  * `mfmFieldBytes_of_crc`: a run of bytes with the right check sum is a field;
  * `DataField`: a data field stands in a stream of bytes;
  * `framing`: the bytes alone, and not their marks, say what is written.
-/
import CuteMac.Floppy.MfmWrite

namespace CuteMac.Floppy

open Slice Framing FloppyDiskImage

/-! ## Fields of a stream -/

theorem toNat_be16 (hi lo : UInt8) : (be16 hi lo).toNat = hi.toNat * 256 + lo.toNat := by
  have hh : hi.toNat < 256 := hi.toNat_lt
  have hl : lo.toNat < 2 ^ 8 := lo.toNat_lt
  have h8 : hi.toNat <<< 8 < 65536 := by
    rw [Nat.shiftLeft_eq]
    omega
  simp only [be16, UInt16.toNat_or, UInt16.toNat_shiftLeft, UInt8.toNat_toUInt16, UInt16.reduceToNat,
    Nat.reduceMod, Nat.reducePow, Nat.mod_eq_of_lt h8]
  rw [← Nat.shiftLeft_add_eq_or_of_lt hl, Nat.shiftLeft_eq]

theorem be16_hi (hi lo : UInt8) : (be16 hi lo >>> (8 : UInt16)).toUInt8 = hi := by
  have hh : hi.toNat < 256 := hi.toNat_lt
  have hl : lo.toNat < 256 := lo.toNat_lt
  apply UInt8.toNat_inj.1
  rw [UInt16.toNat_toUInt8, UInt16.toNat_shiftRight, toNat_be16]
  simp only [UInt16.reduceToNat, Nat.reduceMod, Nat.shiftRight_eq_div_pow]
  omega

theorem be16_lo (hi lo : UInt8) : (be16 hi lo).toUInt8 = lo := by
  have hl : lo.toNat < 256 := lo.toNat_lt
  apply UInt8.toNat_inj.1
  rw [UInt16.toNat_toUInt8, toNat_be16]
  omega

section
variable {type hi lo : UInt8} {data : List UInt8}

/-- The parts of a data field, whatever its check sum. -/
theorem take_mfmFieldBody (hdata : data.length = bytesPerSector) :
    (mfmFieldBody type data ++ [hi, lo]).take (4 + bytesPerSector) = mfmFieldBody type data :=
  List.take_left' (by rw [length_mfmFieldBody, hdata, Nat.add_comm])

theorem getD_mfmFieldBody_hi (hdata : data.length = bytesPerSector) :
    (mfmFieldBody type data ++ [hi, lo]).getD (4 + bytesPerSector) 0 = hi := by
  have hlen : (mfmFieldBody type data).length = 4 + bytesPerSector := by
    rw [length_mfmFieldBody, hdata, Nat.add_comm]
  rw [List.getD_eq_getElem?_getD, List.getElem?_append_right hlen.le, hlen]
  simp

theorem getD_mfmFieldBody_lo (hdata : data.length = bytesPerSector) :
    (mfmFieldBody type data ++ [hi, lo]).getD (5 + bytesPerSector) 0 = lo := by
  have hlen : (mfmFieldBody type data).length = 4 + bytesPerSector := by
    rw [length_mfmFieldBody, hdata, Nat.add_comm]
  rw [List.getD_eq_getElem?_getD, List.getElem?_append_right (by omega), hlen]
  simp [show 5 + bytesPerSector - (4 + bytesPerSector) = 1 by omega]

end

/-- The check sum of a field determines its last two bytes. -/
theorem mfmFieldBytes_of_crc {r : List UInt8} (hlen : r.length = dataRecordBytes)
    (hsync : mfmSync <+: r)
    (hcrc : mfmCrc (r.take (4 + bytesPerSector)) =
      be16 (r.getD (4 + bytesPerSector) 0) (r.getD (5 + bytesPerSector) 0)) :
    r = mfmFieldBytes (r.getD 3 0) (mid r 4 bytesPerSector) := by
  obtain ⟨t, rfl⟩ := hsync
  obtain ⟨type, u, rfl⟩ : ∃ type u, t = type :: u := by
    cases t with
    | nil => exact absurd hlen (by decide)
    | cons type u => exact ⟨type, u, rfl⟩
  have hu : u.length = bytesPerSector + 2 := by
    simp only [List.length_append, List.length_cons, mfmSync, dataRecordBytes, List.length_nil] at hlen
    omega
  obtain ⟨data, hi, lo, hdata, rfl⟩ : ∃ data hi lo, data.length = bytesPerSector ∧
      u = data ++ [hi, lo] := by
    have hd : (u.drop bytesPerSector).length = 2 := by rw [List.length_drop]; omega
    obtain ⟨hi, lo, hl⟩ := List.length_eq_two.1 hd
    exact ⟨u.take bytesPerSector, hi, lo, by rw [List.length_take]; omega,
      by rw [← hl, List.take_append_drop]⟩
  have hbody : mfmFieldBody type data = mfmSync ++ type :: data := rfl
  have hr : mfmSync ++ type :: (data ++ [hi, lo]) = mfmFieldBody type data ++ [hi, lo] := by
    rw [hbody]
    simp
  have hb : (mfmFieldBody type data).length = 4 + bytesPerSector := by
    rw [length_mfmFieldBody, hdata, Nat.add_comm]
  have hmid : mid (mfmFieldBody type data ++ [hi, lo]) 4 bytesPerSector = data := by
    rw [mid_append_left (by omega), hbody, mfmSync]
    simp [mid, ← hdata]
  have htype : (mfmFieldBody type data ++ [hi, lo]).getD 3 0 = type := rfl
  rw [hr] at hcrc ⊢
  rw [take_mfmFieldBody hdata, getD_mfmFieldBody_hi hdata, getD_mfmFieldBody_lo hdata] at hcrc
  rw [hmid, htype, mfmFieldBytes, hcrc, be16_hi, be16_lo]

/-- A data field with these contents stands in the stream. -/
def DataField (bytes data : List UInt8) : Prop :=
  data.length = bytesPerSector ∧
    ∃ type : UInt8, (type = 0xfb ∨ type = 0xf8) ∧ mfmFieldBytes type data <:+: bytes

namespace FloppyDiskImage

/-! ## Commits come from data fields -/

/-- The sectors written since `d` are data fields of the stream. -/
def FromFields (d : FloppyDiskImage) (bytes : List UInt8) (x : FloppyDiskImage) : Prop :=
  ∃ cs, x.commits = d.commits ++ cs ∧ ∀ c ∈ cs, DataField bytes c.data

theorem FromFields.congr {d x x' : FloppyDiskImage} {bytes : List UInt8} (h : FromFields d bytes x)
    (hc : x'.commits = x.commits) : FromFields d bytes x' := by
  obtain ⟨cs, hcs, hall⟩ := h
  exact ⟨cs, hc.trans hcs, hall⟩

theorem FromFields.commitSector {d x : FloppyDiskImage} {bytes data : List UInt8}
    (h : FromFields d bytes x) (hf : DataField bytes data) (k : Int) (tags : List UInt8) :
    FromFields d bytes (x.commitSector k data tags).1 := by
  by_cases hk : data.length = bytesPerSector ∧ 0 ≤ x.sectorBlock k ∧
      x.sectorBlock k < (x.data.length / bytesPerSector : Nat)
  · obtain ⟨hdata, h0, hlt⟩ := hk
    obtain ⟨blk, hblk⟩ := Int.eq_ofNat_of_zero_le h0
    obtain ⟨cs, hcs, hall⟩ := h
    rw [commitSector_eq hdata hblk (by omega) tags]
    refine ⟨cs ++ [_], (congrArg (· ++ [_]) hcs).trans (List.append_assoc ..), fun c hc => ?_⟩
    rcases List.mem_append.1 hc with hc | hc
    · exact hall c hc
    · rw [List.mem_singleton.1 hc]
      exact hf
  · rw [commitSector_of_not hk]
    exact h

/-- A record of the stream writes a data field, or nothing. -/
theorem FromFields.act {d x : FloppyDiskImage} {bytes r : List UInt8} (h : FromFields d bytes x)
    (hr : r ∈ (cut mfmFormat bytes).1) : FromFields d bytes (act true r x) := by
  obtain ⟨hin, c, hsync, hv⟩ := mem_cut hr
  simp only [FloppyDiskImage.act]
  split
  · simp only [mfmIdField]
    split
    · exact h
    · split <;> exact h
  · rename_i hid
    simp only [mfmDataField]
    split
    · rename_i hk
      -- the verdict of a record that is no ID field is the one of a data field
      have hv' : mfmVerdict (r ++ c) = .take r.length := hv
      have hlen : r.length = dataRecordBytes ∧ (r.getD 3 0 = 0xfb ∨ r.getD 3 0 = 0xf8) := by
        have hpos : 4 ≤ r.length := by
          rcases (mfmVerdict_take hv').1 with hl | hl
          · rw [hl]; decide
          · rw [hl]; decide
        have h3 : (r ++ c).getD 3 0 = r.getD 3 0 := getD_append_left c 0 (by omega)
        unfold mfmVerdict at hv'
        rw [if_neg (by rw [List.length_append]; omega), h3, if_neg hid] at hv'
        split_ifs at hv' with g1
        exact ⟨(Verdict.take.inj hv').symm, g1⟩
      have hs : mfmSync <+: r := List.prefix_of_prefix_length_le hsync (List.prefix_append r c)
        (by rw [hlen.1]; decide)
      have hfield := mfmFieldBytes_of_crc hlen.1 hs hk.2.2
      refine h.commitSector ⟨?_, r.getD 3 0, hlen.2, by rw [← hfield]; exact hin⟩ _ []
      rw [length_mid, hlen.1]
      decide
    · split
      · exact h
      · exact h

theorem commits_takeByte (d : FloppyDiskImage) : d.takeByte.commits = d.commits := by
  rw [takeByte_eq]

/-! ## Writing without a disk that turns -/

theorem writeDiskBytes_of_not_ready {d : FloppyDiskImage} (hr : ¬ d.Ready) (s : List DiskByte) :
    d.writeDiskBytes s = if s = [] then d else { d with writeFailed := true } := by
  have hstep : ∀ x : FloppyDiskImage, ¬ x.Ready → ∀ b : DiskByte,
      (x.writeDiskByte b.value b.mark).1 = { x with writeFailed := true } := by
    intro x hx b
    have hn : (!x.writable || !x.inserted || !x.motorOn) = true := by
      simpa [Ready, or_assoc, imp_iff_not_or] using hx
    unfold writeDiskByte
    rw [if_pos hn]
  cases s with
  | nil => rfl
  | cons b s =>
    rw [if_neg (by simp), writeDiskBytes, Machine.run_cons, hstep d hr b]
    refine Machine.run_inv (I := fun x => x = { d with writeFailed := true }) ?_ rfl s
    intro x b hx
    rw [hx, hstep _ (by exact hr)]

/-! ## Framing -/

/-- **Framing.**  On a high-density disk the bytes alone say what is written: streams with the
same bytes do the same, whatever their marks, and every sector that is written is a data field
among the bytes of the write buffer and the stream. -/
theorem framing {d : FloppyDiskImage} (hd : d.Wf) (hh : d.highDensity = true) (s : List DiskByte) :
    (∀ s' : List DiskByte, s'.map DiskByte.value = s.map DiskByte.value →
      (d.writeDiskBytes s').writeBytes = (d.writeDiskBytes s).writeBytes ∧
      (d.writeDiskBytes s').buffered [] [] = (d.writeDiskBytes s).buffered [] []) ∧
    FromFields d (d.writeBytes ++ s.map DiskByte.value) (d.writeDiskBytes s) := by
  by_cases hr : d.Ready
  · have habs := abs_writeDiskBytes hr s
    constructor
    · intro s' hs'
      have habs' := abs_writeDiskBytes hr s'
      rw [hs', ← habs] at habs'
      exact Prod.mk.inj habs'
    · have hrun : FromFields d (d.writeBytes ++ s.map DiskByte.value)
          (Machine.run (session d.highDensity).step (d.writeBytes, d.buffered [] [])
            (s.map DiskByte.value)).2 := by
        refine Scanner.run_inv hd.settled ?_ ?_ ⟨[], (List.append_nil _).symm, fun c hc => by cases hc⟩
        · intro w x hx
          exact hx.congr (commits_takeByte _)
        · intro r hr x hx
          have hr' : r ∈ (cut mfmFormat (d.writeBytes ++ s.map DiskByte.value)).1 := by
            rw [hh] at hr
            exact hr
          rw [hh]
          exact hx.act hr'
      have h2 : (d.writeDiskBytes s).buffered [] [] =
          (Machine.run (session d.highDensity).step (d.abs) (s.map DiskByte.value)).2 :=
        congrArg Prod.snd habs
      exact FromFields.congr (x := (d.writeDiskBytes s).buffered [] []) (by rw [h2]; exact hrun) rfl
  · constructor
    · intro s' hs'
      have hnil : s' = [] ↔ s = [] := by
        rw [← List.map_eq_nil_iff (f := DiskByte.value), hs', List.map_eq_nil_iff]
      rw [writeDiskBytes_of_not_ready hr, writeDiskBytes_of_not_ready hr]
      simp only [hnil, and_self]
    · refine ⟨[], ?_, fun c hc => by cases hc⟩
      rw [writeDiskBytes_of_not_ready hr, List.append_nil]
      split <;> rfl

/-! ## Fields without marks -/

/-- A writable 1.44 MB disk of zeros that turns. -/
def zeroDisk : FloppyDiskImage :=
  { insert { host := { files := fun _ => none, isWritable := fun _ => true, saveOk := fun _ => true } }
      "disk" .raw1440K [] (List.replicate raw1440KBytes 0) [] true true with motorOn := true }

theorem wf_zeroDisk : zeroDisk.Wf := by
  have hl : (List.replicate raw1440KBytes (0 : UInt8)).length = raw1440KBytes := List.length_replicate
  have hload : (loadRaw { host := zeroDisk.host } "disk" (List.replicate raw1440KBytes 0)
      .raw1440K).1.Wf :=
    wf_loadRaw (by decide) (Or.inr (Or.inr ⟨hl, rfl⟩))
  exact hload.switched rfl

theorem mfmReady_zeroDisk : zeroDisk.MfmReady := ⟨wf_zeroDisk, ⟨rfl, rfl, rfl⟩, rfl⟩

theorem saves_zeroDisk : zeroDisk.Saves := ⟨rfl, fun _ => rfl⟩

/-- A sector of zeros. -/
def zeroSector : List UInt8 := List.replicate bytesPerSector 0

theorem length_zeroSector : zeroSector.length = bytesPerSector := List.length_replicate

/-- The two fields of the first sector of the disk, without marks. -/
def unmarkedId : List DiskByte := mfmBytes (mfmFieldBytes 0xfe (mfmAddress 0 0 0))

def unmarkedData : List DiskByte := mfmBytes (mfmFieldBytes 0xfb zeroSector)

/-- A data field does the same with and without marks, and what it writes is a data field. -/
theorem framing_zeroSector :
    (zeroDisk.writeDiskBytes unmarkedData).buffered [] [] =
        (zeroDisk.writeDiskBytes (mfmField 0xfb zeroSector)).buffered [] [] ∧
      FromFields zeroDisk ((mfmField 0xfb zeroSector).map DiskByte.value)
        (zeroDisk.writeDiskBytes (mfmField 0xfb zeroSector)) := by
  obtain ⟨hsame, hfields⟩ := framing wf_zeroDisk rfl (mfmField 0xfb zeroSector)
  exact ⟨(hsame _ ((map_value_mfmBytes _).trans (map_value_mfmField _ _).symm)).2, hfields⟩

/-- Fields that are written without a mark are written into the image. -/
theorem unmarked_written :
    (∀ b ∈ unmarkedId ++ unmarkedData, b.mark = false) ∧
      (zeroDisk.writeDiskBytes (unmarkedId ++ unmarkedData)).commits =
        [{ block := 0, data := zeroSector, tags := [], saved := true }] := by
  constructor
  · intro b hb
    rw [unmarkedId, unmarkedData, mfmBytes, mfmBytes, ← List.map_append] at hb
    obtain ⟨v, -, rfl⟩ := List.mem_map.1 hb
    rfl
  · have h0 : (0 : Nat) < sectorsPerTrack := by decide
    have hid : unmarkedId.map DiskByte.value =
        [] ++ mfmFieldBytes 0xfe (mfmAddress zeroDisk.currentTrack zeroDisk.currentSide 0) := by
      rw [List.nil_append]
      exact map_value_mfmBytes _
    have hdata : unmarkedData.map DiskByte.value = [] ++ mfmFieldBytes 0xfb zeroSector := by
      rw [List.nil_append]
      exact map_value_mfmBytes _
    obtain ⟨hkept, hbytes, hsector⟩ := write_idField mfmReady_zeroDisk h0 hid List.not_mem_nil
      List.not_mem_nil
    -- the sector that the ID field named is still known when the data field starts
    have hknown := (idle_takeByte (zeroDisk.writeDiskBytes unmarkedId)).sector (by omega)
    obtain ⟨saved, hwrote, hsaved, -⟩ := write_dataField (mfmReady_zeroDisk.write unmarkedId)
      h0 (hknown.trans hsector) (Or.inl rfl) length_zeroSector hdata
      (by rw [hbytes]; exact List.not_mem_nil) List.not_mem_nil
    have hok := hsaved (saves_zeroDisk.of_sameDisk hkept.sameDisk)
    have hblock : (zeroDisk.writeDiskBytes unmarkedId).mfmBlock 0 = 0 := by
      rw [mfmBlock, hkept.sameDisk.currentTrack, hkept.sameDisk.currentSide]
      rfl
    have hcommits : (zeroDisk.writeDiskBytes unmarkedId).commits = [] := by
      unfold Kept at hkept
      rw [hkept]
      exact (rfl : zeroDisk.commits = [])
    rw [writeDiskBytes_append, hwrote.commits, hcommits, hok, hblock, List.nil_append]

end FloppyDiskImage

end CuteMac.Floppy
