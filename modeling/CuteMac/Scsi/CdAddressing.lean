/-
  The ways to address a disc in the CD-ROM drive.

  * `WellFormed`: the disc has whole blocks, of a size that MODE SELECT may set;
  * `Serves`: a read gives the bytes of its blocks, or fails;
  * `msfFrames_address`: an address as the table of contents gives it is read
    back by the audio-style read;
  * `AddressesAgree`, `addresses_agree`: logical blocks, the capacity and raw
    sectors are views of one image.
-/
import CuteMac.Scsi.MediaChange

namespace CuteMac.Scsi

open Machine (run)
open Slice (mid)

namespace ScsiCdRomDevice

variable {d : ScsiCdRomDevice} {cdb dataOut : List UInt8}

/-! ## Block sizes -/

/-- The image is made of whole blocks, and the logical block size is one of those that
    divide them. -/
structure WellFormed (d : ScsiCdRomDevice) : Prop where
  whole : d.image.length % blockSize = 0
  size : d.logicalBlockSize = 512 ∨ d.logicalBlockSize = 1024 ∨ d.logicalBlockSize = blockSize

theorem WellFormed.of_same {d' : ScsiCdRomDevice} (h : d.WellFormed) (himage : d'.image = d.image)
    (hsize : d'.logicalBlockSize = d.logicalBlockSize) : d'.WellFormed := by
  refine ⟨?_, ?_⟩
  · rw [himage]
    exact h.whole
  · rw [hsize]
    exact h.size

theorem WellFormed.checkCondition (h : d.WellFormed) (senseKey asc : UInt8) :
    (d.checkCondition senseKey asc).2.WellFormed := h.of_same rfl rfl

theorem WellFormed.requestSense (h : d.WellFormed) (allocationLength : UInt8) :
    (d.requestSense allocationLength).2.WellFormed := h.of_same rfl rfl

theorem WellFormed.eject (h : d.WellFormed) : d.eject.WellFormed := ⟨rfl, h.size⟩

theorem WellFormed.read (h : d.WellFormed) (lba blocks : Nat) :
    (d.read lba blocks).2.WellFormed := by
  unfold ScsiCdRomDevice.read
  dsimp only
  split_ifs
  · exact h.of_same rfl rfl
  · exact h.of_same rfl rfl

theorem WellFormed.readAppleRaw (h : d.WellFormed) (lba blocks : Nat) :
    (d.readAppleRaw lba blocks).2.WellFormed := by
  unfold ScsiCdRomDevice.readAppleRaw
  split_ifs
  · exact h.of_same rfl rfl
  · exact h.of_same rfl rfl

theorem WellFormed.modeSelect (h : d.WellFormed) (tenByte : Bool) (parameters : List UInt8) :
    (d.modeSelect tenByte parameters).2.WellFormed := by
  unfold ScsiCdRomDevice.modeSelect
  dsimp only
  split_ifs with h1 h2 h3 h4 h5 h6
  all_goals first
    | exact h
    | exact h.of_same rfl rfl
    | skip
  all_goals refine ⟨h.whole, ?_⟩
  all_goals dsimp only
  all_goals tauto

theorem WellFormed.dispatch (h : d.WellFormed) : (d.dispatch cdb dataOut).2.WellFormed := by
  unfold ScsiCdRomDevice.dispatch
  split
  case h_4 => exact h
  case h_9 => exact h
  all_goals (try dsimp only)
  all_goals (try split_ifs)
  all_goals with_reducible first
    | exact h
    | exact h.eject
    | exact h.read _ _
    | exact h.readAppleRaw _ _
    | exact h.modeSelect _ _
    | exact h.requestSense _
    | exact h.checkCondition _ _

theorem WellFormed.executeCommand (h : d.WellFormed) :
    (d.executeCommand cdb dataOut).2.WellFormed := by
  unfold ScsiCdRomDevice.executeCommand
  dsimp only
  split_ifs
  · exact h.of_same rfl rfl
  · exact h.of_same rfl rfl
  · exact h.of_same rfl rfl
  · exact h.dispatch

theorem WellFormed.apply (d : ScsiCdRomDevice) (a : Host × Op) (h : d.WellFormed) :
    (d.apply a).WellFormed := by
  obtain ⟨host, op⟩ := a
  cases op with
  | loadImage path =>
    show (d.loadImage host path).2.WellFormed
    unfold ScsiCdRomDevice.loadImage
    cases host.readAll path with
    | none => exact h
    | some image =>
      by_cases hbad : image = [] ∨ image.length % blockSize ≠ 0
      · simpa only [if_pos hbad] using h
      · simp only [if_neg hbad]
        refine ⟨?_, h.size⟩
        by_contra hwhole
        exact hbad (.inr hwhole)
  | eject => exact h.eject
  | acknowledgeMediaChange => exact h.of_same rfl rfl
  | executeCommand cdb dataOut => exact h.executeCommand

/-- Whatever the guest selects, the blocks stay whole. -/
theorem wellFormed_run (ops : List (Host × Op)) : (run apply {} ops).WellFormed :=
  Machine.run_inv WellFormed.apply ⟨rfl, .inr (.inr rfl)⟩ ops

theorem WellFormed.size_pos (h : d.WellFormed) : 0 < d.logicalBlockSize := by
  rcases h.size with hsize | hsize | hsize
  · omega
  · omega
  · rw [hsize]
    decide

/-- The logical blocks make up the image. -/
theorem WellFormed.blocks (h : d.WellFormed) :
    d.image.length / d.logicalBlockSize * d.logicalBlockSize = d.image.length := by
  have hwhole := h.whole
  unfold blockSize at hwhole
  refine Nat.div_mul_cancel (Nat.dvd_of_mod_eq_zero ?_)
  rcases h.size with hsize | hsize | hsize
  · rw [hsize]
    omega
  · rw [hsize]
    omega
  · rw [hsize]
    exact h.whole

/-! ## Commands -/

/-- READ(10) and READ(12). -/
def readTenCdb (lba blocks : Nat) : List UInt8 := [0x28, 0] ++ be32 lba ++ [0] ++ be16 blocks ++ [0]

def readTwelveCdb (lba blocks : Nat) : List UInt8 :=
  [0xa8, 0] ++ be32 lba ++ be32 blocks ++ [0, 0]

/-- The AppleCD reads, with addresses in blocks and as the table of contents has them in
    minutes, seconds and frames. -/
def readRawCdb (lba blocks : Nat) : List UInt8 := [0xd8, 0] ++ be32 lba ++ be32 blocks ++ [0, 0]

def readMsfCdb (lba blocks : Nat) : List UInt8 :=
  [0xd9, 0] ++ address lba true ++ address (lba + blocks) true ++ [0, 0]

/-- The blocks that minutes, seconds and frames reach. -/
def msfBlocks : Nat := 256 * 60 * 75 - 150

/-- The result of a read of `blocks` blocks from `lba`: the bytes of the image, if all of them
    are there. -/
def Serves (d : ScsiCdRomDevice) (lba blocks : Nat) (r : ScsiCommandResult) : Prop :=
  if (lba + blocks) * d.logicalBlockSize ≤ d.image.length then
    r.status = 0 ∧
      r.data = (d.image.take ((lba + blocks) * d.logicalBlockSize)).drop (lba * d.logicalBlockSize)
  else r.status = 0x02 ∧ r.data = []

/-- The views of the image agree: logical blocks, their number, and raw sectors. -/
structure AddressesAgree (d : ScsiCdRomDevice) : Prop where
  readTen : ∀ cdb dataOut, byteAt cdb 0 = 0x28 → 10 ≤ cdb.length →
    d.Serves (be32At cdb 2) (be16At cdb 7) (d.executeCommand cdb dataOut).1
  readTwelve : ∀ cdb dataOut, byteAt cdb 0 = 0xa8 → 12 ≤ cdb.length →
    d.Serves (be32At cdb 2) (be32At cdb 6) (d.executeCommand cdb dataOut).1
  readCapacity : d.image.length / d.logicalBlockSize < 2 ^ 32 →
    ∀ cdb dataOut, byteAt cdb 0 = 0x25 → ∃ last < 2 ^ 32,
      (d.executeCommand cdb dataOut).1 = good (be32 last ++ be32 d.logicalBlockSize) ∧
      ∀ lba < 2 ^ 32,
        ((d.executeCommand (readTenCdb lba 1) []).1.status = 0 ↔ lba ≤ last) ∧
        ((d.executeCommand (readTwelveCdb lba 1) []).1.status = 0 ↔ lba ≤ last)
  readMsf : ∀ lba blocks, lba + blocks < msfBlocks → ∀ dataOut,
    d.executeCommand (readMsfCdb lba blocks) dataOut =
      d.executeCommand (readRawCdb lba blocks) dataOut

/-! ## Numbers in commands -/

theorem toNat_be32 (a b c d : UInt8) :
    a.toNat <<< 24 ||| b.toNat <<< 16 ||| c.toNat <<< 8 ||| d.toNat =
      ((a.toNat * 256 + b.toNat) * 256 + c.toNat) * 256 + d.toNat := by
  have hb := b.toNat_lt
  have hc := c.toNat_lt
  have hd := d.toNat_lt
  have hlow : c.toNat <<< 8 + d.toNat < 2 ^ 16 := by
    rw [Nat.shiftLeft_eq]
    omega
  have hmiddle : b.toNat <<< 16 + (c.toNat <<< 8 + d.toNat) < 2 ^ 24 := by
    rw [Nat.shiftLeft_eq]
    omega
  rw [Nat.or_assoc, Nat.or_assoc, ← Nat.shiftLeft_add_eq_or_of_lt hd,
    ← Nat.shiftLeft_add_eq_or_of_lt hlow, ← Nat.shiftLeft_add_eq_or_of_lt hmiddle]
  simp only [Nat.shiftLeft_eq]
  omega

theorem byteAt_middle {bytes : List UInt8} {i : Nat} (hi : i < bytes.length)
    (before after : List UInt8) :
    byteAt (before ++ bytes ++ after) (before.length + i) = byteAt bytes i := by
  unfold byteAt
  rw [List.getD_eq_getElem?_getD, List.getD_eq_getElem?_getD, List.append_assoc,
    List.getElem?_append_right (Nat.le_add_right _ _), Nat.add_sub_cancel_left,
    List.getElem?_append_left hi]

/-- An address is read back from a command. -/
theorem be32At_be32 {value : Nat} (h : value < 2 ^ 32) (before after : List UInt8) :
    be32At (before ++ be32 value ++ after) before.length = value := by
  have hbyte : ∀ i < 4, byteAt (before ++ be32 value ++ after) (before.length + i) =
      byteAt (be32 value) i := by
    intro i hi
    exact byteAt_middle hi before after
  have h0 := hbyte 0 (by decide)
  rw [Nat.add_zero] at h0
  rw [be32At, h0, hbyte 1 (by decide), hbyte 2 (by decide), hbyte 3 (by decide), toNat_be32]
  show (((UInt8.ofNat (value >>> 24)).toNat * 256 + (UInt8.ofNat (value >>> 16)).toNat) * 256 +
    (UInt8.ofNat (value >>> 8)).toNat) * 256 + (UInt8.ofNat value).toNat = value
  simp only [UInt8.toNat_ofNat', Nat.shiftRight_eq_div_pow]
  omega

/-- An address in minutes, seconds and frames counts the frames from the start of the disc. -/
theorem msfFrames_address {lba : Nat} (h : lba < msfBlocks) (before after : List UInt8) :
    msfFrames (byteAt (before ++ address lba true ++ after) (before.length + 1))
      (byteAt (before ++ address lba true ++ after) (before.length + 2))
      (byteAt (before ++ address lba true ++ after) (before.length + 3)) = lba + 150 := by
  have hbyte : ∀ i < 4, byteAt (before ++ address lba true ++ after) (before.length + i) =
      byteAt (address lba true) i := by
    intro i hi
    exact byteAt_middle hi before after
  unfold msfBlocks at h
  have hframes : (lba + 150) % 2 ^ 32 = lba + 150 := Nat.mod_eq_of_lt (by omega)
  rw [hbyte 1 (by decide), hbyte 2 (by decide), hbyte 3 (by decide)]
  show msfFrames (UInt8.ofNat ((lba + 150) % 2 ^ 32 / (60 * 75)))
    (UInt8.ofNat ((lba + 150) % 2 ^ 32 / 75 % 60)) (UInt8.ofNat ((lba + 150) % 2 ^ 32 % 75)) = _
  rw [hframes]
  unfold msfFrames
  simp only [UInt8.toNat_ofNat']
  omega

/-! ## Reads -/

/-- A command that is neither stopped by an attention nor by a missing disc is executed. -/
theorem executeCommand_eq_dispatch (hready : d.ready = true) (ha : d.unitAttention = false)
    (hne : cdb ≠ []) : d.executeCommand cdb dataOut = d.dispatch cdb dataOut := by
  unfold executeCommand
  dsimp only
  rw [if_neg hne, ha, hready, if_neg (by simp), if_neg (by simp)]

theorem ne_nil_of_opcode {opcode : UInt8} (h : byteAt cdb 0 = opcode) (hopcode : opcode ≠ 0) :
    cdb ≠ [] := by
  rintro rfl
  exact hopcode h.symm

/-- A read succeeds exactly if its blocks are on the disc, and gives their bytes. -/
theorem WellFormed.serves_read (h : d.WellFormed) (lba blocks : Nat) :
    d.Serves lba blocks (d.read lba blocks).1 := by
  have hblocks := h.blocks
  have hinside : (lba + blocks) * d.logicalBlockSize ≤ d.image.length ↔
      lba + blocks ≤ d.image.length / d.logicalBlockSize :=
    (Nat.le_div_iff_mul_le h.size_pos).symm
  unfold Serves ScsiCdRomDevice.read
  dsimp only
  by_cases hin : lba + blocks ≤ d.image.length / d.logicalBlockSize
  · rw [if_pos (hinside.mpr hin), if_neg (by omega)]
    refine ⟨rfl, ?_⟩
    show mid d.image (lba * d.logicalBlockSize) (blocks * d.logicalBlockSize) = _
    unfold mid
    rw [List.drop_take, Nat.add_mul, Nat.add_sub_cancel_left]
  · rw [if_neg fun hle => hin (hinside.mp hle), if_pos (by omega)]
    exact ⟨rfl, rfl⟩

theorem Serves.good_iff {lba blocks : Nat} {r : ScsiCommandResult} (h : d.Serves lba blocks r) :
    r.status = 0 ↔ (lba + blocks) * d.logicalBlockSize ≤ d.image.length := by
  unfold Serves at h
  by_cases hin : (lba + blocks) * d.logicalBlockSize ≤ d.image.length
  · rw [if_pos hin] at h
    exact iff_of_true h.1 hin
  · rw [if_neg hin] at h
    refine iff_of_false ?_ hin
    rw [h.1]
    decide

section
variable (h : d.WellFormed) (hready : d.ready = true) (ha : d.unitAttention = false)
include h hready ha

theorem WellFormed.serves_readTen (hop : byteAt cdb 0 = 0x28) (hlength : 10 ≤ cdb.length) :
    d.Serves (be32At cdb 2) (be16At cdb 7) (d.executeCommand cdb dataOut).1 := by
  have hdispatch : d.dispatch cdb dataOut = d.read (be32At cdb 2) (be16At cdb 7) := by
    unfold ScsiCdRomDevice.dispatch
    rw [hop]
    exact if_neg (by omega)
  rw [executeCommand_eq_dispatch hready ha (ne_nil_of_opcode hop (by decide)), hdispatch]
  exact h.serves_read _ _

theorem WellFormed.serves_readTwelve (hop : byteAt cdb 0 = 0xa8) (hlength : 12 ≤ cdb.length) :
    d.Serves (be32At cdb 2) (be32At cdb 6) (d.executeCommand cdb dataOut).1 := by
  have hdispatch : d.dispatch cdb dataOut = d.read (be32At cdb 2) (be32At cdb 6) := by
    unfold ScsiCdRomDevice.dispatch
    rw [hop]
    exact if_neg (by omega)
  rw [executeCommand_eq_dispatch hready ha (ne_nil_of_opcode hop (by decide)), hdispatch]
  exact h.serves_read _ _

/-- The capacity is the last block that can be read. -/
theorem WellFormed.readCapacity_last
    (hblocks : d.image.length / d.logicalBlockSize < 2 ^ 32) (hop : byteAt cdb 0 = 0x25) :
    ∃ last < 2 ^ 32,
      (d.executeCommand cdb dataOut).1 = good (be32 last ++ be32 d.logicalBlockSize) ∧
      ∀ lba < 2 ^ 32,
        ((d.executeCommand (readTenCdb lba 1) []).1.status = 0 ↔ lba ≤ last) ∧
        ((d.executeCommand (readTwelveCdb lba 1) []).1.status = 0 ↔ lba ≤ last) := by
  have hsize := h.size_pos
  have hlength := h.blocks
  have hpos : 0 < d.image.length / d.logicalBlockSize := by
    rcases Nat.eq_zero_or_pos (d.image.length / d.logicalBlockSize) with hzero | hpos
    · -- a disc that is there has bytes
      rw [hzero, Nat.zero_mul] at hlength
      have hnil : d.image = [] := List.length_eq_zero_iff.mp hlength.symm
      unfold ready at hready
      rw [hnil] at hready
      cases hready
    · exact hpos
  have hdispatch : d.dispatch cdb dataOut = (d.readCapacity, d) := by
    unfold ScsiCdRomDevice.dispatch
    rw [hop]
    rfl
  have hin : ∀ lba, (lba + 1) * d.logicalBlockSize ≤ d.image.length ↔
      lba ≤ d.image.length / d.logicalBlockSize - 1 := by
    intro lba
    rw [← Nat.le_div_iff_mul_le hsize]
    omega
  refine ⟨d.image.length / d.logicalBlockSize - 1, by omega, ?_, fun lba hlba => ⟨?_, ?_⟩⟩
  · rw [executeCommand_eq_dispatch hready ha (ne_nil_of_opcode hop (by decide)), hdispatch]
    show d.readCapacity = _
    unfold ScsiCdRomDevice.readCapacity
    dsimp only
    rw [Nat.mod_eq_of_lt hblocks, if_neg (by omega)]
  · have hserves := @WellFormed.serves_readTen d (readTenCdb lba 1) [] h hready ha rfl
      (Nat.le_refl 10)
    have hlba' : be32At (readTenCdb lba 1) 2 = lba :=
      be32At_be32 hlba [0x28, 0] ([0] ++ be16 1 ++ [0])
    have hone : be16At (readTenCdb lba 1) 7 = 1 := by
      rw [be16At, show byteAt (readTenCdb lba 1) 7 = 0 from rfl,
        show byteAt (readTenCdb lba 1) 8 = 1 from rfl]
      rfl
    rw [hlba', hone] at hserves
    rw [hserves.good_iff]
    exact hin lba
  · have hserves :=
      @WellFormed.serves_readTwelve d (readTwelveCdb lba 1) [] h hready ha rfl (Nat.le_refl 12)
    have hlba' : be32At (readTwelveCdb lba 1) 2 = lba :=
      be32At_be32 hlba [0xa8, 0] (be32 1 ++ [0, 0])
    have hone : be32At (readTwelveCdb lba 1) 6 = 1 :=
      be32At_be32 (by decide) ([0xa8, 0] ++ be32 lba) [0, 0]
    rw [hlba', hone] at hserves
    rw [hserves.good_iff]
    exact hin lba

end

theorem dispatch_readRaw (hop : byteAt cdb 0 = 0xd8) (hlength : 12 ≤ cdb.length)
    (hplain : byteAt cdb 10 = 0) :
    d.dispatch cdb dataOut = d.readAppleRaw (be32At cdb 2) (be32At cdb 6) := by
  unfold ScsiCdRomDevice.dispatch
  rw [hop]
  exact if_neg (not_or.mpr ⟨by omega, not_not.mpr hplain⟩)

theorem dispatch_readMsf {startFrames endFrames : Nat} (hop : byteAt cdb 0 = 0xd9)
    (hlength : 12 ≤ cdb.length) (hplain : byteAt cdb 10 = 0)
    (hstart : msfFrames (byteAt cdb 3) (byteAt cdb 4) (byteAt cdb 5) = startFrames)
    (hend : msfFrames (byteAt cdb 7) (byteAt cdb 8) (byteAt cdb 9) = endFrames)
    (hlead : 150 ≤ startFrames) (hle : startFrames ≤ endFrames) :
    d.dispatch cdb dataOut = d.readAppleRaw (startFrames - 150) (endFrames - startFrames) := by
  unfold ScsiCdRomDevice.dispatch
  rw [hop]
  show (if cdb.length < 12 ∨ byteAt cdb 10 ≠ 0 then d.checkCondition senseIllegalRequest 0x24
    else if msfFrames (byteAt cdb 3) (byteAt cdb 4) (byteAt cdb 5) < 150 ∨
        msfFrames (byteAt cdb 7) (byteAt cdb 8) (byteAt cdb 9) <
          msfFrames (byteAt cdb 3) (byteAt cdb 4) (byteAt cdb 5) then
      d.checkCondition senseIllegalRequest 0x24
    else d.readAppleRaw (msfFrames (byteAt cdb 3) (byteAt cdb 4) (byteAt cdb 5) - 150)
      (msfFrames (byteAt cdb 7) (byteAt cdb 8) (byteAt cdb 9) -
        msfFrames (byteAt cdb 3) (byteAt cdb 4) (byteAt cdb 5))) = _
  rw [if_neg (not_or.mpr ⟨by omega, not_not.mpr hplain⟩), hstart, hend, if_neg (by omega)]

/-- The two AppleCD reads of the same blocks are the same. -/
theorem readMsf_eq_readRaw (hready : d.ready = true) (ha : d.unitAttention = false)
    {lba blocks : Nat} (hreach : lba + blocks < msfBlocks) :
    d.executeCommand (readMsfCdb lba blocks) dataOut =
      d.executeCommand (readRawCdb lba blocks) dataOut := by
  have hbound : msfBlocks < 2 ^ 32 := by decide
  have hrawOp : byteAt (readRawCdb lba blocks) 0 = 0xd8 := rfl
  have hrawLength : 12 ≤ (readRawCdb lba blocks).length := Nat.le_refl 12
  have hmsfOp : byteAt (readMsfCdb lba blocks) 0 = 0xd9 := rfl
  have hmsfLength : 12 ≤ (readMsfCdb lba blocks).length := Nat.le_refl 12
  have hraw : d.dispatch (readRawCdb lba blocks) dataOut = d.readAppleRaw lba blocks := by
    have hlba : be32At (readRawCdb lba blocks) 2 = lba :=
      be32At_be32 (by omega) [0xd8, 0] (be32 blocks ++ [0, 0])
    have hblocks : be32At (readRawCdb lba blocks) 6 = blocks :=
      be32At_be32 (by omega) ([0xd8, 0] ++ be32 lba) [0, 0]
    rw [dispatch_readRaw hrawOp hrawLength rfl, hlba, hblocks]
  have hmsf : d.dispatch (readMsfCdb lba blocks) dataOut = d.readAppleRaw lba blocks := by
    have hstart : msfFrames (byteAt (readMsfCdb lba blocks) 3) (byteAt (readMsfCdb lba blocks) 4)
        (byteAt (readMsfCdb lba blocks) 5) = lba + 150 :=
      msfFrames_address (by omega) [0xd9, 0] (address (lba + blocks) true ++ [0, 0])
    have hend : msfFrames (byteAt (readMsfCdb lba blocks) 7) (byteAt (readMsfCdb lba blocks) 8)
        (byteAt (readMsfCdb lba blocks) 9) = lba + blocks + 150 :=
      msfFrames_address hreach ([0xd9, 0] ++ address lba true) [0, 0]
    rw [dispatch_readMsf hmsfOp hmsfLength rfl hstart hend (by omega) (by omega),
      Nat.add_sub_cancel, show lba + blocks + 150 - (lba + 150) = blocks by omega]
  rw [executeCommand_eq_dispatch hready ha (ne_nil_of_opcode hrawOp (by decide)), hraw,
    executeCommand_eq_dispatch hready ha (ne_nil_of_opcode hmsfOp (by decide)), hmsf]

/-- **The addresses agree** in every state that the drive can reach, with a disc and with no
    unit attention pending. -/
theorem addresses_agree (ops : List (Host × Op)) (hready : (run apply {} ops).ready = true)
    (ha : (run apply {} ops).unitAttention = false) : (run apply {} ops).AddressesAgree := by
  have h := wellFormed_run ops
  generalize run apply {} ops = d at h hready ha ⊢
  refine ⟨?_, ?_, ?_, ?_⟩
  · intro cdb dataOut hop hlength
    exact h.serves_readTen hready ha hop hlength
  · intro cdb dataOut hop hlength
    exact h.serves_readTwelve hready ha hop hlength
  · intro hblocks cdb dataOut hop
    exact h.readCapacity_last hready ha hblocks hop
  · intro lba blocks hreach dataOut
    exact readMsf_eq_readRaw hready ha hreach

/-! ## Discs -/

/-- A host with one file. -/
def discHost (image : List UInt8) : Host := ⟨fun _ => some image, fun _ _ _ => false⟩

/-- A drive with a disc just inserted. -/
def inserted (image : List UInt8) : List (Host × Op) := [(discHost image, .loadImage "disc")]

/-- The same with the change acknowledged. -/
def acknowledged (image : List UInt8) : List (Host × Op) :=
  [(discHost image, .loadImage "disc"), (discHost image, .acknowledgeMediaChange)]

theorem ready_of_length {image : List UInt8} {n : Nat} (hlength : image.length = n + 1) :
    (!image.isEmpty) = true := by
  cases image with
  | nil => cases hlength
  | cons b image => rfl

theorem run_inserted {image : List UInt8} {n : Nat} (hlength : image.length = n + 1)
    (hwhole : (n + 1) % blockSize = 0) :
    run apply {} (inserted image) =
      { image := image
        imagePath := "disc"
        senseKey := senseUnitAttention
        additionalSenseCode := ascMediumChanged
        unitAttention := true } := by
  have hgood : ¬ (image = [] ∨ image.length % blockSize ≠ 0) := by
    rintro (rfl | hbad)
    · cases hlength
    · rw [hlength] at hbad
      exact hbad hwhole
  show (loadImage (discHost image) {} "disc").2 = _
  show (if image = [] ∨ image.length % blockSize ≠ 0 then _ else _ : Bool × ScsiCdRomDevice).2 = _
  rw [if_neg hgood]

theorem run_acknowledged {image : List UInt8} {n : Nat} (hlength : image.length = n + 1)
    (hwhole : (n + 1) % blockSize = 0) :
    (run apply {} (acknowledged image)).image = image ∧
      (run apply {} (acknowledged image)).logicalBlockSize = blockSize ∧
      (run apply {} (acknowledged image)).ready = true ∧
      (run apply {} (acknowledged image)).unitAttention = false := by
  have hack : run apply {} (acknowledged image) =
      acknowledgeMediaChange (run apply {} (inserted image)) := rfl
  rw [hack, run_inserted hlength hwhole]
  exact ⟨rfl, rfl, ready_of_length hlength, rfl⟩

/-- A disc of one block. -/
theorem addresses_agree_oneBlock :
    (run apply {} (acknowledged (List.replicate 2048 0))).AddressesAgree := by
  obtain ⟨-, -, hready, ha⟩ := @run_acknowledged (List.replicate 2048 0) 2047
    List.length_replicate rfl
  exact addresses_agree (acknowledged (List.replicate 2048 0)) hready ha

theorem not_serves_of_attention (ha : d.unitAttention = true)
    (hin : d.logicalBlockSize ≤ d.image.length) :
    ¬ d.Serves 0 1 (d.executeCommand (readTenCdb 0 1) []).1 := by
  intro hserves
  have hstatus := (Serves.good_iff hserves).mpr (by omega)
  have hop : byteAt (readTenCdb 0 1) 0 = 0x28 := rfl
  rw [executeCommand_attention (ne_nil_of_opcode hop (by decide)) ha rfl rfl] at hstatus
  exact absurd hstatus (show ¬ (0x02 : UInt8) = 0 by decide)

theorem readCapacity_wraps (h : d.WellFormed) (hready : d.ready = true)
    (ha : d.unitAttention = false) (hsize : d.logicalBlockSize = blockSize)
    (hlength : d.image.length = 2 ^ 32 * blockSize) :
    (d.executeCommand [0x25, 0, 0, 0, 0, 0, 0, 0, 0, 0] []).1 = good (be32 0 ++ be32 2048) ∧
      (d.executeCommand (readTenCdb 1 1) []).1.status = 0 := by
  have hblocks : d.image.length / d.logicalBlockSize = 2 ^ 32 := by
    rw [hsize, hlength]
    exact Nat.mul_div_cancel _ (by decide)
  refine ⟨?_, ?_⟩
  · rw [executeCommand_eq_dispatch hready ha (List.cons_ne_nil _ _)]
    show d.readCapacity = _
    unfold readCapacity
    dsimp only
    rw [hblocks, hsize]
    rfl
  · have hserves := @WellFormed.serves_readTen d (readTenCdb 1 1) [] h hready ha rfl (by decide)
    refine (Serves.good_iff hserves).mpr ?_
    have hsum : be32At (readTenCdb 1 1) 2 + be16At (readTenCdb 1 1) 7 = 2 := rfl
    rw [hsum, hsize, hlength]
    exact Nat.mul_le_mul_right _ (by decide)

theorem readMsf_wraps (hready : d.ready = true) (ha : d.unitAttention = false)
    (hcount : d.blockCount = 1) :
    (d.executeCommand (readMsfCdb 0 (256 * 60 * 75 + 1)) []).1.data ≠
      (d.executeCommand (readRawCdb 0 (256 * 60 * 75 + 1)) []).1.data := by
  have hraw : (d.executeCommand (readRawCdb 0 (256 * 60 * 75 + 1)) []).1.data = [] := by
    have hop : byteAt (readRawCdb 0 (256 * 60 * 75 + 1)) 0 = 0xd8 := rfl
    rw [executeCommand_eq_dispatch hready ha (ne_nil_of_opcode hop (by decide)),
      dispatch_readRaw hop (by decide) rfl]
    unfold readAppleRaw
    rw [hcount, if_pos (by decide)]
    rfl
  have hmsf : (d.executeCommand (readMsfCdb 0 (256 * 60 * 75 + 1)) []).1.data =
      d.rawSector 0 ++ [] := by
    have hop : byteAt (readMsfCdb 0 (256 * 60 * 75 + 1)) 0 = 0xd9 := rfl
    rw [executeCommand_eq_dispatch hready ha (ne_nil_of_opcode hop (by decide)),
      dispatch_readMsf hop (by decide) rfl (show _ = 150 by decide) (show _ = 151 by decide)
        (by decide) (by decide)]
    unfold readAppleRaw
    rw [hcount, if_neg (by decide)]
    rfl
  rw [hraw, hmsf]
  exact List.cons_ne_nil _ _

/-- The first command behind the change of a disc does not read it, a disc of 2 ^ 32 blocks has
    no capacity, and an address that minutes do not reach wraps around. -/
theorem addresses_disagree :
    (∃ image, (run apply {} (inserted image)).ready = true ∧
      ¬ (run apply {} (inserted image)).Serves 0 1
        ((run apply {} (inserted image)).executeCommand (readTenCdb 0 1) []).1) ∧
    (∃ image,
      ((run apply {} (acknowledged image)).executeCommand [0x25, 0, 0, 0, 0, 0, 0, 0, 0, 0] []).1 =
          good (be32 0 ++ be32 2048) ∧
        ((run apply {} (acknowledged image)).executeCommand (readTenCdb 1 1) []).1.status = 0) ∧
    ∃ image,
      ((run apply {} (acknowledged image)).executeCommand
          (readMsfCdb 0 (256 * 60 * 75 + 1)) []).1.data ≠
        ((run apply {} (acknowledged image)).executeCommand
          (readRawCdb 0 (256 * 60 * 75 + 1)) []).1.data := by
  have hsmall : (List.replicate 2048 (0 : UInt8)).length = 2047 + 1 := List.length_replicate
  refine ⟨⟨List.replicate 2048 0, ?_⟩, ⟨List.replicate (2 ^ 43) 0, ?_⟩, List.replicate 2048 0, ?_⟩
  · generalize List.replicate 2048 (0 : UInt8) = image at hsmall ⊢
    rw [run_inserted hsmall rfl]
    refine ⟨ready_of_length hsmall, not_serves_of_attention rfl ?_⟩
    show 2048 ≤ image.length
    omega
  · have hhuge : (List.replicate (2 ^ 43) (0 : UInt8)).length = (2 ^ 43 - 1) + 1 :=
      List.length_replicate
    generalize List.replicate (2 ^ 43) (0 : UInt8) = image at hhuge ⊢
    obtain ⟨himage, hsize, hready, ha⟩ := run_acknowledged hhuge (by simp [blockSize])
    refine readCapacity_wraps (wellFormed_run _) hready ha hsize ?_
    rw [himage, hhuge]
    simp [blockSize]
  · generalize List.replicate 2048 (0 : UInt8) = image at hsmall ⊢
    obtain ⟨himage, -, hready, ha⟩ := run_acknowledged hsmall rfl
    refine readMsf_wraps hready ha ?_
    unfold blockCount
    rw [himage, hsmall]
    rfl

end ScsiCdRomDevice

end CuteMac.Scsi
