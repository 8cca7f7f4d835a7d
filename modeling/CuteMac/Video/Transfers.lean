/-
  What the commands of the accelerator do to the memory.

  * `Written`: some rows of a rectangle hold new values, all else is unchanged;
  * `acceleratedVramCopy_spec`, `acceleratedVramFill_spec`: transfers of rows;
  * `Painted`: the same for pixels, bit by bit;
  * `acceleratedMonochromeExpand_spec`: the expansion;
  * `run_commands`: every command, in every state that writes lead to.
-/
import CuteMac.Lib.Machine
import CuteMac.Lib.Pages
import CuteMac.Lib.ShiftRegister
import CuteMac.Video.AcceleratedVideoCard

namespace CuteMac.Video

open Slice

/-! ## Rows -/

/-- The rows in `done` hold their values, and no other byte has changed. -/
structure Written (old new : List UInt8) (offset stride width : Nat)
    (value : Nat → Nat → Option UInt8) (done : Nat → Prop) : Prop where
  length : new.length = old.length
  inside : ∀ r, done r → ∀ i < width, new[offset + r * stride + i]? = value r i
  outside : ∀ j, (∀ r, done r → ∀ i < width, j ≠ offset + r * stride + i) → new[j]? = old[j]?

/-- Bytes of different rows are apart. -/
theorem row_apart {stride width r x i : Nat} (hw : width ≤ stride) (hx : x ≠ r) (hi : i < width) :
    x * stride + i < r * stride ∨ r * stride + width ≤ x * stride + i := by
  rcases Nat.lt_or_gt_of_ne hx with h | h
  · have hm := Nat.mul_le_mul_right stride (Nat.succ_le_of_lt h)
    rw [Nat.succ_mul] at hm
    omega
  · have hm := Nat.mul_le_mul_right stride (Nat.succ_le_of_lt h)
    rw [Nat.succ_mul] at hm
    omega

variable {old : List UInt8} {v : Vram} {offset stride width : Nat}
  {value : Nat → Nat → Option UInt8} {done : Nat → Prop}

/-- One more row is written. -/
theorem Written.write (h : Written old v.bytes offset stride width value done) (hw : width ≤ stride)
    (r : Nat) (values : List UInt8) (hlen : values.length = width)
    (hval : ∀ i < width, values[i]? = value r i)
    (hfit : offset + r * stride + width ≤ v.bytes.length) :
    ∃ v', v.write (offset + r * stride) values = some v' ∧
      Written old v'.bytes offset stride width value fun x => x = r ∨ done x := by
  have hin : offset + r * stride + values.length ≤ v.bytes.length := by rwa [hlen]
  refine ⟨_, dif_pos hin, (length_overwrite hin).trans h.length, ?_, ?_⟩
  · intro x hx i hi
    dsimp only
    rw [getElem?_overwrite hin, hlen]
    by_cases hxr : x = r
    · subst hxr
      rw [if_pos (by omega), Nat.add_sub_cancel_left, hval i hi]
    · have hd : done x := hx.resolve_left hxr
      rw [if_neg (by have := row_apart hw hxr hi; omega)]
      exact h.inside x hd i hi
  · intro j hj
    dsimp only
    rw [getElem?_overwrite hin, hlen]
    have hout : ¬ (offset + r * stride ≤ j ∧ j < offset + r * stride + width) := by
      rintro ⟨h1, h2⟩
      exact hj r (Or.inl rfl) (j - (offset + r * stride)) (by omega) (by omega)
    rw [if_neg hout]
    exact h.outside j fun x hx i hi => hj x (Or.inr hx) i hi

theorem Written.congr {new : List UInt8} {done' : Nat → Prop}
    (h : Written old new offset stride width value done) (hd : ∀ x, done' x ↔ done x) :
    Written old new offset stride width value done' := by
  have heq : done' = done := funext fun x => propext (hd x)
  rwa [heq]

theorem Written.start (bytes : List UInt8) (offset stride width : Nat)
    (value : Nat → Nat → Option UInt8) (hd : ∀ x, ¬ done x) :
    Written bytes bytes offset stride width value done where
  length := rfl
  inside r hr := absurd hr (hd r)
  outside _ _ := rfl

/-- A rectangle that ends inside the memory: the 32-bit places of its rows. -/
theorem rowOffset_eq {offset stride height row : UInt32} {rowBytes size : Nat}
    (hsize : size ≤ vramLimit) (hend : Transfer.rangeEnd offset height stride rowBytes ≤ size)
    (hrow : row.toNat < height.toNat) :
    Vram.rowOffset offset row stride = offset.toNat + row.toNat * stride.toNat ∧
      offset.toNat + row.toNat * stride.toNat + rowBytes ≤ size := by
  have hheight : (height - 1).toNat = height.toNat - 1 := by
    rw [UInt32.toNat_sub_of_le]
    · rfl
    · rw [UInt32.le_iff_toNat_le]
      exact Nat.succ_le_of_lt (Nat.zero_lt_of_lt hrow)
  have hmul : row.toNat * stride.toNat ≤ (height - 1).toNat * stride.toNat :=
    Nat.mul_le_mul_right _ (by omega)
  unfold Transfer.rangeEnd at hend
  unfold vramLimit at hsize
  unfold Vram.rowOffset
  rw [UInt32.toNat_mul, Nat.mod_eq_of_lt (by omega)]
  exact ⟨rfl, by omega⟩

theorem toNat_ofNat_lt {n : Nat} {height : UInt32} (h : n < height.toNat) :
    (UInt32.ofNat n).toNat = n := by
  rw [UInt32.toNat_ofNat']
  exact Nat.mod_eq_of_lt (h.trans height.toNat_lt)

/-! ## Transfers of rows -/

/-- The rows of an overlapping copy that are left to read are not written yet. -/
theorem source_apart {source destination stride width r x i j : Nat} (hw : width ≤ stride)
    (hi : i < width) (hj : j < width)
    (h : source < destination ∧ r < x ∨ destination ≤ source ∧ x < r) :
    source + r * stride + i ≠ destination + x * stride + j := by
  rcases h with ⟨hlt, hx⟩ | ⟨hle, hx⟩
  · have hm := Nat.mul_le_mul_right stride (Nat.succ_le_of_lt hx)
    rw [Nat.succ_mul] at hm
    omega
  · have hm := Nat.mul_le_mul_right stride (Nat.succ_le_of_lt hx)
    rw [Nat.succ_mul] at hm
    omega

section Copy
variable {sourceOffset destinationOffset sourceStride destinationStride widthBytes height : UInt32}
  {backward : Bool}

/-- The row that a round of the copy is about. -/
def copyRow (height : UInt32) (backward : Bool) (k : Nat) : UInt32 :=
  if backward then height - 1 - UInt32.ofNat k else UInt32.ofNat k

theorem toNat_copyRow (backward : Bool) {k : Nat} (hk : k < height.toNat) :
    (copyRow height backward k).toNat = if backward then height.toNat - 1 - k else k := by
  have hk' := toNat_ofNat_lt hk
  have hone : (1 : UInt32).toNat = 1 := rfl
  have hheight : (height - 1).toNat = height.toNat - 1 := by
    rw [UInt32.toNat_sub_of_le, hone]
    rw [UInt32.le_iff_toNat_le, hone]
    omega
  unfold copyRow
  cases backward with
  | false => exact hk'
  | true =>
    rw [if_pos rfl, if_pos rfl, UInt32.toNat_sub_of_le, hheight, hk']
    rw [UInt32.le_iff_toNat_le, hheight, hk']
    omega

theorem copyRow_lt (backward : Bool) {k : Nat} (hk : k < height.toNat) :
    (copyRow height backward k).toNat < height.toNat := by
  rw [toNat_copyRow backward hk]
  split_ifs <;> omega

theorem memmove_eq {v : Vram} (destination : Nat) {source size : Nat}
    (h : source + size ≤ v.bytes.length) :
    v.memmove destination source size = v.write destination (mid v.bytes source size) ∧
      (mid v.bytes source size).length = size := by
  constructor
  · unfold Vram.memmove Vram.read
    rw [if_pos h]
    rfl
  · rw [length_mid]
    omega

theorem acceleratedVramCopy_eq (v : Vram) :
    v.acceleratedVramCopy sourceOffset destinationOffset sourceStride destinationStride
        widthBytes height backward =
      (List.range height.toNat).foldlM (fun (v : Vram) k =>
        v.memmove (Vram.rowOffset destinationOffset (copyRow height backward k) destinationStride)
          (Vram.rowOffset sourceOffset (copyRow height backward k) sourceStride)
          widthBytes.toNat) v := rfl

/-- A copy whose rectangles are in the memory stays inside. -/
theorem acceleratedVramCopy_some (backward : Bool) (v : Vram)
    (hs : Transfer.rangeEnd sourceOffset height sourceStride widthBytes.toNat ≤ v.bytes.length)
    (hd : Transfer.rangeEnd destinationOffset height destinationStride widthBytes.toNat
      ≤ v.bytes.length) :
    ∃ v', v.acceleratedVramCopy sourceOffset destinationOffset sourceStride destinationStride
      widthBytes height backward = some v' ∧ v'.bytes.length = v.bytes.length := by
  rw [acceleratedVramCopy_eq]
  refine Machine.foldlM_range_inv (P := fun _ (v' : Vram) => v'.bytes.length = v.bytes.length)
    rfl ?_
  intro k hk v' hlen
  have hrow := copyRow_lt backward hk
  obtain ⟨es, hs'⟩ := rowOffset_eq v.bounded hs hrow
  obtain ⟨ed, hd'⟩ := rowOffset_eq v.bounded hd hrow
  rw [es, ed]
  obtain ⟨hmove, hmid⟩ := memmove_eq (v := v') (destinationOffset.toNat
    + (copyRow height backward k).toNat * destinationStride.toNat) (by rw [hlen]; exact hs')
  have hin : destinationOffset.toNat + (copyRow height backward k).toNat * destinationStride.toNat
      + (mid v'.bytes (sourceOffset.toNat
        + (copyRow height backward k).toNat * sourceStride.toNat) widthBytes.toNat).length
        ≤ v'.bytes.length := by
    rw [hmid, hlen]
    exact hd'
  rw [hmove]
  exact ⟨_, dif_pos hin, (length_overwrite hin).trans hlen⟩

/-- A copy in the right direction, between rectangles of one stride: as if all had been read
    before anything was written. -/
theorem acceleratedVramCopy_spec {stride : UInt32} (v : Vram) (hw : widthBytes.toNat ≤ stride.toNat)
    (hs : Transfer.rangeEnd sourceOffset height stride widthBytes.toNat ≤ v.bytes.length)
    (hd : Transfer.rangeEnd destinationOffset height stride widthBytes.toNat ≤ v.bytes.length)
    (hdir : backward = true ↔ sourceOffset.toNat < destinationOffset.toNat) :
    ∃ v', v.acceleratedVramCopy sourceOffset destinationOffset stride stride widthBytes height
        backward = some v' ∧
      Written v.bytes v'.bytes destinationOffset.toNat stride.toNat widthBytes.toNat
        (fun r i => v.bytes[sourceOffset.toNat + r * stride.toNat + i]?)
        (fun r => r < height.toNat) := by
  rw [acceleratedVramCopy_eq]
  -- the rows written after `k` rounds are the last or the first `k`
  obtain ⟨v', hrun, hwritten⟩ := Machine.foldlM_range_inv
    (P := fun k (v' : Vram) =>
      Written v.bytes v'.bytes destinationOffset.toNat stride.toNat widthBytes.toNat
        (fun r i => v.bytes[sourceOffset.toNat + r * stride.toNat + i]?)
        (fun r => if backward then height.toNat - k ≤ r ∧ r < height.toNat else r < k))
    (f := fun (v : Vram) k =>
      v.memmove (Vram.rowOffset destinationOffset (copyRow height backward k) stride)
        (Vram.rowOffset sourceOffset (copyRow height backward k) stride) widthBytes.toNat)
    (n := height.toNat) (s := v)
    (Written.start _ _ _ _ _ (by intro x; split_ifs <;> omega)) (by
      intro k hk v' h
      have hrow := copyRow_lt backward hk
      have hto := toNat_copyRow backward hk
      obtain ⟨es, hs'⟩ := rowOffset_eq v.bounded hs hrow
      obtain ⟨ed, hd'⟩ := rowOffset_eq v.bounded hd hrow
      rw [es, ed]
      generalize (copyRow height backward k).toNat = r at *
      obtain ⟨hmove, hmid⟩ := memmove_eq (v := v') (destinationOffset.toNat + r * stride.toNat)
        (by rw [h.length]; exact hs')
      -- the row to be read is not written yet
      have hval : ∀ i < widthBytes.toNat,
          (mid v'.bytes (sourceOffset.toNat + r * stride.toNat) widthBytes.toNat)[i]?
            = v.bytes[sourceOffset.toNat + r * stride.toNat + i]? := by
        intro i hi
        rw [getElem?_mid, if_pos hi]
        refine h.outside _ fun x hx j hj => source_apart hw hi hj ?_
        cases backward with
        | false =>
          simp only [Bool.false_eq_true, false_iff, if_false] at hdir hto hx
          exact Or.inr ⟨by omega, by omega⟩
        | true =>
          simp only [true_iff, if_true] at hdir hto hx
          exact Or.inl ⟨hdir, by omega⟩
      obtain ⟨w, hwrite, hw'⟩ := h.write hw r _ hmid hval (by rw [h.length]; exact hd')
      refine ⟨w, hmove.trans hwrite, hw'.congr fun x => ?_⟩
      cases backward with
      | false =>
        simp only [Bool.false_eq_true, if_false] at hto ⊢
        omega
      | true =>
        simp only [if_true] at hto ⊢
        omega)
  refine ⟨v', hrun, hwritten.congr fun x => ?_⟩
  cases backward with
  | false => simp only [Bool.false_eq_true, if_false]
  | true =>
    simp only [if_true]
    omega

end Copy

/-- A fill sets the bytes of its rectangle. -/
theorem acceleratedVramFill_spec {destinationOffset stride widthBytes height : UInt32} (v : Vram)
    (byte : UInt8) (hw : widthBytes.toNat ≤ stride.toNat)
    (hd : Transfer.rangeEnd destinationOffset height stride widthBytes.toNat ≤ v.bytes.length) :
    ∃ v', v.acceleratedVramFill destinationOffset stride widthBytes height byte = some v' ∧
      Written v.bytes v'.bytes destinationOffset.toNat stride.toNat widthBytes.toNat
        (fun _ _ => some byte) (fun r => r < height.toNat) := by
  refine Machine.foldlM_range_inv
    (P := fun k (v' : Vram) =>
      Written v.bytes v'.bytes destinationOffset.toNat stride.toNat widthBytes.toNat
        (fun _ _ => some byte) (fun r => r < k))
    (Written.start _ _ _ _ _ (by omega)) ?_
  intro k hk v' h
  have hrow := toNat_ofNat_lt hk
  obtain ⟨ed, hd'⟩ := rowOffset_eq v.bounded hd (hrow.symm ▸ hk)
  rw [hrow] at ed hd'
  obtain ⟨w, hwrite, hw'⟩ := h.write hw k (List.replicate widthBytes.toNat byte)
    List.length_replicate (fun i hi => by rw [List.getElem?_replicate, if_pos hi])
    (by rw [h.length]; exact hd')
  refine ⟨w, ?_, hw'.congr fun x => by omega⟩
  rw [ed]
  exact hwrite

/-! ## Pixels -/

/-- A bit of the memory, the high one of a byte first. -/
def bitAt (bytes : List UInt8) (j : Nat) : Option Bool :=
  bytes[j / 8]?.map fun b => b.toNat.testBit (7 - j % 8)

def IsDepth (depth : UInt32) : Prop := depth = 1 ∨ depth = 2 ∨ depth = 4 ∨ depth = 8

theorem toNat_pixelMask {depth : UInt32} (h : IsDepth depth) :
    (((1 : UInt32) <<< depth) - 1).toUInt8.toNat = 2 ^ depth.toNat - 1 := by
  rcases h with rfl | rfl | rfl | rfl <;> rfl

theorem testBit_not_byte (m : UInt8) {k : Nat} (hk : k < 8) :
    (~~~m).toNat.testBit k = !m.toNat.testBit k := by
  have hm := m.toNat_lt
  rw [UInt8.toNat_not, show UInt8.size - 1 - m.toNat = 2 ^ 8 - (m.toNat + 1) by
    rw [show UInt8.size = 2 ^ 8 from rfl]; omega, Nat.testBit_two_pow_sub_succ hm]
  simp [hk]

/-- The bits of a byte into which a pixel is put. -/
theorem testBit_pixel {depth shift : UInt32} (hd : IsDepth depth) (hs : shift.toNat + depth.toNat ≤ 8)
    (byte colour : UInt8) {k : Nat} (hk : k < 8) :
    ((byte &&& ~~~((((1 : UInt32) <<< depth) - 1).toUInt8 <<< shift.toUInt8)) |||
        ((colour &&& (((1 : UInt32) <<< depth) - 1).toUInt8) <<< shift.toUInt8)).toNat.testBit k
      = if shift.toNat ≤ k ∧ k < shift.toNat + depth.toNat then
          colour.toNat.testBit (k - shift.toNat)
        else byte.toNat.testBit k := by
  have hpos : 0 < depth.toNat := by rcases hd with rfl | rfl | rfl | rfl <;> decide
  have hshift : shift.toUInt8.toNat % 8 = shift.toNat := by
    rw [UInt32.toNat_toUInt8]
    omega
  rw [UInt8.toNat_or, UInt8.toNat_and, Nat.testBit_or, Nat.testBit_and, testBit_not_byte _ hk,
    UInt8.toNat_shiftLeft, UInt8.toNat_shiftLeft, UInt8.toNat_and, toNat_pixelMask hd, hshift,
    Nat.testBit_mod_two_pow, Nat.testBit_mod_two_pow, Nat.testBit_shiftLeft, Nat.testBit_shiftLeft,
    Nat.testBit_and, Nat.testBit_two_pow_sub_one, decide_eq_true hk]
  by_cases h1 : shift.toNat ≤ k
  · by_cases h2 : k < shift.toNat + depth.toNat
    · rw [if_pos ⟨h1, h2⟩, decide_eq_true h1, decide_eq_true (by omega)]
      simp
    · rw [if_neg (by omega), decide_eq_true h1, decide_eq_false (by omega)]
      simp
  · rw [if_neg (by omega), decide_eq_false h1]
    simp

/-- The test of a bit of the source. -/
theorem sourceBit_eq (byte : UInt8) {q : UInt32} (hq : q.toNat < 8) :
    (byte &&& ((0x80 : UInt32) >>> q).toUInt8 != 0) = byte.toNat.testBit (7 - q.toNat) := by
  have hall : ∀ n : Fin 8, ∀ byte : UInt8,
      (byte &&& ((0x80 : UInt32) >>> UInt32.ofNat n.val).toUInt8 != 0)
        = byte.toNat.testBit (7 - n.val) := by
    intro n byte
    revert byte
    refine ShiftRegister.forall_byte ?_
    revert n
    decide +kernel
  have h := hall ⟨q.toNat, hq⟩ byte
  rwa [show UInt32.ofNat q.toNat = q from UInt32.ofNat_toNat] at h

theorem bitAt_overwrite {bytes : List UInt8} {i : Nat} {b : UInt8} (h : i < bytes.length) (j : Nat) :
    bitAt (overwrite bytes i [b]) j
      = if j / 8 = i then some (b.toNat.testBit (7 - j % 8)) else bitAt bytes j := by
  have hin : i + [b].length ≤ bytes.length := h
  unfold bitAt
  rw [getElem?_overwrite hin]
  by_cases hj : j / 8 = i
  · rw [if_pos hj, if_pos (by rw [List.length_singleton]; omega), hj, Nat.sub_self]
    rfl
  · rw [if_neg hj, if_neg (by rw [List.length_singleton]; omega)]

/-- The colour of a bit of the source. -/
def colourBit (foreground background : UInt8) (depth t : Nat) (isSet : Bool) : Bool :=
  (if isSet then foreground else background).toNat.testBit (depth - 1 - t)

/-- A pixel changes its own bits, by one bit of the source. -/
theorem expandPixel_spec (v : Vram) {sourceRow destinationRow sourceBit destinationBit depth : UInt32}
    (foreground background : UInt8) (hd : IsDepth depth)
    (hmod : destinationBit.toNat % depth.toNat = 0)
    (hs : sourceRow.toNat + sourceBit.toNat / 8 < v.bytes.length)
    (hb : destinationRow.toNat + destinationBit.toNat / 8 < v.bytes.length) :
    ∃ v', v.expandPixel sourceRow destinationRow sourceBit destinationBit depth foreground background
        = some v' ∧
      v'.bytes.length = v.bytes.length ∧
      ∀ j, bitAt v'.bytes j =
        if 8 * destinationRow.toNat + destinationBit.toNat ≤ j ∧
            j < 8 * destinationRow.toNat + destinationBit.toNat + depth.toNat then
          (bitAt v.bytes (8 * sourceRow.toNat + sourceBit.toNat)).map
            (colourBit foreground background depth.toNat
              (j - (8 * destinationRow.toNat + destinationBit.toNat)))
        else bitAt v.bytes j := by
  have hlimit := v.bounded
  unfold vramLimit at hlimit
  have hse : (sourceRow + sourceBit / 8).toNat = sourceRow.toNat + sourceBit.toNat / 8 := by
    rw [UInt32.toNat_add, UInt32.toNat_div, show (8 : UInt32).toNat = 8 from rfl]
    omega
  have hde : (destinationRow + destinationBit / 8).toNat
      = destinationRow.toNat + destinationBit.toNat / 8 := by
    rw [UInt32.toNat_add, UInt32.toNat_div, show (8 : UInt32).toNat = 8 from rfl]
    omega
  have hq : ∀ b : UInt32, (b &&& 7).toNat = b.toNat % 8 := by
    intro b
    rw [UInt32.toNat_and]
    exact Nat.and_two_pow_sub_one_eq_mod b.toNat 3
  have hdepth : depth.toNat = 1 ∨ depth.toNat = 2 ∨ depth.toNat = 4 ∨ depth.toNat = 8 := by
    rcases hd with rfl | rfl | rfl | rfl <;> decide
  have hfit : destinationBit.toNat % 8 + depth.toNat ≤ 8 := by
    rcases hdepth with h | h | h | h <;> rw [h] at hmod ⊢ <;> omega
  have hshift : (8 - depth - (destinationBit &&& 7)).toNat
      = 8 - depth.toNat - destinationBit.toNat % 8 := by
    have h8 : (8 - depth).toNat = 8 - depth.toNat := by
      rcases hd with rfl | rfl | rfl | rfl <;> rfl
    rw [UInt32.toNat_sub_of_le _ _ (by rw [UInt32.le_iff_toNat_le, h8, hq]; omega), h8, hq]
  have hsource := List.getElem?_eq_getElem hs
  generalize v.bytes[sourceRow.toNat + sourceBit.toNat / 8] = source at hsource
  have hbyte := List.getElem?_eq_getElem hb
  generalize v.bytes[destinationRow.toNat + destinationBit.toNat / 8] = byte at hbyte
  have hset : (source &&& ((0x80 : UInt32) >>> (sourceBit &&& 7)).toUInt8 != 0)
      = source.toNat.testBit (7 - sourceBit.toNat % 8) := by
    rw [sourceBit_eq source (by rw [hq]; omega), hq]
  have hbit : bitAt v.bytes (8 * sourceRow.toNat + sourceBit.toNat)
      = some (source.toNat.testBit (7 - sourceBit.toNat % 8)) := by
    unfold bitAt
    rw [show (8 * sourceRow.toNat + sourceBit.toNat) / 8 = sourceRow.toNat + sourceBit.toNat / 8 by
      omega, hsource, show (8 * sourceRow.toNat + sourceBit.toNat) % 8 = sourceBit.toNat % 8 by omega]
    rfl
  unfold Vram.expandPixel
  rw [hse, hde, hsource]
  dsimp only
  rw [hbyte, hset]
  dsimp only
  generalize source.toNat.testBit (7 - sourceBit.toNat % 8) = isSet at hbit ⊢
  refine ⟨_, dif_pos hb, length_overwrite hb, fun j => ?_⟩
  dsimp only
  rw [bitAt_overwrite hb]
  by_cases hj : j / 8 = destinationRow.toNat + destinationBit.toNat / 8
  · rw [if_pos hj, testBit_pixel hd (by rw [hshift]; omega) _ _ (by omega), hshift]
    by_cases hin : 8 * destinationRow.toNat + destinationBit.toNat ≤ j ∧
        j < 8 * destinationRow.toNat + destinationBit.toNat + depth.toNat
    · rw [if_pos hin, if_pos (by omega), hbit, Option.map_some, colourBit]
      congr 2
      omega
    · rw [if_neg hin, if_neg (by omega), bitAt, hj, hbyte]
      rfl
  · rw [if_neg hj, if_neg (by omega)]

/-- The pixels in `done` have their bits, and no other bit has changed. -/
structure Painted (old new : List UInt8) (start : Nat → Nat → Nat) (depth : Nat)
    (pixel : Nat → Nat → Nat → Option Bool) (done : Nat → Nat → Prop) : Prop where
  length : new.length = old.length
  inside : ∀ y x, done y x → ∀ t < depth, bitAt new (start y x + t) = pixel y x t
  outside : ∀ j, (∀ y x, done y x → ∀ t < depth, j ≠ start y x + t) → bitAt new j = bitAt old j

theorem Painted.congr {new : List UInt8} {start : Nat → Nat → Nat} {depth : Nat}
    {pixel : Nat → Nat → Nat → Option Bool} {done done' : Nat → Nat → Prop}
    (h : Painted old new start depth pixel done) (hd : ∀ y x, done' y x ↔ done y x) :
    Painted old new start depth pixel done' := by
  have heq : done' = done := funext fun y => funext fun x => propext (hd y x)
  rwa [heq]

/-- One more pixel gets its bits. -/
theorem Painted.paint {bytes new : List UInt8} {start : Nat → Nat → Nat} {depth : Nat}
    {pixel : Nat → Nat → Nat → Option Bool} {done : Nat → Nat → Prop}
    (h : Painted old bytes start depth pixel done) (y x : Nat) (hlen : new.length = bytes.length)
    (hbits : ∀ j, bitAt new j =
      if start y x ≤ j ∧ j < start y x + depth then pixel y x (j - start y x) else bitAt bytes j)
    (hapart : ∀ y' x', done y' x' → ∀ t < depth,
      ¬ (start y x ≤ start y' x' + t ∧ start y' x' + t < start y x + depth)) :
    Painted old new start depth pixel fun y' x' => (y' = y ∧ x' = x) ∨ done y' x' where
  length := hlen.trans h.length
  inside y' x' hd t ht := by
    rw [hbits]
    rcases hd with ⟨rfl, rfl⟩ | hd
    · rw [if_pos (by omega), Nat.add_sub_cancel_left]
    · rw [if_neg (hapart y' x' hd t ht)]
      exact h.inside y' x' hd t ht
  outside j hj := by
    have hout : ¬ (start y x ≤ j ∧ j < start y x + depth) := by
      rintro ⟨h1, h2⟩
      exact hj y x (Or.inl ⟨rfl, rfl⟩) (j - start y x) (by omega) (by omega)
    rw [hbits, if_neg hout]
    exact h.outside j fun y' x' hd t ht => hj y' x' (Or.inr hd) t ht

/-! ## The expansion -/

namespace Transfer

def sourceRowBytes (t : Transfer) : Nat := (t.sourceBitOffset.toNat + t.widthPixels.toNat + 7) / 8

def destinationRowBytes (t : Transfer) : Nat :=
  (t.widthPixels.toNat * t.destinationDepth.toNat + 7) / 8

/-- An expansion that the card accepts. -/
structure Expandable (t : Transfer) (size : Nat) : Prop where
  depth : IsDepth t.destinationDepth
  bitOffset : t.sourceBitOffset.toNat ≤ 7
  stride : t.destinationRowBytes ≤ t.destinationStride.toNat
  sourceEnd : rangeEnd t.sourceOffset t.height t.sourceStride t.sourceRowBytes ≤ size
  destinationEnd :
    rangeEnd t.destinationOffset t.height t.destinationStride t.destinationRowBytes ≤ size

/-- The bytes of the source are not those of the destination. -/
def Apart (t : Transfer) : Prop :=
  rangeEnd t.sourceOffset t.height t.sourceStride t.sourceRowBytes ≤ t.destinationOffset.toNat ∨
    rangeEnd t.destinationOffset t.height t.destinationStride t.destinationRowBytes
      ≤ t.sourceOffset.toNat

/-- The first bit of a pixel of the destination, and the bit of the source that it shows. -/
def pixelStart (t : Transfer) (y x : Nat) : Nat :=
  8 * (t.destinationOffset.toNat + y * t.destinationStride.toNat) + x * t.destinationDepth.toNat

def pixelSource (t : Transfer) (y x : Nat) : Nat :=
  8 * (t.sourceOffset.toNat + y * t.sourceStride.toNat) + (t.sourceBitOffset.toNat + x)

/-- What the bits of a pixel become. -/
def pixelBit (t : Transfer) (old : List UInt8) (y x b : Nat) : Option Bool :=
  (bitAt old (t.pixelSource y x)).map
    (colourBit t.foregroundValue.toUInt8 t.backgroundValue.toUInt8 t.destinationDepth.toNat b)

/-- Pixels of a destination are apart. -/
theorem pixel_apart {t : Transfer} (hw : t.destinationRowBytes ≤ t.destinationStride.toNat)
    {y x y' x' b : Nat} (hx : x < t.widthPixels.toNat) (hx' : x' < t.widthPixels.toNat)
    (hne : y' ≠ y ∨ x' ≠ x) (hb : b < t.destinationDepth.toNat) :
    ¬ (t.pixelStart y x ≤ t.pixelStart y' x' + b ∧
      t.pixelStart y' x' + b < t.pixelStart y x + t.destinationDepth.toNat) := by
  unfold destinationRowBytes at hw
  unfold pixelStart
  generalize t.destinationDepth.toNat = depth at *
  generalize t.destinationStride.toNat = stride at *
  have hm := Nat.mul_le_mul_right depth (Nat.succ_le_of_lt hx)
  have hm' := Nat.mul_le_mul_right depth (Nat.succ_le_of_lt hx')
  rw [Nat.succ_mul] at hm hm'
  by_cases hy : y' = y
  · subst hy
    have h := row_apart (le_refl depth) (hne.resolve_left fun h => h rfl) hb
    omega
  · have h := @row_apart stride stride y y' ((x' * depth + b) / 8) le_rfl hy (by omega)
    omega

/-- The bits that an expansion reads and writes, as places in the memory. -/
theorem Expandable.places {t : Transfer} {size : Nat} (h : t.Expandable size)
    (hsize : size ≤ vramLimit) {y x : Nat} (hy : y < t.height.toNat) (hx : x < t.widthPixels.toNat) :
    (t.sourceOffset + UInt32.ofNat y * t.sourceStride).toNat
        = t.sourceOffset.toNat + y * t.sourceStride.toNat ∧
      (t.destinationOffset + UInt32.ofNat y * t.destinationStride).toNat
        = t.destinationOffset.toNat + y * t.destinationStride.toNat ∧
      (t.sourceBitOffset + UInt32.ofNat x).toNat = t.sourceBitOffset.toNat + x ∧
      (UInt32.ofNat x * t.destinationDepth).toNat = x * t.destinationDepth.toNat ∧
      t.pixelSource y x / 8
        < rangeEnd t.sourceOffset t.height t.sourceStride t.sourceRowBytes ∧
      (t.pixelStart y x + t.destinationDepth.toNat - 1) / 8
        < rangeEnd t.destinationOffset t.height t.destinationStride t.destinationRowBytes := by
  have hs := h.sourceEnd
  have hd := h.destinationEnd
  have hb := h.bitOffset
  have hyt := toNat_ofNat_lt hy
  have hxt := toNat_ofNat_lt hx
  have hpos : 0 < t.destinationDepth.toNat := by
    rcases h.depth with h | h | h | h <;> rw [h] <;> decide
  obtain ⟨es, fs⟩ := rowOffset_eq (hs.trans hsize) (le_refl _) (hyt.symm ▸ hy)
  obtain ⟨ed, fd⟩ := rowOffset_eq (hd.trans hsize) (le_refl _) (hyt.symm ▸ hy)
  have hm := Nat.mul_le_mul_right t.destinationDepth.toNat (Nat.succ_le_of_lt hx)
  have hm' := Nat.mul_le_mul_left (x + 1) hpos
  rw [Nat.succ_mul] at hm
  rw [hyt] at es ed fs fd
  unfold Vram.rowOffset at es ed
  unfold vramLimit at hsize
  unfold pixelSource pixelStart
  unfold sourceRowBytes at hs fs ⊢
  unfold destinationRowBytes at hd fd ⊢
  refine ⟨?_, ?_, ?_, ?_, ?_, ?_⟩
  · rw [UInt32.toNat_add, Nat.mod_eq_of_lt (by omega)]
    omega
  · rw [UInt32.toNat_add, Nat.mod_eq_of_lt (by omega)]
    omega
  · rw [UInt32.toNat_add, hxt]
    omega
  · rw [UInt32.toNat_mul, hxt]
    omega
  · omega
  · omega

/-- A bit to be read is none of those that are written. -/
theorem Expandable.source_ne {t : Transfer} {size : Nat} (h : t.Expandable size)
    (hsize : size ≤ vramLimit) (ha : t.Apart) {y x y' x' b : Nat} (hy : y < t.height.toNat)
    (hx : x < t.widthPixels.toNat) (hy' : y' < t.height.toNat) (hx' : x' < t.widthPixels.toNat)
    (hb : b < t.destinationDepth.toNat) : t.pixelSource y x ≠ t.pixelStart y' x' + b := by
  obtain ⟨-, -, -, -, hs, -⟩ := h.places hsize hy hx
  obtain ⟨-, -, -, -, -, hd⟩ := h.places hsize hy' hx'
  have hlow : 8 * t.sourceOffset.toNat ≤ t.pixelSource y x := by
    unfold pixelSource
    omega
  have hlow' : 8 * t.destinationOffset.toNat ≤ t.pixelStart y' x' := by
    unfold pixelStart
    omega
  rcases ha with ha | ha
  · omega
  · omega

/-- An accepted expansion paints its pixels, when its source and destination are apart; it stays
    in the memory in any case. -/
theorem expand_spec (v : Vram) (t : Transfer) (h : t.Expandable v.bytes.length) :
    ∃ v', v.acceleratedMonochromeExpand t.sourceOffset t.destinationOffset t.sourceStride
        t.destinationStride t.sourceBitOffset t.widthPixels t.height t.destinationDepth
        t.foregroundValue.toUInt8 t.backgroundValue.toUInt8 = some v' ∧
      v'.bytes.length = v.bytes.length ∧
      (t.Apart → Painted v.bytes v'.bytes t.pixelStart t.destinationDepth.toNat (t.pixelBit v.bytes)
        fun y x => y < t.height.toNat ∧ x < t.widthPixels.toNat) := by
  have houter := Machine.foldlM_range_inv (s := v) (n := t.height.toNat)
    (P := fun k (v' : Vram) => v'.bytes.length = v.bytes.length ∧
      (t.Apart → Painted v.bytes v'.bytes t.pixelStart t.destinationDepth.toNat (t.pixelBit v.bytes)
        fun y x => y < k ∧ x < t.widthPixels.toNat))
    (f := fun (v : Vram) y =>
      (List.range t.widthPixels.toNat).foldlM (fun (v : Vram) x =>
        v.expandPixel (t.sourceOffset + UInt32.ofNat y * t.sourceStride)
          (t.destinationOffset + UInt32.ofNat y * t.destinationStride)
          (t.sourceBitOffset + UInt32.ofNat x) (UInt32.ofNat x * t.destinationDepth)
          t.destinationDepth t.foregroundValue.toUInt8 t.backgroundValue.toUInt8) v)
    ⟨rfl, fun _ => ⟨rfl, fun _ _ hd => absurd hd.1 (Nat.not_lt_zero _), fun _ _ => rfl⟩⟩ ?_
  · exact houter
  intro y hy v₁ hv₁
  -- the pixels before `x` of the row `y` are painted as well
  obtain ⟨v₂, hrun, hv₂⟩ := Machine.foldlM_range_inv (s := v₁) (n := t.widthPixels.toNat)
    (P := fun k (v' : Vram) => v'.bytes.length = v.bytes.length ∧
      (t.Apart → Painted v.bytes v'.bytes t.pixelStart t.destinationDepth.toNat (t.pixelBit v.bytes)
        fun y' x' => (y' = y ∧ x' < k) ∨ (y' < y ∧ x' < t.widthPixels.toNat)))
    (f := fun (v : Vram) x =>
      v.expandPixel (t.sourceOffset + UInt32.ofNat y * t.sourceStride)
        (t.destinationOffset + UInt32.ofNat y * t.destinationStride)
        (t.sourceBitOffset + UInt32.ofNat x) (UInt32.ofNat x * t.destinationDepth)
        t.destinationDepth t.foregroundValue.toUInt8 t.backgroundValue.toUInt8)
    ⟨hv₁.1, fun ha => (hv₁.2 ha).congr fun y' x' => by omega⟩ (by
      intro x hx w hw
      obtain ⟨e1, e2, e3, e4, hs, hd⟩ := h.places v.bounded hy hx
      have hpos : 0 < t.destinationDepth.toNat := by
        rcases h.depth with h | h | h | h <;> rw [h] <;> decide
      have hsend := h.sourceEnd
      have hdend := h.destinationEnd
      have hmod : (UInt32.ofNat x * t.destinationDepth).toNat % t.destinationDepth.toNat = 0 := by
        rw [e4]
        exact Nat.mul_mod_left _ _
      have hsin : (t.sourceOffset + UInt32.ofNat y * t.sourceStride).toNat
          + (t.sourceBitOffset + UInt32.ofNat x).toNat / 8 < w.bytes.length := by
        rw [e1, e3, hw.1]
        unfold pixelSource at hs
        omega
      have hdin : (t.destinationOffset + UInt32.ofNat y * t.destinationStride).toNat
          + (UInt32.ofNat x * t.destinationDepth).toNat / 8 < w.bytes.length := by
        rw [e2, e4, hw.1]
        unfold pixelStart at hd
        omega
      obtain ⟨w', hw', hlen, hbits⟩ := expandPixel_spec w t.foregroundValue.toUInt8
        t.backgroundValue.toUInt8 h.depth hmod hsin hdin
      refine ⟨w', hw', hlen.trans hw.1, fun ha => ?_⟩
      have hp := hw.2 ha
      have hsource : bitAt w.bytes (t.pixelSource y x) = bitAt v.bytes (t.pixelSource y x) := by
        refine hp.outside _ fun y' x' hdone b hb => ?_
        have hin' : y' < t.height.toNat ∧ x' < t.widthPixels.toNat := by omega
        exact h.source_ne v.bounded ha hy hx hin'.1 hin'.2 hb
      refine (hp.paint y x hlen (fun j => ?_) fun y' x' hdone b hb => ?_).congr fun y' x' => by omega
      · rw [hbits j, e1, e2, e3, e4, pixelBit, ← hsource]
        rfl
      · exact pixel_apart h.stride hx (by omega) (by omega) hb)
  exact ⟨v₂, hrun, hv₂.1, fun ha => (hv₂.2 ha).congr fun y' x' => by omega⟩

end Transfer

/-! ## Commands -/

namespace AcceleratedVideoCard

/-- What a command did, by the registers before it. -/
structure Outcome (s s' : AcceleratedVideoCard) (command : UInt32) : Prop where
  rejected : s'.statistics.lastError ≠ .none → s'.vram = s.vram
  known : s'.statistics.lastError = .none →
    command = commandVramCopy ∨ command = commandSolidFill ∨ command = commandMonochromeExpand
  copied : s'.statistics.lastError = .none → command = commandVramCopy →
    s.transfer.sourceStride = s.transfer.destinationStride →
    ((s.transfer.flags &&& copyBackward != 0) = true ↔
      s.transfer.sourceOffset.toNat < s.transfer.destinationOffset.toNat) →
    Written s.vram.bytes s'.vram.bytes s.transfer.destinationOffset.toNat
      s.transfer.destinationStride.toNat s.transfer.widthBytes.toNat
      (fun r i =>
        s.vram.bytes[s.transfer.sourceOffset.toNat + r * s.transfer.sourceStride.toNat + i]?)
      (fun r => r < s.transfer.height.toNat)
  filled : s'.statistics.lastError = .none → command = commandSolidFill →
    Written s.vram.bytes s'.vram.bytes s.transfer.destinationOffset.toNat
      s.transfer.destinationStride.toNat s.transfer.widthBytes.toNat
      (fun _ _ => some s.transfer.fillValue.toUInt8) (fun r => r < s.transfer.height.toNat)
  expanded : s'.statistics.lastError = .none → command = commandMonochromeExpand →
    s.transfer.Apart →
    Painted s.vram.bytes s'.vram.bytes s.transfer.pixelStart s.transfer.destinationDepth.toNat
      (s.transfer.pixelBit s.vram.bytes)
      (fun y x => y < s.transfer.height.toNat ∧ x < s.transfer.widthPixels.toNat)
  notBusy : s'.status &&& statusBusy = 0

/-- A command ends in one of two ways. -/
inductive Ends (s : AcceleratedVideoCard) (Effect : Vram → Prop) :
    Option AcceleratedVideoCard → Prop
  | rejected {error : AcceleratorError} (h : error ≠ .none) : Ends s Effect (some (s.reject error))
  | completed {vram : Vram} (bytes : Nat) (h : Effect vram) :
    Ends s Effect (some (s.complete vram bytes))

theorem executeVramCopy_ends (s : AcceleratedVideoCard) :
    Ends s (fun vram =>
      s.transfer.sourceStride = s.transfer.destinationStride →
      ((s.transfer.flags &&& copyBackward != 0) = true ↔
        s.transfer.sourceOffset.toNat < s.transfer.destinationOffset.toNat) →
      Written s.vram.bytes vram.bytes s.transfer.destinationOffset.toNat
        s.transfer.destinationStride.toNat s.transfer.widthBytes.toNat
        (fun r i =>
          s.vram.bytes[s.transfer.sourceOffset.toNat + r * s.transfer.sourceStride.toNat + i]?)
        (fun r => r < s.transfer.height.toNat)) s.executeVramCopy := by
  unfold executeVramCopy
  dsimp only
  split_ifs with hdim hstride hflags hrange
  · exact .rejected (by decide)
  · exact .rejected (by decide)
  · exact .rejected (by decide)
  · exact .rejected (by decide)
  · rw [not_or, Nat.not_lt, Nat.not_lt] at hrange
    rw [not_or, UInt32.not_lt, UInt32.not_lt, UInt32.le_iff_toNat_le, UInt32.le_iff_toNat_le]
      at hstride
    obtain ⟨vram, hrun, -⟩ := acceleratedVramCopy_some (s.transfer.flags &&& copyBackward != 0)
      s.vram hrange.1 hrange.2
    rw [hrun]
    refine .completed _ fun heq hdir => ?_
    rw [heq] at hrun hrange ⊢
    obtain ⟨vram', hrun', hw⟩ := acceleratedVramCopy_spec s.vram hstride.2 hrange.1 hrange.2 hdir
    rw [hrun] at hrun'
    cases hrun'
    exact hw

theorem executeSolidFill_ends (s : AcceleratedVideoCard) :
    Ends s (fun vram =>
      Written s.vram.bytes vram.bytes s.transfer.destinationOffset.toNat
        s.transfer.destinationStride.toNat s.transfer.widthBytes.toNat
        (fun _ _ => some s.transfer.fillValue.toUInt8) (fun r => r < s.transfer.height.toNat))
      s.executeSolidFill := by
  unfold executeSolidFill
  dsimp only
  split_ifs with hdim hstride hflags hrange
  · exact .rejected (by decide)
  · exact .rejected (by decide)
  · exact .rejected (by decide)
  · exact .rejected (by decide)
  · rw [UInt32.not_lt, UInt32.le_iff_toNat_le] at hstride
    obtain ⟨vram, hrun, hw⟩ := acceleratedVramFill_spec s.vram s.transfer.fillValue.toUInt8 hstride
      (Nat.not_lt.1 hrange)
    rw [hrun]
    exact .completed _ hw

/-- The sum that is made in 32 bits does not wrap where the destination fits into the memory. -/
theorem executeMonochromeExpand_ends (s : AcceleratedVideoCard) :
    Ends s (fun vram => s.transfer.Apart →
      Painted s.vram.bytes vram.bytes s.transfer.pixelStart s.transfer.destinationDepth.toNat
        (s.transfer.pixelBit s.vram.bytes)
        (fun y x => y < s.transfer.height.toNat ∧ x < s.transfer.widthPixels.toNat))
      s.executeMonochromeExpand := by
  unfold executeMonochromeExpand
  dsimp only
  split_ifs with hdim hflags hstride hrange
  · exact .rejected (by decide)
  · exact .rejected (by decide)
  · exact .rejected (by decide)
  · exact .rejected (by decide)
  · have hdepth : IsDepth s.transfer.destinationDepth := by
      unfold IsDepth
      tauto
    have hoffset : s.transfer.sourceBitOffset.toNat ≤ 7 := by
      have h := not_or.1 hflags
      rw [UInt32.not_lt, UInt32.le_iff_toNat_le] at h
      exact h.1
    rw [not_or, Nat.not_lt, Nat.not_lt] at hrange hstride
    have hbound := s.vram.bounded
    have hpos : 0 < s.transfer.destinationDepth.toNat := by
      rcases hdepth with h | h | h | h <;> rw [h] <;> decide
    have hm := Nat.mul_le_mul_left s.transfer.widthPixels.toNat (Nat.succ_le_of_lt hpos)
    have hend := hrange.2
    unfold Transfer.rangeEnd at hend
    unfold vramLimit at hbound
    have hrow : ((s.transfer.sourceBitOffset + s.transfer.widthPixels + 7) / 8).toNat
        = s.transfer.sourceRowBytes := by
      rw [UInt32.toNat_div, UInt32.toNat_add, UInt32.toNat_add, show (7 : UInt32).toNat = 7 from rfl,
        show (8 : UInt32).toNat = 8 from rfl, Transfer.sourceRowBytes]
      omega
    rw [hrow] at hrange hstride
    obtain ⟨vram, hrun, -, hp⟩ := Transfer.expand_spec s.vram s.transfer
      ⟨hdepth, hoffset, hstride.2, hrange.1, hrange.2⟩
    rw [hrun]
    exact .completed _ hp

/-! ## The state of the card -/

theorem reject_notBusy (s : AcceleratedVideoCard) (error : AcceleratorError) :
    (s.reject error).status &&& statusBusy = 0 := by
  show ((s.status &&& ~~~statusBusy) ||| statusError) &&& statusBusy = 0
  rw [Pages.or_and_of_disjoint (by decide)]
  exact Pages.frame_and_mask _ _

theorem complete_notBusy (s : AcceleratedVideoCard) (vram : Vram) (bytes : Nat) :
    (s.complete vram bytes).status &&& statusBusy = 0 := Pages.frame_and_mask _ _

theorem complete_lastError (s : AcceleratedVideoCard) (vram : Vram) (bytes : Nat) :
    (s.complete vram bytes).statistics.lastError = s.statistics.lastError := by
  rfl

theorem toNat_incrementSaturating {value : UInt32} (h : value ≠ 0xffffffff) :
    (incrementSaturating value).toNat = value.toNat + 1 := by
  have hlt := value.toNat_lt
  have hne : value.toNat ≠ 0xffffffff := fun heq => h (UInt32.toNat_inj.1 heq)
  have hone : (1 : UInt32).toNat = 1 := rfl
  unfold incrementSaturating
  rw [if_neg (by rw [hone]; omega), UInt32.toNat_add, hone]
  omega

theorem incrementSaturating_max : incrementSaturating 0xffffffff = 0xffffffff := by decide

/-- Every command that was submitted is completed or rejected, as long as they can be counted. -/
def Balanced (s : AcceleratedVideoCard) : Prop :=
  s.statistics.commandsSubmitted ≠ 0xffffffff →
    s.statistics.commandsSubmitted.toNat
      = s.statistics.commandsCompleted.toNat + s.statistics.commandsRejected.toNat

/-- One of the two counters follows the submissions. -/
theorem balanced_next {submitted completed rejected : UInt32}
    (h : submitted ≠ 0xffffffff → submitted.toNat = completed.toNat + rejected.toNat)
    (hne : incrementSaturating submitted ≠ 0xffffffff) :
    (incrementSaturating submitted).toNat
        = (incrementSaturating completed).toNat + rejected.toNat ∧
      (incrementSaturating submitted).toNat
        = completed.toNat + (incrementSaturating rejected).toNat := by
  have hs : submitted ≠ 0xffffffff := by
    rintro rfl
    exact hne incrementSaturating_max
  have hsum := h hs
  have hlt := submitted.toNat_lt
  have hsn : submitted.toNat ≠ 0xffffffff := fun heq => hs (UInt32.toNat_inj.1 heq)
  have hc : completed ≠ 0xffffffff := by
    rintro rfl
    have hmax : (0xffffffff : UInt32).toNat = 0xffffffff := rfl
    omega
  have hr : rejected ≠ 0xffffffff := by
    rintro rfl
    have hmax : (0xffffffff : UInt32).toNat = 0xffffffff := rfl
    omega
  rw [toNat_incrementSaturating hs, toNat_incrementSaturating hc, toNat_incrementSaturating hr]
  omega

/-- The card while a command starts. -/
def submitted (s : AcceleratedVideoCard) (command : UInt32) : AcceleratedVideoCard :=
  { s with
    status := s.status &&& ~~~statusError
    statistics :=
      { s.statistics with
        commandsSubmitted := incrementSaturating s.statistics.commandsSubmitted
        lastCommand := command
        lastError := .none } }

theorem Ends.some {s : AcceleratedVideoCard} {Effect : Vram → Prop}
    {r : Option AcceleratedVideoCard} (h : Ends s Effect r) (hs : s.statistics.lastError = .none) :
    ∃ s', r = Option.some s' ∧ (s'.statistics.lastError ≠ .none → s'.vram = s.vram) ∧
      (s'.statistics.lastError = .none → Effect s'.vram) ∧ s'.status &&& statusBusy = 0 := by
  cases h with
  | rejected he =>
    exact ⟨_, rfl, fun _ => rfl, fun h0 => absurd h0 he, reject_notBusy _ _⟩
  | completed bytes heffect =>
    refine ⟨_, rfl, fun h0 => ?_, fun _ => heffect, complete_notBusy _ _ _⟩
    rw [complete_lastError] at h0
    exact absurd hs h0

theorem Ends.balanced {s : AcceleratedVideoCard} {command : UInt32} {Effect : Vram → Prop}
    {s' : AcceleratedVideoCard} (h : Ends (s.submitted command) Effect (Option.some s'))
    (hs : s.Balanced) : s'.Balanced := by
  cases h with
  | rejected =>
    intro hne
    dsimp only [reject, submitted] at hne ⊢
    exact (balanced_next hs hne).2
  | completed =>
    intro hne
    dsimp only [complete, submitted] at hne ⊢
    exact (balanced_next hs hne).1

/-- A command never fails, whatever is in the registers. -/
theorem executeCommand_outcome (s : AcceleratedVideoCard) (command : UInt32) (hs : s.Balanced) :
    ∃ s', s.executeCommand command = some s' ∧ Outcome s s' command ∧ s'.Balanced := by
  show ∃ s', (if !s.acceleration then some ((s.submitted command).reject .disabled)
    else if command = commandVramCopy then (s.submitted command).executeVramCopy
    else if command = commandSolidFill then (s.submitted command).executeSolidFill
    else if command = commandMonochromeExpand then (s.submitted command).executeMonochromeExpand
    else some ((s.submitted command).reject .unknownCommand)) = some s' ∧ _
  have hrejected : ∀ error, error ≠ .none →
      Outcome s ((s.submitted command).reject error) command ∧
        ((s.submitted command).reject error).Balanced := by
    intro error he
    refine ⟨⟨fun _ => rfl, fun h0 => absurd h0 he, fun h0 => absurd h0 he, fun h0 => absurd h0 he,
      fun h0 => absurd h0 he, reject_notBusy _ _⟩, ?_⟩
    have hends : Ends (s.submitted command) (fun _ => False)
        (some ((s.submitted command).reject error)) := .rejected he
    exact hends.balanced hs
  split_ifs with hoff hcopy hfill hexpand
  · exact ⟨_, rfl, hrejected _ (by decide)⟩
  · have hends := executeVramCopy_ends (s.submitted command)
    obtain ⟨s', hrun, hrej, heffect, hbusy⟩ := hends.some rfl
    rw [hrun] at hends
    refine ⟨s', hrun, ⟨hrej, fun _ => Or.inl hcopy, fun h0 _ => heffect h0, fun _ h0 => ?_,
      fun _ h0 => ?_, hbusy⟩, hends.balanced hs⟩
    · exact absurd (hcopy.symm.trans h0) (by decide)
    · exact absurd (hcopy.symm.trans h0) (by decide)
  · have hends := executeSolidFill_ends (s.submitted command)
    obtain ⟨s', hrun, hrej, heffect, hbusy⟩ := hends.some rfl
    rw [hrun] at hends
    refine ⟨s', hrun, ⟨hrej, fun _ => Or.inr (Or.inl hfill), fun _ h0 => absurd h0 hcopy,
      fun h0 _ => heffect h0, fun _ h0 => ?_, hbusy⟩, hends.balanced hs⟩
    exact absurd (hfill.symm.trans h0) (by decide)
  · have hends := executeMonochromeExpand_ends (s.submitted command)
    obtain ⟨s', hrun, hrej, heffect, hbusy⟩ := hends.some rfl
    rw [hrun] at hends
    exact ⟨s', hrun, ⟨hrej, fun _ => Or.inr (Or.inr hexpand), fun _ h0 => absurd h0 hcopy,
      fun _ h0 => absurd h0 hfill, fun h0 _ => heffect h0, hbusy⟩, hends.balanced hs⟩
  · exact ⟨_, rfl, hrejected _ (by decide)⟩

/-! ## Runs -/

theorem balanced_reset (s : AcceleratedVideoCard) : s.resetStatistics.Balanced := fun _ => rfl

theorem writeControl_balanced {s : AcceleratedVideoCard} (hs : s.Balanced) (value : UInt32) :
    (s.writeControl value).Balanced := by
  unfold writeControl
  split_ifs
  · exact balanced_reset s
  · exact hs
  · exact hs
  · unfold Balanced at hs ⊢
    exact hs
  · exact hs

theorem writeAcceleratorRegister_some {s : AcceleratedVideoCard} (hs : s.Balanced)
    (offset value : UInt32) :
    ∃ s', s.writeAcceleratorRegister offset value = some s' ∧ s'.Balanced := by
  unfold writeAcceleratorRegister
  split_ifs
  · obtain ⟨s', hrun, -, hb⟩ := executeCommand_outcome s value hs
    exact ⟨s', hrun, hb⟩
  · exact ⟨_, rfl, writeControl_balanced hs value⟩
  · exact ⟨_, rfl, hs⟩

theorem step_some {s : AcceleratedVideoCard} (hs : s.Balanced) (input : Input) :
    ∃ s', s.step input = some s' ∧ s'.Balanced := by
  cases input with
  | window relative value =>
    show ∃ s', s.writeWindow relative value = some s' ∧ s'.Balanced
    unfold writeWindow
    dsimp only
    split_ifs
    · exact writeAcceleratorRegister_some hs _ _
    · exact ⟨s, rfl, hs⟩
    · exact writeAcceleratorRegister_some hs _ _
  | memory vram => exact ⟨_, rfl, hs⟩
  | reset => exact ⟨_, rfl, balanced_reset _⟩

theorem run_some (inputs : List Input) :
    ∀ {s : AcceleratedVideoCard}, s.Balanced →
      ∃ s', inputs.foldlM step s = some s' ∧ s'.Balanced := by
  induction inputs with
  | nil => exact fun {s} hs => ⟨s, rfl, hs⟩
  | cons input inputs ih =>
    intro s hs
    obtain ⟨s₁, h1, hb⟩ := step_some hs input
    obtain ⟨s₂, h2, hb'⟩ := ih hb
    refine ⟨s₂, ?_, hb'⟩
    rw [List.foldlM_cons, h1]
    exact h2

/-- After any writes, any command: nothing outside the memory is touched, what is touched is what
    the command names, and the commands are counted. -/
theorem run_commands (acceleration : Bool) (vram : Vram) (inputs : List Input) (command : UInt32) :
    ∃ s, inputs.foldlM step (powerOn acceleration vram) = some s ∧ s.Balanced ∧
      ∃ s', s.executeCommand command = some s' ∧ Outcome s s' command ∧ s'.Balanced := by
  obtain ⟨s, hrun, hb⟩ := run_some inputs (balanced_reset { acceleration, vram })
  exact ⟨s, hrun, hb, executeCommand_outcome s command hb⟩

end AcceleratedVideoCard

end CuteMac.Video
