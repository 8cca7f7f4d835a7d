/-
  Which bytes of a frame are looked at.

  * `StaysInside`: the renderer and the search for the Sad Mac read bytes of the frame;
  * `RowsInside`: the last row ends inside the pixels;
  * `staysInside_iff`: for frames whose pixels can be counted in 31 bits these are one;
  * `staysInside_iff_of_rows`: where the pixels end with the last row, they are one
    exactly where a row fits into the stride;
  * `frames_inside`: the frames of the two devices.
-/
import CuteMac.Lib.Fallible
import CuteMac.Lib.Machine
import CuteMac.Lib.SignedWord
import CuteMac.Video.CardMemory
import CuteMac.Video.DafbVideo

namespace CuteMac.Video

namespace VideoFrame

open SignedWord Fallible

/-- Everything that is read for the frame is in its pixels. -/
def StaysInside (frame : VideoFrame) : Prop := frame.render.isSome ∧ frame.detect.isSome

/-- The bytes of a row that its pixels use. -/
def rowBytes (frame : VideoFrame) : Int :=
  match frame.storage with
  | .indexed => (frame.width.toInt - 1) / (8 / frame.bitsPerPixel.toInt) + 1
  | .direct => frame.width.toInt * ((frame.bitsPerPixel.toInt + 7) / 8)

/-- The last row ends inside the pixels, and its place is a number of 31 bits. -/
structure RowsInside (frame : VideoFrame) : Prop where
  rows : (frame.height.toInt - 1) * frame.strideBytes.toInt < 2 ^ 31
  columns : frame.storage = .direct →
    (frame.width.toInt - 1) * ((frame.bitsPerPixel.toInt + 7) / 8) < 2 ^ 31
  last : (frame.height.toInt - 1) * frame.strideBytes.toInt + frame.rowBytes ≤ frame.pixels.length

/-- The bits of a row, and the pixels, can be counted in 31 bits. -/
structure Small (frame : VideoFrame) : Prop where
  bits : frame.width.toInt * frame.bitsPerPixel.toInt ≤ 2 ^ 31
  bytes : (frame.pixels.length : Int) ≤ 2 ^ 31

variable {frame : VideoFrame}

theorem byteAt_isSome (i : Int) :
    (frame.byteAt i).isSome ↔ 0 ≤ i ∧ i < frame.pixels.length := by
  unfold byteAt
  by_cases h : 0 ≤ i
  · rw [if_pos h]
    constructor
    · intro hsome
      obtain ⟨b, hb⟩ := Option.isSome_iff_exists.1 hsome
      obtain ⟨hlt, -⟩ := List.getElem?_eq_some_iff.1 hb
      omega
    · rintro ⟨-, hlt⟩
      rw [List.getElem?_eq_getElem (by omega)]
      rfl
  · rw [if_neg h]
    simp [h]

theorem row_eq {y : Nat} (hy : y < 2 ^ 31) : frame.row y = wrap (y * frame.strideBytes.toInt) := by
  unfold row wrap
  rw [Int32.toInt_mul, Int32.toInt_ofNat_of_lt hy]

/-! ## Pixels -/

/-- How many pixels of an index are in a byte. -/
theorem indexed_depth (hs : frame.storage = .indexed) (hd : frame.SupportedDepth) :
    ∃ pixelsPerByte : Nat, 0 < pixelsPerByte ∧ 8 / frame.bitsPerPixel.toInt = pixelsPerByte ∧
      frame.bitsPerPixel.toInt * pixelsPerByte = 8 ∧ ∀ (source : Int) (x : Int32), 0 ≤ x.toInt →
        ((frame.indexedValue source x).isSome ↔
          (frame.byteAt (source + x.toInt / pixelsPerByte)).isSome) := by
  unfold SupportedDepth at hd
  rw [hs] at hd
  have hdiv : ∀ (x d : Int32) (n : Nat), d.toInt = n → 0 < n → 0 ≤ x.toInt →
      (x / d).toInt = x.toInt / n := by
    intro x d n hd hn hx
    have hne : d ≠ -1 := by
      rintro rfl
      have hneg : (-1 : Int32).toInt = -1 := rfl
      omega
    rw [Int32.toInt_div_of_ne_right _ _ hne, hd, Int.tdiv_eq_ediv_of_nonneg hx]
  unfold indexedValue
  rcases hd with h | h | h | h <;> rw [h]
  · refine ⟨8, by decide, by decide, by decide, fun source x hx => ?_⟩
    rw [if_neg (by decide)]
    dsimp only
    rw [Option.isSome_map, hdiv x _ 8 (by decide) (by decide) hx]
  · refine ⟨4, by decide, by decide, by decide, fun source x hx => ?_⟩
    rw [if_neg (by decide)]
    dsimp only
    rw [Option.isSome_map, hdiv x _ 4 (by decide) (by decide) hx]
  · refine ⟨2, by decide, by decide, by decide, fun source x hx => ?_⟩
    rw [if_neg (by decide)]
    dsimp only
    rw [Option.isSome_map, hdiv x _ 2 (by decide) (by decide) hx]
  · refine ⟨1, by decide, by decide, by decide, fun source x hx => ?_⟩
    rw [if_pos rfl, Option.isSome_map, Nat.cast_one, Int.ediv_one]

theorem bits_pos {pixelsPerByte : Nat} (h : frame.bitsPerPixel.toInt * pixelsPerByte = 8) :
    0 < frame.bitsPerPixel.toInt := by
  by_contra hneg
  have hle : frame.bitsPerPixel.toInt * pixelsPerByte ≤ 0 :=
    Int.mul_nonpos_of_nonpos_of_nonneg (by omega) (by omega)
  omega

/-- How many bytes are in a direct pixel. -/
theorem direct_depth (hs : frame.storage = .direct) (hd : frame.SupportedDepth) :
    ∃ bytesPerPixel : Nat, 0 < bytesPerPixel ∧ bytesPerPixel ≤ 4 ∧
      (frame.bitsPerPixel.toInt + 7) / 8 = bytesPerPixel ∧ ∀ (source : Int) (x : Nat), x < 2 ^ 31 →
        ((frame.directValue source (Int32.ofNat x)).isSome ↔ ∀ byte < bytesPerPixel,
          (frame.byteAt (source + wrap (x * bytesPerPixel) + (byte : Nat))).isSome) := by
  unfold SupportedDepth at hd
  rw [hs] at hd
  have hvalue : ∀ (d : Int32) (n : Nat), d.toInt = n → (frame.bitsPerPixel + 7) / 8 = d →
      ∀ (source : Int) (x : Nat), x < 2 ^ 31 →
        ((frame.directValue source (Int32.ofNat x)).isSome ↔ ∀ byte < n,
          (frame.byteAt (source + wrap (x * n) + (byte : Nat))).isSome) := by
    intro d n hn hd source x hx
    unfold directValue
    rw [hd]
    dsimp only
    rw [Option.isSome_map, isSome_mapM, Int32.toInt_mul, Int32.toInt_ofNat_of_lt hx, hn,
      show d.toNatClampNeg = n from (congrArg Int.toNat hn).trans (Int.toNat_natCast n)]
    simp only [List.mem_range]
    rfl
  rcases hd with h | h | h | h
  · exact ⟨2, by decide, by decide, by rw [h]; decide, hvalue 2 2 rfl (by rw [h]; decide)⟩
  · exact ⟨2, by decide, by decide, by rw [h]; decide, hvalue 2 2 rfl (by rw [h]; decide)⟩
  · exact ⟨3, by decide, by decide, by rw [h]; decide, hvalue 3 3 rfl (by rw [h]; decide)⟩
  · exact ⟨4, by decide, by decide, by rw [h]; decide, hvalue 4 4 rfl (by rw [h]; decide)⟩

/-! ## The renderer -/

theorem render_isSome (hv : frame.Valid) : frame.render.isSome ↔
    ∀ y < frame.height.toNatClampNeg, ∀ x < frame.width.toNatClampNeg, (frame.renderPixel y x).isSome := by
  unfold render
  rw [if_pos hv, isSome_mapM]
  simp only [isSome_mapM, List.mem_range]

/-- Every byte of every pixel is inside where the first and the last are. -/
theorem render_isSome_iff (hv : frame.Valid) : frame.render.isSome ↔ frame.RowsInside := by
  obtain ⟨h, hh⟩ : ∃ h : Nat, frame.height.toInt = h + 1 :=
    ⟨(frame.height.toInt - 1).toNat, by have := hv.height_pos; omega⟩
  obtain ⟨w, hw⟩ : ∃ w : Nat, frame.width.toInt = w + 1 :=
    ⟨(frame.width.toInt - 1).toNat, by have := hv.width_pos; omega⟩
  have hnh : frame.height.toNatClampNeg = h + 1 := by
    show frame.height.toInt.toNat = h + 1
    omega
  have hnw : frame.width.toNatClampNeg = w + 1 := by
    show frame.width.toInt.toNat = w + 1
    omega
  have hhlt := frame.height.toInt_lt
  have hwlt := frame.width.toInt_lt
  have hs0 := hv.stride_pos
  have hrows := forall_wrap_nonneg hs0 frame.strideBytes.toInt_lt h
  have hmono : ∀ y : Nat, y ≤ h → (y : Int) * frame.strideBytes.toInt ≤ h * frame.strideBytes.toInt :=
    fun y hy => Int.mul_le_mul_of_nonneg_right (by omega) (by omega)
  have hnonneg : ∀ y : Nat, 0 ≤ (y : Int) * frame.strideBytes.toInt :=
    fun y => Int.mul_nonneg (by omega) (by omega)
  have hrow : ∀ y : Nat, y ≤ h → h * frame.strideBytes.toInt < 2 ^ 31 →
      frame.row y = y * frame.strideBytes.toInt := by
    intro y hy hlt
    rw [row_eq (by omega)]
    exact wrap_of_lt (hnonneg y) (lt_of_le_of_lt (hmono y hy) hlt)
  rw [render_isSome hv, hnh, hnw]
  unfold renderPixel
  have hlast : (frame.height.toInt - 1) * frame.strideBytes.toInt = h * frame.strideBytes.toInt := by
    rw [hh, Int.add_sub_cancel]
  cases hstorage : frame.storage with
  | indexed =>
    obtain ⟨pixelsPerByte, hppb, hdiv, -, hvalue⟩ := indexed_depth hstorage hv.depth
    have hbytes : frame.rowBytes = (w : Int) / pixelsPerByte + 1 := by
      unfold rowBytes
      rw [hstorage]
      dsimp only
      rw [hdiv, hw, Int.add_sub_cancel]
    have hpixel : ∀ (y x : Nat), x < w + 1 →
        (((frame.indexedValue (frame.row y) (Int32.ofNat x)).map frame.indexedColor).isSome ↔
          0 ≤ frame.row y + (x : Int) / pixelsPerByte ∧
            frame.row y + (x : Int) / pixelsPerByte < frame.pixels.length) := by
      intro y x hx
      have hxi : (Int32.ofNat x).toInt = x := Int32.toInt_ofNat_of_lt (by omega)
      rw [Option.isSome_map, hvalue _ _ (by omega), hxi, byteAt_isSome]
    dsimp only
    constructor
    · intro hall
      have hfirst : h * frame.strideBytes.toInt < 2 ^ 31 := by
        refine hrows.1 fun y hy => ?_
        have hpos := ((hpixel y 0 (by omega)).1 (hall y (by omega) 0 (by omega))).1
        rw [Nat.cast_zero, Int.zero_ediv, Int.add_zero, row_eq (by omega)] at hpos
        exact hpos
      have hend := ((hpixel h w (by omega)).1 (hall h (by omega) w (by omega))).2
      rw [hrow h (Nat.le_refl h) hfirst] at hend
      refine ⟨by rw [hlast]; exact hfirst, fun hdirect => ?_, by rw [hlast, hbytes]; omega⟩
      rw [hstorage] at hdirect
      cases hdirect
    · rintro ⟨hfirst, -, hend⟩ y hy x hx
      rw [hlast] at hfirst
      rw [hlast, hbytes] at hend
      have hle : (x : Int) / pixelsPerByte ≤ (w : Int) / pixelsPerByte :=
        Int.ediv_le_ediv (by omega) (by omega)
      have hpos : 0 ≤ (x : Int) / pixelsPerByte := Int.ediv_nonneg (by omega) (by omega)
      have hy' := hmono y (by omega)
      have hy0 := hnonneg y
      rw [hpixel y x hx, hrow y (by omega) hfirst]
      omega
  | direct =>
    obtain ⟨bytesPerPixel, hbpp, hbpp4, hdiv, hvalue⟩ := direct_depth hstorage hv.depth
    have hbytes : frame.rowBytes = ((w : Int) + 1) * bytesPerPixel := by
      unfold rowBytes
      rw [hstorage]
      dsimp only
      rw [hdiv, hw]
    have hcolumns := forall_wrap_nonneg (s := bytesPerPixel) (by omega) (by omega) w
    have hpixel : ∀ (y x : Nat), x < w + 1 →
        (((frame.directValue (frame.row y) (Int32.ofNat x)).map fun value =>
            qRgb (channel value frame.channels.redMask) (channel value frame.channels.greenMask)
              (channel value frame.channels.blueMask)).isSome ↔
          ∀ byte < bytesPerPixel, 0 ≤ frame.row y + wrap (x * bytesPerPixel) + (byte : Nat) ∧
            frame.row y + wrap (x * bytesPerPixel) + (byte : Nat) < frame.pixels.length) := by
      intro y x hx
      rw [Option.isSome_map, hvalue _ _ (by omega)]
      simp only [byteAt_isSome]
    dsimp only
    constructor
    · intro hall
      have hwrap0 : wrap ((0 : Nat) * bytesPerPixel) = 0 := by
        rw [Nat.cast_zero, Int.zero_mul]
        rfl
      have hfirst : h * frame.strideBytes.toInt < 2 ^ 31 := by
        refine hrows.1 fun y hy => ?_
        have hpos := ((hpixel y 0 (by omega)).1 (hall y (by omega) 0 (by omega)) 0 hbpp).1
        rw [hwrap0, Int.add_zero, Nat.cast_zero, Int.add_zero, row_eq (by omega)] at hpos
        exact hpos
      have hrow0 : frame.row 0 = 0 := by
        rw [hrow 0 (Nat.zero_le h) hfirst, Nat.cast_zero, Int.zero_mul]
      have hwide : (w : Int) * bytesPerPixel < 2 ^ 31 := by
        refine hcolumns.1 fun x hx => ?_
        have hpos := ((hpixel 0 x (by omega)).1 (hall 0 (by omega) x (by omega)) 0 hbpp).1
        rw [hrow0, Int.zero_add, Nat.cast_zero, Int.add_zero] at hpos
        exact hpos
      have hend := ((hpixel h w (by omega)).1 (hall h (by omega) w (by omega))
        (bytesPerPixel - 1) (by omega)).2
      rw [hrow h (Nat.le_refl h) hfirst, wrap_of_lt (Int.mul_nonneg (by omega) (by omega)) hwide] at hend
      refine ⟨by rw [hlast]; exact hfirst, fun _ => ?_, ?_⟩
      · rw [hw, Int.add_sub_cancel, hdiv]
        exact hwide
      · rw [hlast, hbytes, Int.add_mul, Int.one_mul]
        omega
    · rintro ⟨hfirst, hwide, hend⟩ y hy x hx
      rw [hlast] at hfirst
      rw [hlast, hbytes, Int.add_mul, Int.one_mul] at hend
      replace hwide := hwide hstorage
      rw [hw, Int.add_sub_cancel, hdiv] at hwide
      have hxle : (x : Int) * bytesPerPixel ≤ w * bytesPerPixel :=
        Int.mul_le_mul_of_nonneg_right (by omega) (by omega)
      have hx0 : 0 ≤ (x : Int) * bytesPerPixel := Int.mul_nonneg (by omega) (by omega)
      have hy' := hmono y (by omega)
      have hy0 := hnonneg y
      rw [hpixel y x hx, hrow y (by omega) hfirst, wrap_of_lt hx0 (by omega)]
      intro byte hbyte
      omega

/-! ## The Sad Mac -/

/-- A pixel of the frame, and any place outside of it, can be looked at. -/
theorem darkPixel_isSome (hr : frame.RowsInside) (hsmall : frame.Small) (x y : Int32) :
    (frame.darkPixel x y).isSome := by
  unfold darkPixel
  by_cases hout : ¬ frame.Valid ∨ frame.storage ≠ .indexed ∨ x < 0 ∨ y < 0 ∨ frame.width ≤ x ∨
      frame.height ≤ y
  · rw [if_pos hout]
    rfl
  · rw [if_neg hout]
    simp only [not_or, not_not, Int32.lt_iff_toInt_lt, Int32.le_iff_toInt_le, Int32.toInt_zero,
      Int.not_lt, Int.not_le] at hout
    obtain ⟨hv, hs, hx0, hy0, hxw, hyh⟩ := hout
    dsimp only
    rw [Option.isSome_map, byteAt_isSome]
    obtain ⟨pixelsPerByte, hppb, hdiv, hmul, -⟩ := indexed_depth hs hv.depth
    have hbpp := bits_pos hmul
    have hrow : y.toInt * frame.strideBytes.toInt
        ≤ (frame.height.toInt - 1) * frame.strideBytes.toInt :=
      Int.mul_le_mul_of_nonneg_right (by omega) (Int.le_of_lt hv.stride_pos)
    have hrow0 : 0 ≤ y.toInt * frame.strideBytes.toInt :=
      Int.mul_nonneg hy0 (Int.le_of_lt hv.stride_pos)
    have hbit : x.toInt * frame.bitsPerPixel.toInt
        ≤ (frame.width.toInt - 1) * frame.bitsPerPixel.toInt :=
      Int.mul_le_mul_of_nonneg_right (by omega) (Int.le_of_lt hbpp)
    have hbit0 : 0 ≤ x.toInt * frame.bitsPerPixel.toInt := Int.mul_nonneg hx0 (Int.le_of_lt hbpp)
    have hbits := hsmall.bits
    have hbytes := hsmall.bytes
    rw [Int.sub_mul, Int.one_mul] at hbit
    -- the byte of a pixel, counted in bits and counted in bytes
    have hsame : x.toInt * frame.bitsPerPixel.toInt / 8 = x.toInt / pixelsPerByte := by
      rw [← hmul, Int.mul_comm frame.bitsPerPixel.toInt, Int.mul_ediv_mul_of_pos_left _ _ hbpp]
    have hle : x.toInt / pixelsPerByte ≤ (frame.width.toInt - 1) / pixelsPerByte :=
      Int.ediv_le_ediv (by omega) (by omega)
    have hlast := hr.last
    have hrowBytes : frame.rowBytes = (frame.width.toInt - 1) / pixelsPerByte + 1 := by
      unfold rowBytes
      rw [hs]
      dsimp only
      rw [hdiv]
    rw [hrowBytes] at hlast
    have hmulBit : (x * frame.bitsPerPixel).toInt = x.toInt * frame.bitsPerPixel.toInt := by
      rw [Int32.toInt_mul]
      exact wrap_of_lt hbit0 (by omega)
    have hdivBit : (x * frame.bitsPerPixel / 8).toInt = x.toInt / pixelsPerByte := by
      rw [Int32.toInt_div_of_ne_right _ _ (by decide), hmulBit, show (8 : Int32).toInt = 8 from rfl,
        Int.tdiv_eq_ediv_of_nonneg hbit0, hsame]
    have hdiv0 : 0 ≤ x.toInt / pixelsPerByte := Int.ediv_nonneg hx0 (by omega)
    have hindex : (y * frame.strideBytes + x * frame.bitsPerPixel / 8).toInt
        = y.toInt * frame.strideBytes.toInt + x.toInt / pixelsPerByte := by
      have hprod : (y * frame.strideBytes).toInt = y.toInt * frame.strideBytes.toInt := by
        rw [Int32.toInt_mul]
        exact wrap_of_lt hrow0 (lt_of_le_of_lt hrow hr.rows)
      rw [Int32.toInt_add, hdivBit, hprod]
      exact wrap_of_lt (by omega) (by omega)
    rw [hindex]
    omega

section
variable (hdark : ∀ x y, (frame.darkPixel x y).isSome)
include hdark

theorem darkCount_isSome (y halfWidth : Int32) : (frame.darkCount y halfWidth).isSome := by
  unfold darkCount
  refine isSome_foldlM (fun count x _ => ?_) 0
  rw [Option.isSome_map]
  exact hdark x y

theorem glyphRows_isSome (y : Int32) (rows : List Int32) : (frame.glyphRows y rows).isSome := by
  induction rows with
  | nil => rfl
  | cons row rows ih =>
    obtain ⟨first, hfirst⟩ := Option.isSome_iff_exists.1 (darkCount_isSome hdark (y + row) 48)
    obtain ⟨second, hsecond⟩ := Option.isSome_iff_exists.1 (darkCount_isSome hdark (y + 12 + row) 48)
    rw [glyphRows, hfirst, Option.bind_some, hsecond, Option.bind_some]
    split_ifs
    · rfl
    · exact ih

theorem gapInk_isSome (y : Int32) : (frame.gapInk y).isSome := by
  unfold gapInk
  refine isSome_foldlM (fun ink row _ => ?_) 0
  rw [Option.isSome_map]
  exact darkCount_isSome hdark _ _

theorem iconInk_isSome (y : Int32) : (frame.iconInk y).isSome := by
  unfold iconInk
  refine isSome_foldlM (fun count row _ => ?_) (0, 0)
  rw [Option.isSome_map]
  exact darkCount_isSome hdark _ _

theorem detectAt_isSome (ys : List Int32) : (frame.detectAt ys).isSome := by
  induction ys with
  | nil => rfl
  | cons y ys ih =>
    obtain ⟨glyphs, hglyphs⟩ := Option.isSome_iff_exists.1 (glyphRows_isSome hdark y (span 0 6))
    obtain ⟨gap, hgap⟩ := Option.isSome_iff_exists.1 (gapInk_isSome hdark y)
    obtain ⟨icon, hicon⟩ := Option.isSome_iff_exists.1 (iconInk_isSome hdark y)
    rw [detectAt, hglyphs, Option.bind_some]
    split_ifs
    · exact ih
    · rw [hgap, Option.bind_some]
      split_ifs
      · exact ih
      · rw [hicon, Option.bind_some]
        split_ifs
        · rfl
        · exact ih

theorem detect_isSome : frame.detect.isSome := by
  unfold detect
  split_ifs
  · rfl
  · exact detectAt_isSome hdark _

end

/-! ## Frames -/

theorem rowsInside_of_staysInside (hv : frame.Valid) (h : frame.StaysInside) : frame.RowsInside :=
  (render_isSome_iff hv).1 h.1

/-- For a frame of a size that can be counted, the end of the last row decides. -/
theorem staysInside_iff (hv : frame.Valid) (hsmall : frame.Small) :
    frame.StaysInside ↔ frame.RowsInside := by
  constructor
  · exact rowsInside_of_staysInside hv
  · intro hr
    exact ⟨(render_isSome_iff hv).2 hr, detect_isSome (darkPixel_isSome hr hsmall)⟩

/-- Where the pixels end with the last row, a row has to fit into the stride. -/
theorem staysInside_iff_of_rows (hv : frame.Valid)
    (hsize : (frame.pixels.length : Int) ≤ frame.strideBytes.toInt * frame.height.toInt)
    (hstride : frame.strideBytes.toInt ≤ 524280) (hheight : frame.height.toInt ≤ 2160) :
    frame.StaysInside ↔ frame.rowBytes ≤ frame.strideBytes.toInt := by
  have hs0 := hv.stride_pos
  have hh0 := hv.height_pos
  have hw0 := hv.width_pos
  have hrows := hv.rows
  have heq : (frame.pixels.length : Int) = frame.height.toInt * frame.strideBytes.toInt := by
    rw [Int.mul_comm]
    omega
  have hprod : frame.height.toInt * frame.strideBytes.toInt ≤ 2160 * 524280 := by
    refine (Int.mul_le_mul_of_nonneg_right hheight (Int.le_of_lt hs0)).trans ?_
    exact Int.mul_le_mul_of_nonneg_left hstride (by omega)
  have hsub : (frame.height.toInt - 1) * frame.strideBytes.toInt
      = frame.height.toInt * frame.strideBytes.toInt - frame.strideBytes.toInt := by
    rw [Int.sub_mul, Int.one_mul]
  constructor
  · intro h
    have hlast := (rowsInside_of_staysInside hv h).last
    rw [hsub, heq] at hlast
    omega
  · intro hfit
    have hr : frame.RowsInside := by
      refine ⟨by rw [hsub]; omega, fun hdirect => ?_, by rw [hsub, heq]; omega⟩
      unfold rowBytes at hfit
      rw [hdirect] at hfit
      dsimp only at hfit
      obtain ⟨bytesPerPixel, hbpp, -, hdiv, -⟩ := direct_depth hdirect hv.depth
      rw [hdiv] at hfit ⊢
      rw [Int.sub_mul, Int.one_mul]
      omega
    refine (staysInside_iff hv ⟨?_, by omega⟩).2 hr
    unfold rowBytes at hfit
    cases hstorage : frame.storage with
    | indexed =>
      obtain ⟨pixelsPerByte, hppb, hdiv, hmul, -⟩ := indexed_depth hstorage hv.depth
      rw [hstorage] at hfit
      dsimp only at hfit
      rw [hdiv] at hfit
      have hbpp := bits_pos hmul
      have hlt := Int.lt_ediv_add_one_mul_self (frame.width.toInt - 1)
        (show (0 : Int) < pixelsPerByte by omega)
      have hle : ((frame.width.toInt - 1) / pixelsPerByte + 1) * pixelsPerByte
          ≤ 524280 * pixelsPerByte := Int.mul_le_mul_of_nonneg_right (by omega) (by omega)
      calc frame.width.toInt * frame.bitsPerPixel.toInt
          ≤ 524280 * pixelsPerByte * frame.bitsPerPixel.toInt :=
            Int.mul_le_mul_of_nonneg_right (by omega) (Int.le_of_lt hbpp)
        _ = 524280 * 8 := by rw [Int.mul_assoc, Int.mul_comm (pixelsPerByte : Int), hmul]
        _ ≤ 2 ^ 31 := by decide
    | direct =>
      obtain ⟨bytesPerPixel, hbpp, hbpp4, hdiv, -⟩ := direct_depth hstorage hv.depth
      rw [hstorage] at hfit
      dsimp only at hfit
      rw [hdiv] at hfit
      have hle : frame.width.toInt * 1 ≤ frame.width.toInt * bytesPerPixel :=
        Int.mul_le_mul_of_nonneg_left (by omega) (by omega)
      calc frame.width.toInt * frame.bitsPerPixel.toInt
          ≤ frame.width.toInt * 32 := Int.mul_le_mul_of_nonneg_left (by omega) (by omega)
        _ ≤ 2 ^ 31 := by omega

end VideoFrame

open VideoFrame

theorem toInt_ofNat_small {n : Nat} (h : n ≤ 524280) : (Int32.ofNat n).toInt = n :=
  Int32.toInt_ofNat_of_lt (by omega)

/-! ## The Apple card -/

namespace AppleDisplayCard

open AppleDisplay

inductive Input where
  | write (w : VramWrite)
  | tick (cycles : Nat)
  | reset

def step (s : AppleDisplayCard) : Input → Option AppleDisplayCard
  | .write w => accesses.write s w
  | .tick cycles => some (s.tick cycles)
  | .reset => some s.reset

/-- The size of the raster, and the stride. -/
structure Raster (s : AppleDisplayCard) : Prop where
  width : 0 < s.width ∧ s.width ≤ 4096
  height : 0 < s.height ∧ s.height ≤ 2160
  stride : s.stride.toNat ≤ 0xffff

variable {s s' : AppleDisplayCard}

theorem Raster.updateRaster (h : s.Raster) : s.updateRaster.Raster := by
  unfold AppleDisplayCard.updateRaster
  by_cases hnone : s.vtotal = 0 ∨ s.crtc.vactive = 0 ∨ s.preload = 256
  · rw [if_pos hnone]
    exact h
  · rw [if_neg hnone]
    refine ⟨?_, ?_, h.stride⟩
    · dsimp only
      split_ifs <;> omega
    · dsimp only
      split_ifs <;> omega

theorem toNat_low (x : UInt32) : (x &&& 0xffff).toNat ≤ 0xffff := by
  rw [UInt32.toNat_and]
  exact Nat.and_le_right

theorem Raster.writeJmfb (h : s.Raster) (index data : UInt32) : (s.writeJmfb index data).Raster := by
  unfold AppleDisplayCard.writeJmfb
  dsimp only
  split_ifs
  · exact ⟨h.width, h.height, h.stride⟩
  · exact ⟨h.width, h.height, h.stride⟩
  · exact Raster.updateRaster ⟨h.width, h.height, h.stride⟩
  · exact ⟨h.width, h.height, h.stride⟩
  · exact ⟨h.width, h.height, toNat_low data⟩
  · exact h

theorem Raster.writeCrtc (h : s.Raster) (index data : UInt32) : (s.writeCrtc index data).Raster := by
  unfold AppleDisplayCard.writeCrtc
  dsimp only
  split
  all_goals first
    | exact Raster.updateRaster ⟨h.width, h.height, h.stride⟩
    | exact ⟨h.width, h.height, h.stride⟩

theorem Raster.writeRamdac (h : s.Raster) (index data : UInt32) : (s.writeRamdac index data).Raster := by
  unfold AppleDisplayCard.writeRamdac
  dsimp only
  split_ifs
  · exact ⟨h.width, h.height, h.stride⟩
  · exact ⟨h.width, h.height, h.stride⟩
  · exact ⟨h.width, h.height, h.stride⟩
  · exact Raster.updateRaster ⟨h.width, h.height, h.stride⟩
  · exact h

theorem Raster.writeClockGenerator (h : s.Raster) (index data : UInt32) :
    (s.writeClockGenerator index data).Raster := by
  unfold AppleDisplayCard.writeClockGenerator
  dsimp only
  split_ifs
  · exact Raster.updateRaster ⟨h.width, h.height, h.stride⟩
  · exact Raster.updateRaster ⟨h.width, h.height, h.stride⟩
  · exact Raster.updateRaster ⟨h.width, h.height, h.stride⟩
  · exact h

theorem Raster.writeRegister (h : s.Raster) (localOffset data : UInt32) :
    (s.writeRegister localOffset data).Raster := by
  unfold AppleDisplayCard.writeRegister
  split_ifs
  · exact h.writeJmfb _ _
  · exact h.writeCrtc _ _
  · exact h.writeRamdac _ _
  · exact h.writeClockGenerator _ _
  · exact h

theorem Raster.put (h : s.Raster) (index : Nat) (byte : UInt8) : (s.put index byte).Raster :=
  ⟨h.width, h.height, h.stride⟩

theorem Raster.write8 (h : s.Raster) {offset : UInt32} {value : UInt8}
    (hw : s.write8 offset value = some s') : s'.Raster := by
  rcases Nat.lt_or_ge (place offset) 0x200000 with hin | hout
  · cases hd : s.directRgbActive with
    | false =>
      rw [write8_plain hd hin, Option.some_inj] at hw
      rw [← hw]
      exact h.put _ _
    | true =>
      rw [write8_direct hd hin, Option.some_inj] at hw
      rw [← hw]
      split_ifs
      · exact h
      · exact h.put _ _
  · rw [write8_register hout, Option.some_inj] at hw
    rw [← hw]
    exact h.writeRegister _ _

theorem Raster.writeLanes (bytes : List UInt8) : ∀ {s : AppleDisplayCard} {index : Nat}, s.Raster →
    s.writeLanes index bytes = some s' → s'.Raster := by
  induction bytes with
  | nil =>
    intro s index h hw
    cases hw
    exact h
  | cons b bs ih =>
    intro s index h hw
    rw [writeLanes_cons] at hw
    exact ih (h.put _ _) hw

theorem Raster.write (h : s.Raster) {w : VramWrite} (hw : accesses.write s w = some s') : s'.Raster := by
  cases w with
  | byte offset value => exact h.write8 hw
  | word offset value =>
    replace hw : s.write16 offset value = some s' := hw
    unfold write16 at hw
    dsimp only at hw
    split_ifs at hw
    · rw [Option.some_inj] at hw
      rw [← hw]
      exact h.writeRegister _ _
    · obtain ⟨t, ht, hrest⟩ := Option.bind_eq_some_iff.1 hw
      exact (h.write8 ht).write8 hrest
  | long offset value =>
    replace hw : s.write32 offset value = some s' := hw
    unfold write32 at hw
    dsimp only at hw
    split_ifs at hw
    · rcases Nat.lt_or_ge (colorOffset (offset &&& 0x00ffffff) + 2) s.vramBytes with hin | hout
      · rw [packedRgbWrite32_in hin, Option.some_inj] at hw
        rw [← hw]
        exact ((h.put _ _).put _ _).put _ _
      · rw [packedRgbWrite32_out hout, Option.some_inj] at hw
        rw [← hw]
        exact h
    · exact Raster.writeLanes _ h hw
    · rw [Option.some_inj] at hw
      rw [← hw]
      exact h.writeRegister _ _

theorem raster_reset (s : AppleDisplayCard) : s.reset.Raster :=
  ⟨show (0 : Int) < 640 ∧ (640 : Int) ≤ 4096 by decide,
    show (0 : Int) < 480 ∧ (480 : Int) ≤ 2160 by decide, show 20 ≤ 0xffff by decide⟩

theorem Raster.step (h : s.Raster) {input : Input} (hstep : s.step input = some s') : s'.Raster := by
  cases input with
  | write w => exact h.write hstep
  | tick cycles =>
    cases hstep
    unfold AppleDisplayCard.tick
    dsimp only
    split_ifs
    · exact ⟨h.width, h.height, h.stride⟩
    · exact ⟨h.width, h.height, h.stride⟩
  | reset =>
    cases hstep
    exact raster_reset s

theorem Raster.run {inputs : List Input} : ∀ {s : AppleDisplayCard}, s.Raster →
    inputs.foldlM AppleDisplayCard.step s = some s' → s'.Raster := by
  induction inputs with
  | nil =>
    intro s h hrun
    cases hrun
    exact h
  | cons input inputs ih =>
    intro s h hrun
    obtain ⟨t, ht, hrest⟩ := Option.bind_eq_some_iff.1 (by rwa [List.foldlM_cons] at hrun)
    exact ih (h.step ht) hrest

theorem length_grayPixels (pixels : List UInt8) : (grayPixels pixels).length = pixels.length := by
  induction pixels using grayPixels.induct with
  | case1 red green blue rest ih =>
    simp only [grayPixels, List.length_cons, ih]
  | case2 rest h =>
    rw [grayPixels]
    exact h

theorem length_scanoutPixels (s : AppleDisplayCard) (stride : Nat) :
    (s.scanoutPixels stride).length ≤ stride * s.height.toNat := by
  unfold scanoutPixels
  rw [List.length_take]
  exact Nat.min_le_left _ _

/-- The pixels of a frame end with its last row. -/
theorem Raster.frame (h : s.Raster) (hv : s.videoFrame.Valid) :
    (s.videoFrame.pixels.length : Int)
        ≤ s.videoFrame.strideBytes.toInt * s.videoFrame.height.toInt ∧
      s.videoFrame.strideBytes.toInt ≤ 524280 ∧ s.videoFrame.height.toInt ≤ 2160 := by
  have hstride := h.stride
  obtain ⟨hh0, hh⟩ := h.height
  have hheight : (Int32.ofInt s.height).toInt = s.height.toNat := by
    rw [Int32.toInt_ofInt_of_le (by omega) (by omega)]
    omega
  have hpixels : ∀ stride : Nat, stride ≤ 524280 →
      ((s.scanoutPixels stride).length : Int)
        ≤ (Int32.ofNat stride).toInt * (Int32.ofInt s.height).toInt := by
    intro stride hs
    have hlen := length_scanoutPixels s stride
    rw [toInt_ofNat_small hs, hheight]
    exact_mod_cast hlen
  unfold videoFrame at hv ⊢
  split_ifs at hv ⊢
  · exact absurd hv.width_pos (by decide)
  · dsimp only
    refine ⟨?_, by rw [toInt_ofNat_small (by omega)]; omega, by rw [hheight]; omega⟩
    have hlen : (scanoutDirectPixels (s.scanoutPixels (s.stride.toNat * 8)) s.monitor).length
        = (s.scanoutPixels (s.stride.toNat * 8)).length := by
      unfold scanoutDirectPixels
      split_ifs
      · exact length_grayPixels _
      · rfl
    rw [hlen]
    exact hpixels _ (by omega)
  · dsimp only
    unfold indexedStrideBytes
    exact ⟨hpixels _ (by omega), by rw [toInt_ofNat_small (by omega)]; omega, by rw [hheight]; omega⟩

theorem frame_inside {vramKiB : Int} {monitor : Monitor} {inputs : List Input}
    (hrun : inputs.foldlM step (powerOn vramKiB monitor) = some s) (hv : s.videoFrame.Valid) :
    s.videoFrame.StaysInside ↔ s.videoFrame.rowBytes ≤ s.videoFrame.strideBytes.toInt := by
  obtain ⟨hsize, hstride, hheight⟩ := (Raster.run (raster_reset _) hrun).frame hv
  exact staysInside_iff_of_rows hv hsize hstride hheight

end AppleDisplayCard

/-! ## The video of the Quadra -/

namespace DafbVideo

open Dafb

inductive Input where
  | writeRegister8 (offset : UInt32) (value : UInt8)
  | writeRegister16 (offset : UInt32) (value : UInt16)
  | writeRegister32 (offset value : UInt32)
  | readRegister32 (offset : UInt32)
  | writeVram8 (offset : UInt32) (value : UInt8)
  | setTurboScsiDrq (bus : Nat) (asserted : Bool)
  | tick (cycles : Nat)
  | reset

def step (s : DafbVideo) : Input → DafbVideo
  | .writeRegister8 offset value => s.writeRegister8 offset value
  | .writeRegister16 offset value => s.writeRegister16 offset value
  | .writeRegister32 offset value => s.writeRegister32 offset value
  | .readRegister32 offset => (s.readRegister32 offset).2
  | .writeVram8 offset value => s.writeVram8 offset value
  | .setTurboScsiDrq bus asserted => s.setTurboScsiDrq bus asserted
  | .tick cycles => s.tick cycles
  | .reset => s.reset

/-- The height of the raster, and the stride; the width can be any number. -/
structure Raster (s : DafbVideo) : Prop where
  height : 0 < s.height.toInt ∧ s.height.toInt ≤ 2160
  stride : s.stride.toNat ≤ 0x3ffc

variable {s : DafbVideo}

theorem Raster.updateSize (h : s.Raster) : s.updateSize.Raster := by
  refine ⟨?_, h.stride⟩
  unfold DafbVideo.updateSize
  dsimp only
  split_ifs with hvres
  · rw [Int32.lt_iff_toInt_lt, Int32.le_iff_toInt_le] at hvres
    exact hvres
  · exact h.height

theorem toNat_div_le (x d : UInt32) : (max 1 (x / d)).toNat ≤ max 1 x.toNat := by
  have hdiv : (x / d).toNat ≤ x.toNat := by
    rw [UInt32.toNat_div]
    exact Nat.div_le_self _ _
  show (if (1 : UInt32) ≤ x / d then x / d else 1).toNat ≤ max 1 x.toNat
  split_ifs
  · exact hdiv.trans (Nat.le_max_right _ _)
  · exact Nat.le_max_left _ _

theorem Raster.updateClock (h : s.Raster) : s.updateClock.Raster := by
  have hstride := h.stride
  unfold DafbVideo.updateClock
  dsimp only
  split_ifs
  · exact ⟨h.height, (toNat_div_le _ _).trans (by omega)⟩
  · exact ⟨h.height, h.stride⟩

theorem Raster.updateMode (h : s.Raster) : s.updateMode.Raster := by
  have hmode : { s with mode := s.pixelMode }.Raster := ⟨h.height, h.stride⟩
  unfold DafbVideo.updateMode
  dsimp only
  by_cases hnone : s.horizontal[9] = 0 ∨ s.vertical[6] >>> 1 = 0
  · rw [if_pos hnone]
    exact hmode
  · rw [if_neg hnone]
    split_ifs
    · refine Raster.updateClock ⟨?_, hmode.updateSize.stride⟩
      show 0 < (384 : Int32).toInt ∧ (384 : Int32).toInt ≤ 2160
      decide
    · exact hmode.updateSize.updateClock

theorem Raster.setInterrupt (h : s.Raster) (mask : UInt8) (asserted : Bool) :
    (s.setInterrupt mask asserted).Raster := ⟨h.height, h.stride⟩

theorem Raster.writeDafb (h : s.Raster) (reg value : UInt32) : (s.writeDafb reg value).Raster := by
  unfold DafbVideo.writeDafb
  dsimp only
  split
  · exact ⟨h.height, h.stride⟩
  · exact ⟨h.height, h.stride⟩
  · refine Raster.updateMode ⟨h.height, ?_⟩
    have hle : (value &&& 0x0fff).toNat ≤ 0x0fff := by
      rw [UInt32.toNat_and]
      exact Nat.and_le_right
    show ((value &&& 0x0fff) <<< 2).toNat ≤ 0x3ffc
    rw [UInt32.toNat_shiftLeft, show (2 : UInt32).toNat % 32 = 2 from rfl, Nat.shiftLeft_eq]
    omega
  · exact Raster.updateMode ⟨h.height, h.stride⟩
  all_goals exact ⟨h.height, h.stride⟩

theorem Raster.writeSwatch (h : s.Raster) (reg value : UInt32) : (s.writeSwatch reg value).Raster := by
  unfold DafbVideo.writeSwatch
  dsimp only
  split_ifs
  all_goals first
    | exact Raster.updateMode ⟨h.height, h.stride⟩
    | exact ⟨h.height, h.stride⟩

theorem Raster.writeRamdac (h : s.Raster) (reg value : UInt32) : (s.writeRamdac reg value).Raster := by
  unfold DafbVideo.writeRamdac
  split
  · exact ⟨h.height, h.stride⟩
  · dsimp only
    split_ifs
    · exact ⟨h.height, h.stride⟩
    · exact ⟨h.height, h.stride⟩
    · exact ⟨h.height, h.stride⟩
  · split_ifs
    · exact ⟨h.height, h.stride⟩
    · exact Raster.updateMode ⟨h.height, h.stride⟩
  · exact h

theorem Raster.writeRegister32 (h : s.Raster) (offset value : UInt32) :
    (s.writeRegister32 offset value).Raster := by
  unfold DafbVideo.writeRegister32 writeBlock
  dsimp only
  split_ifs
  · exact h.writeDafb _ _
  · exact h.writeSwatch _ _
  · exact h.writeRamdac _ _
  · exact h

theorem Raster.readSwatch (h : s.Raster) (reg : UInt32) : (s.readSwatch reg).2.Raster := by
  unfold DafbVideo.readSwatch
  split_ifs
  all_goals exact ⟨h.height, h.stride⟩

theorem Raster.readRamdac (h : s.Raster) (reg : UInt32) : (s.readRamdac reg).2.Raster := by
  unfold DafbVideo.readRamdac
  split
  · exact ⟨h.height, h.stride⟩
  · dsimp only
    split_ifs
    all_goals exact ⟨h.height, h.stride⟩
  · exact ⟨h.height, h.stride⟩
  · exact h

theorem Raster.readRegister32 (h : s.Raster) (offset : UInt32) : (s.readRegister32 offset).2.Raster := by
  unfold DafbVideo.readRegister32 readBlock
  dsimp only
  split_ifs
  · exact h
  · exact h.readSwatch _
  · exact h.readRamdac _
  · exact h

theorem Raster.tick (h : s.Raster) (cycles : Nat) : (s.tick cycles).Raster := by
  unfold DafbVideo.tick
  dsimp only
  split_ifs
  all_goals exact ⟨h.height, h.stride⟩

theorem raster_reset (s : DafbVideo) : s.reset.Raster :=
  ⟨show (0 : Int) < (480 : Int32).toInt ∧ (480 : Int32).toInt ≤ 2160 by decide,
    show (1024 : UInt32).toNat ≤ 0x3ffc by decide⟩

theorem Raster.step (h : s.Raster) (input : Input) : (s.step input).Raster := by
  cases input with
  | writeRegister8 offset value => exact h.writeRegister32 _ _
  | writeRegister16 offset value => exact h.writeRegister32 _ _
  | writeRegister32 offset value => exact h.writeRegister32 _ _
  | readRegister32 offset => exact h.readRegister32 _
  | writeVram8 offset value => exact ⟨h.height, h.stride⟩
  | setTurboScsiDrq bus asserted => exact ⟨h.height, h.stride⟩
  | tick cycles => exact h.tick _
  | reset => exact raster_reset s

/-- The pixels of a frame end with its last row. -/
theorem Raster.frame (h : s.Raster) (hv : s.videoFrame.Valid) :
    (s.videoFrame.pixels.length : Int)
        ≤ s.videoFrame.strideBytes.toInt * s.videoFrame.height.toInt ∧
      s.videoFrame.strideBytes.toInt ≤ 524280 ∧ s.videoFrame.height.toInt ≤ 2160 := by
  obtain ⟨hh0, hh⟩ := h.height
  have hstride : s.scanoutStrideBytes.toNat ≤ 0x3ffc := by
    unfold scanoutStrideBytes
    split_ifs
    · decide
    · exact h.stride
  have hint : s.scanoutStrideBytes.toInt32.toInt = s.scanoutStrideBytes.toNat := by
    rw [← UInt32.ofNat_toNat (x := s.scanoutStrideBytes), UInt32.toInt32_ofNat', UInt32.ofNat_toNat]
    exact toInt_ofNat_small (by omega)
  have hpixels : (s.scanoutPixels.length : Int) ≤ s.scanoutStrideBytes.toInt32.toInt * s.height.toInt := by
    have hlen : s.scanoutPixels.length ≤ s.scanoutStrideBytes.toNat * s.height.toInt.toNat := by
      unfold scanoutPixels
      rw [List.length_take]
      refine (Nat.min_le_left _ _).trans ?_
      rw [UInt32.toNat_mul]
      refine (Nat.mod_le _ _).trans (Nat.mul_le_mul_left _ ?_)
      show s.height.toInt.toNat % 2 ^ 32 ≤ s.height.toInt.toNat
      exact Nat.mod_le _ _
    have hcast : (s.height.toInt.toNat : Int) = s.height.toInt := Int.toNat_of_nonneg (by omega)
    rw [hint, ← hcast]
    exact_mod_cast hlen
  unfold videoFrame at hv ⊢
  dsimp only at hv ⊢
  split_ifs at hv ⊢
  · exact absurd hv.width_pos (by decide)
  · exact absurd hv.width_pos (by decide)
  · exact absurd hv.width_pos (by decide)
  all_goals exact ⟨hpixels, by rw [hint]; omega, hh⟩

theorem frame_inside {variant : Variant} {monitor : Monitor} {inputs : List Input}
    (hrun : Machine.run step (powerOn variant monitor) inputs = s) (hv : s.videoFrame.Valid) :
    s.videoFrame.StaysInside ↔ s.videoFrame.rowBytes ≤ s.videoFrame.strideBytes.toInt := by
  have hraster : s.Raster := by
    rw [← hrun]
    exact Machine.run_inv (I := Raster) (fun _ input h => h.step input) (raster_reset _) inputs
  obtain ⟨hsize, hstride, hheight⟩ := hraster.frame hv
  exact staysInside_iff_of_rows hv hsize hstride hheight

end DafbVideo

/-! ## All frames -/

/-- A valid frame that is read inside its pixels has its last row inside of them, and where it is
    of a size that can be counted this is enough; for the frames of the two devices it is that a
    row fits into the stride. -/
theorem frames_inside (frame : VideoFrame) (variant : Dafb.Variant) (monitor : Dafb.Monitor)
    (writes : List DafbVideo.Input) (vramKiB : Int) (display : AppleDisplay.Monitor)
    (inputs : List AppleDisplayCard.Input) :
    (frame.Valid → (frame.StaysInside → frame.RowsInside) ∧
      (frame.Small → (frame.StaysInside ↔ frame.RowsInside))) ∧
    (let shown := (Machine.run DafbVideo.step (DafbVideo.powerOn variant monitor) writes).videoFrame
     shown.Valid → (shown.StaysInside ↔ shown.rowBytes ≤ shown.strideBytes.toInt)) ∧
    (∀ s : AppleDisplayCard,
      inputs.foldlM AppleDisplayCard.step (AppleDisplayCard.powerOn vramKiB display) = some s →
      s.videoFrame.Valid →
        (s.videoFrame.StaysInside ↔ s.videoFrame.rowBytes ≤ s.videoFrame.strideBytes.toInt)) := by
  refine ⟨fun hv => ⟨rowsInside_of_staysInside hv, staysInside_iff hv⟩, ?_, ?_⟩
  · intro shown hv
    exact DafbVideo.frame_inside rfl hv
  · intro s hrun hv
    exact AppleDisplayCard.frame_inside hrun hv

/-- A card whose stride is set to four bytes shows a valid frame of 80 bytes a row. -/
theorem narrow_stride : ∃ s : AppleDisplayCard,
    [AppleDisplayCard.Input.write (.long 0x0020000c 1)].foldlM AppleDisplayCard.step
      (AppleDisplayCard.powerOn 1024 .hiResRgb) = some s ∧
    s.videoFrame.Valid ∧ ¬ s.videoFrame.StaysInside := by
  have hrun : [AppleDisplayCard.Input.write (.long 0x0020000c 1)].foldlM AppleDisplayCard.step
      (AppleDisplayCard.powerOn 1024 .hiResRgb)
        = some { AppleDisplayCard.powerOn 1024 .hiResRgb with stride := 1 } := rfl
  refine ⟨_, hrun, ?_⟩
  obtain ⟨s, hs⟩ : ∃ s, s = { AppleDisplayCard.powerOn 1024 .hiResRgb with stride := 1 } := ⟨_, rfl⟩
  rw [← hs] at hrun ⊢
  have hframe : s.videoFrame =
      { width := 640
        height := 480
        strideBytes := 4
        bitsPerPixel := 1
        pixels := s.scanoutPixels 4
        colorTable := AppleDisplay.scanoutPalette s.palette.toList s.monitor 1
        pixelToColorIndex := [0, 1]
        grabbable := true } := by
    rw [hs]
    rfl
  have hlength : s.videoFrame.pixels.length = 1920 := by
    rw [hframe]
    show (s.scanoutPixels 4).length = 1920
    rw [hs]
    unfold AppleDisplayCard.scanoutPixels
    rw [List.length_take, List.length_drop, Vector.length_toList]
    rfl
  have hv : s.videoFrame.Valid := by
    refine ⟨?_, ?_, ?_, ?_, ?_⟩
    · rw [hframe]
      show 0 < (640 : Int32).toInt
      decide
    · rw [hframe]
      show 0 < (480 : Int32).toInt
      decide
    · rw [hframe]
      show 0 < (4 : Int32).toInt
      decide
    · rw [hframe]
      exact Or.inl rfl
    · rw [hlength, hframe]
      show (4 : Int32).toInt * (480 : Int32).toInt ≤ 1920
      decide
  refine ⟨hv, fun h => ?_⟩
  have hfit := (AppleDisplayCard.frame_inside hrun hv).1 h
  rw [hframe] at hfit
  replace hfit : ((640 : Int32).toInt - 1) / (8 / (1 : Int32).toInt) + 1 ≤ (4 : Int32).toInt := hfit
  exact absurd hfit (by decide)

end CuteMac.Video
