/-
  The raster of the Quadra's video as a function of its registers.

  * `RegisterWrite`, `write`: the writes of the three widths;
  * `Controls`: the registers that the raster depends on, and the raster they ask for;
  * `Recorded`: the video with the stride as it was written, and with what the last update of
    the mode has seen;
  * `writeBlock_cases`: a write updates the mode, or leaves the raster as it is;
  * `Exact`, `run_exact`: the raster is the one that the controls ask for;
  * `raster_of_controls`: equal registers give equal rasters.

  An update divides the stored stride in the convolution mode, so that the stride register is
  its own only where no update has come to divide it.
-/
import CuteMac.Video.DafbVideo
import CuteMac.Lib.Machine

namespace CuteMac.Video

open Dafb Machine

/-! ## The raster of the registers -/

namespace Dafb

/-- The registers behind the mode, but for the second control of the pixel bus. -/
structure Controls where
  config : UInt32
  pixelBusControl : UInt8
  horizontal : Vector UInt32 10
  vertical : Vector UInt32 7
  deriving DecidableEq

namespace Controls

def horizontalTotal (c : Controls) : UInt32 := c.horizontal[9]?.getD 0

def verticalTotal (c : Controls) : UInt32 := (c.vertical[6]?.getD 0) >>> 1

def horizontalSize (c : Controls) : Int32 :=
  (c.horizontal[8]?.getD 0 - c.horizontal[7]?.getD 0).toInt32

def verticalSize (c : Controls) : Int32 :=
  ((c.vertical[5]?.getD 0 >>> 1) - (c.vertical[4]?.getD 0 >>> 1)).toInt32

/-- An update of the mode goes on to the size. -/
def Counts (c : Controls) : Prop := c.horizontalTotal ≠ 0 ∧ c.verticalTotal ≠ 0

instance (c : Controls) : Decidable c.Counts := inferInstanceAs (Decidable (_ ∧ _))

/-- The timing describes a size of at most 4096 by 2160. -/
structure Timed (c : Controls) : Prop where
  counts : c.Counts
  horizontal : 0 < c.horizontalSize ∧ c.horizontalSize ≤ 4096
  vertical : 0 < c.verticalSize ∧ c.verticalSize ≤ 2160

def convolution (c : Controls) : Bool := c.config &&& 0x08 != 0

def clockDivider (c : Controls) : UInt32 :=
  (1 : UInt32) <<< ((c.pixelBusControl.toUInt32 &&& 0x60) >>> 5)

def width (c : Controls) : Int32 :=
  if c.convolution then max 1 (c.horizontalSize / c.clockDivider.toInt32 - 23)
  else c.horizontalSize * c.clockDivider.toInt32

def height (c : Controls) (variant : Variant) : Int32 :=
  if c.horizontalSize = 512 ∧ variant = .discrete then 384 else c.verticalSize

/-- The depth that the two controls of the pixel bus name, if they name one. -/
def mode (c : Controls) (variant : Variant) (control1 : UInt8) : Option UInt8 :=
  if variant ≠ .discrete ∧ c.pixelBusControl &&& 0x06 = 0x06 ∧ control1 &&& 0xc0 = 0xc0 then some 5
  else if c.pixelBusControl &&& 0x1c = 0x00 then some 0
  else if c.pixelBusControl &&& 0x1c = 0x08 then some 1
  else if c.pixelBusControl &&& 0x1c = 0x10 then some 2
  else if c.pixelBusControl &&& 0x1c = 0x18 then some 3
  else if c.pixelBusControl &&& 0x1c = 0x1c then some 4
  else none

/-- An update of the mode changes this stride. -/
def rescales (c : Controls) (stride : UInt32) : Bool :=
  c.convolution && decide c.Counts && (c.pixelBusControl &&& 0x60 != 0 || stride == 0)

end Controls

end Dafb

namespace DafbVideo

def controls (s : DafbVideo) : Controls :=
  { config := s.config
    pixelBusControl := s.pixelBusControl
    horizontal := s.horizontal
    vertical := s.vertical }

/-! ## Writes of the registers -/

inductive RegisterWrite where
  | byte (offset : UInt32) (value : UInt8)
  | word (offset : UInt32) (value : UInt16)
  | long (offset value : UInt32)

namespace RegisterWrite

/-- The register that is written. -/
def target : RegisterWrite → UInt32
  | byte offset _ => (offset &&& ~~~3) &&& 0x3ff
  | word offset _ => (offset &&& ~~~3) &&& 0x3ff
  | long offset _ => offset &&& 0x3ff

/-- What the register is given. -/
def data : RegisterWrite → UInt32
  | byte _ value => AppleDisplay.smearRegisterByte value
  | word _ value => (value.toUInt32 <<< 16) ||| value.toUInt32
  | long _ value => value

end RegisterWrite

def write (s : DafbVideo) : RegisterWrite → DafbVideo
  | .byte offset value => s.writeRegister8 offset value
  | .word offset value => s.writeRegister16 offset value
  | .long offset value => s.writeRegister32 offset value

theorem write_eq (s : DafbVideo) (w : RegisterWrite) : s.write w = s.writeBlock w.target w.data := by
  cases w <;> rfl

/-- The offset is the stride register. -/
def isStride (offset : UInt32) : Bool := offset &&& 0x300 == 0x000 && offset &&& 0xff == 0x08

/-- A write at the offset updates the mode. -/
def updates (s : DafbVideo) (offset : UInt32) : Bool :=
  let block := offset &&& 0x300
  let reg := offset &&& 0xff
  if block = 0x000 then reg == 0x08 || reg == 0x10
  else if block = 0x100 then decide (0x24 ≤ reg) && decide (reg ≤ 0x64) && reg &&& 3 == 0
  else if block = 0x200 then reg == 0x20 && !s.extendedPixelBus
  else false

/-! ## Updates of the mode -/

/-- The size of the one board that knows a size by its width. -/
def boardSize (s : DafbVideo) : DafbVideo :=
  if s.width = 512 ∧ s.variant = .discrete then { s with base := 0x1000, height := 384 } else s

/-- What the steps of an update leave as it is. -/
structure SameControls (s t : DafbVideo) : Prop where
  controls : t.controls = s.controls
  variant : t.variant = s.variant
  control1 : t.pixelBusControl1 = s.pixelBusControl1
  mode : t.mode = s.mode

section
variable {s t u : DafbVideo}

theorem SameControls.trans (h : SameControls s t) (h' : SameControls t u) : SameControls s u :=
  ⟨h'.controls.trans h.controls, h'.variant.trans h.variant, h'.control1.trans h.control1,
    h'.mode.trans h.mode⟩

theorem pixelMode_eq (s : DafbVideo) :
    s.pixelMode = (s.controls.mode s.variant s.pixelBusControl1).getD s.mode := by
  have hcode : ∀ n : UInt8, s.controls.pixelBusControl &&& 0x1c = n ↔
      (s.pixelBusControl &&& 0x1c).toNat = n.toNat := fun n => UInt8.toNat_inj.symm
  unfold pixelMode Controls.mode
  by_cases hdirect : s.variant ≠ .discrete ∧ s.pixelBusControl &&& 0x06 = 0x06 ∧
      s.pixelBusControl1 &&& 0xc0 = 0xc0
  · have hdirect' : s.variant ≠ .discrete ∧ s.controls.pixelBusControl &&& 0x06 = 0x06 ∧
      s.pixelBusControl1 &&& 0xc0 = 0xc0 := hdirect
    rw [if_pos hdirect, if_pos hdirect']
    rfl
  · have hdirect' : ¬ (s.variant ≠ .discrete ∧ s.controls.pixelBusControl &&& 0x06 = 0x06 ∧
      s.pixelBusControl1 &&& 0xc0 = 0xc0) := hdirect
    rw [if_neg hdirect, if_neg hdirect']
    simp only [hcode]
    generalize (s.pixelBusControl &&& 0x1c).toNat = n
    split
    · rfl
    · rfl
    · rfl
    · rfl
    · rfl
    · next h0 h8 h10 h18 h1c =>
      have hnone : ∀ k : UInt8, (n = k.toNat → False) → ¬ n = k.toNat := fun _ h => h
      rw [if_neg (hnone 0x00 h0), if_neg (hnone 0x08 h8), if_neg (hnone 0x10 h10),
        if_neg (hnone 0x18 h18), if_neg (hnone 0x1c h1c)]
      rfl

theorem updateMode_eq (s : DafbVideo) :
    s.updateMode =
      if s.controls.Counts then (boardSize (updateSize { s with mode := s.pixelMode })).updateClock
      else { s with mode := s.pixelMode } := by
  unfold updateMode
  by_cases h : s.horizontal[9] = 0 ∨ (s.vertical[6] : UInt32) >>> 1 = 0
  · have hcounts : ¬ s.controls.Counts := fun hc => h.elim hc.1 hc.2
    rw [if_neg hcounts]
    exact if_pos h
  · have hcounts : s.controls.Counts := not_or.1 h
    rw [if_pos hcounts]
    exact if_neg h

theorem sameControls_boardSize (s : DafbVideo) : SameControls s s.boardSize := by
  unfold boardSize
  split_ifs <;> exact ⟨rfl, rfl, rfl, rfl⟩

theorem sameControls_updateClock (s : DafbVideo) : SameControls s s.updateClock := by
  unfold updateClock
  dsimp only
  split_ifs <;> exact ⟨rfl, rfl, rfl, rfl⟩

theorem width_boardSize (s : DafbVideo) : s.boardSize.width = s.width := by
  unfold boardSize
  split_ifs <;> rfl

theorem stride_boardSize (s : DafbVideo) : s.boardSize.stride = s.stride := by
  unfold boardSize
  split_ifs <;> rfl

theorem updateClock_eq (s : DafbVideo) :
    s.updateClock =
      if s.controls.convolution then
        { s with
          width := max 1 (s.width / s.controls.clockDivider.toInt32 - 23)
          stride := max 1 (s.stride / s.controls.clockDivider) }
      else { s with width := s.width * s.controls.clockDivider.toInt32 } := by
  unfold updateClock Controls.convolution
  simp only [bne_iff_ne]
  rfl

theorem clockDivider_one {c : Controls} (h : c.pixelBusControl &&& 0x60 = 0) : c.clockDivider = 1 := by
  have hbits : c.pixelBusControl.toUInt32 &&& 0x60 = 0 :=
    (UInt8.toUInt32_and c.pixelBusControl 0x60).symm.trans (congrArg UInt8.toUInt32 h)
  unfold Controls.clockDivider
  rw [hbits]
  rfl

theorem one_le_of_ne_zero {n : UInt32} (h : n ≠ 0) : 1 ≤ n := by
  refine UInt32.le_iff_toNat_le.2 (Nat.pos_of_ne_zero fun h0 => h ?_)
  exact UInt32.toNat_inj.1 h0

/-- An update takes up the mode, and leaves the registers as they are. -/
theorem updateMode_frame (s : DafbVideo) :
    SameControls { s with mode := s.pixelMode } s.updateMode := by
  rw [updateMode_eq]
  split_ifs
  · have hsize : SameControls { s with mode := s.pixelMode }
        (updateSize { s with mode := s.pixelMode }) := ⟨rfl, rfl, rfl, rfl⟩
    exact (hsize.trans (sameControls_boardSize _)).trans (sameControls_updateClock _)
  · exact ⟨rfl, rfl, rfl, rfl⟩

theorem updateMode_size (h : s.controls.Timed) :
    s.updateMode.width = s.controls.width ∧ s.updateMode.height = s.controls.height s.variant := by
  rw [updateMode_eq, if_pos h.counts]
  obtain ⟨t, ht⟩ : ∃ t, t = updateSize { s with mode := s.pixelMode } := ⟨_, rfl⟩
  have hcontrols : t.controls = s.controls := by rw [ht]; rfl
  have hvariant : t.variant = s.variant := by rw [ht]; rfl
  have hwidth : t.width = s.controls.horizontalSize := by rw [ht]; exact if_pos h.horizontal
  have hheight : t.height = s.controls.verticalSize := by rw [ht]; exact if_pos h.vertical
  have hboard : t.boardSize.height = s.controls.height s.variant := by
    unfold boardSize Controls.height
    by_cases hboard : s.controls.horizontalSize = 512 ∧ s.variant = .discrete
    · rw [if_pos hboard, if_pos ⟨hwidth.trans hboard.1, hvariant.trans hboard.2⟩]
    · rw [if_neg hboard, if_neg fun h => hboard ⟨hwidth.symm.trans h.1, hvariant.symm.trans h.2⟩]
      exact hheight
  rw [← ht, updateClock_eq, (sameControls_boardSize t).controls, hcontrols, width_boardSize, hwidth]
  unfold Controls.width
  split_ifs
  · exact ⟨rfl, hboard⟩
  · exact ⟨rfl, hboard⟩

/-- The stride is left alone where it is not to be divided. -/
theorem updateMode_stride (h : s.controls.rescales s.stride = false) :
    s.updateMode.stride = s.stride := by
  rw [updateMode_eq]
  by_cases hcounts : s.controls.Counts
  · obtain ⟨t, ht⟩ : ∃ t, t = updateSize { s with mode := s.pixelMode } := ⟨_, rfl⟩
    have hcontrols : t.boardSize.controls = s.controls := by
      rw [(sameControls_boardSize t).controls, ht]
      rfl
    have hstride : t.boardSize.stride = s.stride := by
      rw [stride_boardSize, ht]
      rfl
    rw [if_pos hcounts, ← ht, updateClock_eq, hcontrols]
    by_cases hconv : s.controls.convolution = true
    · have hplain : s.controls.pixelBusControl &&& 0x60 = 0 ∧ s.stride ≠ 0 := by
        simpa [Controls.rescales, hconv, hcounts] using h
      have hdivider : s.controls.clockDivider = 1 := clockDivider_one hplain.1
      rw [if_pos hconv, hdivider]
      show max 1 (t.boardSize.stride / 1) = s.stride
      rw [hstride, UInt32.div_one]
      exact if_pos (one_le_of_ne_zero hplain.2)
    · rw [if_neg hconv]
      exact hstride
  · rw [if_neg hcounts]

/-! ## What a write does -/

/-- What a write leaves as it is that does not update the mode. -/
structure SameRaster (s t : DafbVideo) : Prop where
  controls : t.controls = s.controls
  variant : t.variant = s.variant
  mode : t.mode = s.mode
  width : t.width = s.width
  height : t.height = s.height
  stride : t.stride = s.stride

/-- A write updates the mode, with its register written before; or it leaves the raster as it
    is. -/
inductive Written (s : DafbVideo) (offset value : UInt32) : DafbVideo → Prop where
  | updated (t : DafbVideo) (h : s.updates offset = true) (variant : t.variant = s.variant)
      (stride : t.stride = if isStride offset then (value &&& 0x0fff) <<< 2 else s.stride) :
      Written s offset value t.updateMode
  | left (t : DafbVideo) (h : s.updates offset = false) (same : SameRaster s t) : Written s offset value t

theorem sameRaster_setInterrupt (s : DafbVideo) (mask : UInt8) (asserted : Bool) :
    SameRaster s (s.setInterrupt mask asserted) := ⟨rfl, rfl, rfl, rfl, rfl, rfl⟩

theorem writeDafb_written (s : DafbVideo) {offset : UInt32} (value : UInt32)
    (hblock : offset &&& 0x300 = 0x000) :
    Written s offset value (s.writeDafb (offset &&& 0xff) value) := by
  have hupdates : s.updates offset = (offset &&& 0xff == 0x08 || offset &&& 0xff == 0x10) :=
    if_pos hblock
  have hstride : isStride offset = (offset &&& 0xff == 0x08) := by
    unfold isStride
    rw [hblock]
    rfl
  generalize offset &&& 0xff = reg at hupdates hstride
  have hleft : ∀ t, reg.toNat ≠ 0x08 → reg.toNat ≠ 0x10 → SameRaster s t →
      Written s offset value t := by
    intro t h8 h10 hsame
    refine .left t ?_ hsame
    rw [hupdates, Bool.or_eq_false_iff, beq_eq_false_iff_ne, beq_eq_false_iff_ne]
    exact ⟨fun h => h8 (congrArg UInt32.toNat h), fun h => h10 (congrArg UInt32.toNat h)⟩
  unfold writeDafb
  dsimp only
  split
  · next h => exact hleft _ (by rw [h]; decide) (by rw [h]; decide) ⟨rfl, rfl, rfl, rfl, rfl, rfl⟩
  · next h => exact hleft _ (by rw [h]; decide) (by rw [h]; decide) ⟨rfl, rfl, rfl, rfl, rfl, rfl⟩
  · next h =>
    have hreg : reg = 0x08 := UInt32.toNat_inj.1 h
    refine .updated _ ?_ rfl ?_
    · rw [hupdates, hreg]
      rfl
    · rw [hstride, hreg]
      rfl
  · next h =>
    have hreg : reg = 0x10 := UInt32.toNat_inj.1 h
    refine .updated _ ?_ rfl ?_
    · rw [hupdates, hreg]
      rfl
    · rw [hstride, hreg]
      rfl
  · next h => exact hleft _ (by rw [h]; decide) (by rw [h]; decide) ⟨rfl, rfl, rfl, rfl, rfl, rfl⟩
  · next h => exact hleft _ (by rw [h]; decide) (by rw [h]; decide) ⟨rfl, rfl, rfl, rfl, rfl, rfl⟩
  · next h => exact hleft _ (by rw [h]; decide) (by rw [h]; decide) ⟨rfl, rfl, rfl, rfl, rfl, rfl⟩
  · next h => exact hleft _ (by rw [h]; decide) (by rw [h]; decide) ⟨rfl, rfl, rfl, rfl, rfl, rfl⟩
  · next h => exact hleft _ (by rw [h]; decide) (by rw [h]; decide) ⟨rfl, rfl, rfl, rfl, rfl, rfl⟩
  · next h8 h10 _ _ _ _ _ => exact hleft _ h8 h10 ⟨rfl, rfl, rfl, rfl, rfl, rfl⟩

/-- The two banks of counters meet. -/
theorem aligned_timing {reg : UInt32} (h : 0x24 ≤ reg ∧ reg ≤ 0x64 ∧ reg &&& 3 = 0) :
    (0x24 ≤ reg ∧ reg ≤ 0x48 ∧ reg &&& 3 = 0) ∨ (0x4c ≤ reg ∧ reg ≤ 0x64 ∧ reg &&& 3 = 0) := by
  by_cases hlow : reg ≤ 0x48
  · exact Or.inl ⟨h.1, hlow, h.2.2⟩
  · refine Or.inr ⟨?_, h.2⟩
    have hgap : ∀ n : UInt32, n &&& 3 ≠ 0 → reg.toNat ≠ n.toNat :=
      fun n hn heq => hn (UInt32.toNat_inj.1 heq ▸ h.2.2)
    have h49 : reg.toNat ≠ 0x49 := hgap 0x49 (by decide)
    have h4a : reg.toNat ≠ 0x4a := hgap 0x4a (by decide)
    have h4b : reg.toNat ≠ 0x4b := hgap 0x4b (by decide)
    have hgt : 0x48 < reg.toNat := UInt32.not_le.1 hlow
    show 0x4c ≤ reg.toNat
    omega

theorem writeSwatch_written (s : DafbVideo) {offset : UInt32} (value : UInt32)
    (hblock : offset &&& 0x300 = 0x100) :
    Written s offset value (s.writeSwatch (offset &&& 0xff) value) := by
  have hupdates : s.updates offset = (decide (0x24 ≤ offset &&& 0xff) &&
      decide (offset &&& 0xff ≤ 0x64) && offset &&& 0xff &&& 3 == 0) := by
    unfold updates
    rw [hblock]
    rfl
  have hstride : isStride offset = false := by
    unfold isStride
    rw [hblock]
    rfl
  generalize offset &&& 0xff = reg at hupdates
  have hleft : ∀ t, ¬ (0x24 ≤ reg ∧ reg ≤ 0x64 ∧ reg &&& 3 = 0) → SameRaster s t →
      Written s offset value t := by
    intro t hreg hsame
    refine .left t ?_ hsame
    rw [hupdates]
    simpa [and_assoc] using hreg
  have hupdated : ∀ t : DafbVideo, 0x24 ≤ reg ∧ reg ≤ 0x64 ∧ reg &&& 3 = 0 →
      t.variant = s.variant → t.stride = s.stride → Written s offset value t.updateMode := by
    intro t hreg hvariant hsame
    refine .updated t ?_ hvariant ?_
    · rw [hupdates]
      simpa [and_assoc] using hreg
    · rw [hstride]
      exact hsame
  have hsmall : ∀ n : UInt32, reg = n → n < 0x24 → ¬ (0x24 ≤ reg ∧ reg ≤ 0x64 ∧ reg &&& 3 = 0) :=
    fun n hn hlt h => UInt32.not_le.2 hlt (hn ▸ h.1)
  unfold writeSwatch
  dsimp only
  split_ifs with h00 h04 _ _ _ h0c h14 h20 hhorizontal hvertical
  · exact hleft _ (hsmall 0x00 h00 (by decide)) ⟨rfl, rfl, rfl, rfl, rfl, rfl⟩
  · exact hleft _ (hsmall 0x04 h04 (by decide)) ⟨rfl, rfl, rfl, rfl, rfl, rfl⟩
  · exact hleft _ (hsmall 0x04 h04 (by decide)) ⟨rfl, rfl, rfl, rfl, rfl, rfl⟩
  · exact hleft _ (hsmall 0x04 h04 (by decide)) ⟨rfl, rfl, rfl, rfl, rfl, rfl⟩
  · exact hleft _ (hsmall 0x04 h04 (by decide)) ⟨rfl, rfl, rfl, rfl, rfl, rfl⟩
  · exact hleft _ (hsmall 0x0c h0c (by decide)) (sameRaster_setInterrupt s _ _)
  · exact hleft _ (hsmall 0x14 h14 (by decide)) (sameRaster_setInterrupt s _ _)
  · exact hleft _ (hsmall 0x20 h20 (by decide)) ⟨rfl, rfl, rfl, rfl, rfl, rfl⟩
  · exact hupdated _ ⟨hhorizontal.1, UInt32.le_trans hhorizontal.2.1 (by decide), hhorizontal.2.2⟩
      rfl rfl
  · exact hupdated _ ⟨UInt32.le_trans (by decide) hvertical.1, hvertical.2⟩ rfl rfl
  · refine hleft _ (fun h => ?_) ⟨rfl, rfl, rfl, rfl, rfl, rfl⟩
    rcases aligned_timing h with h' | h'
    · exact hhorizontal h'
    · exact hvertical h'

theorem writeRamdac_written (s : DafbVideo) {offset : UInt32} (value : UInt32)
    (hblock : offset &&& 0x300 = 0x200) :
    Written s offset value (s.writeRamdac (offset &&& 0xff) value) := by
  have hupdates : s.updates offset = (offset &&& 0xff == 0x20 && !s.extendedPixelBus) := by
    unfold updates
    rw [hblock]
    rfl
  have hstride : isStride offset = false := by
    unfold isStride
    rw [hblock]
    rfl
  generalize offset &&& 0xff = reg at hupdates
  have hleft : ∀ t, reg.toNat ≠ 0x20 → SameRaster s t → Written s offset value t := by
    intro t hreg hsame
    refine .left t ?_ hsame
    rw [hupdates, beq_eq_false_iff_ne.2 fun h => hreg (congrArg UInt32.toNat h)]
    rfl
  unfold writeRamdac
  split
  · next h => exact hleft _ (by rw [h]; decide) ⟨rfl, rfl, rfl, rfl, rfl, rfl⟩
  · next h =>
    dsimp only
    split_ifs
    · exact hleft _ (by rw [h]; decide) ⟨rfl, rfl, rfl, rfl, rfl, rfl⟩
    · exact hleft _ (by rw [h]; decide) ⟨rfl, rfl, rfl, rfl, rfl, rfl⟩
    · exact hleft _ (by rw [h]; decide) ⟨rfl, rfl, rfl, rfl, rfl, rfl⟩
  · next h =>
    have hreg : reg = 0x20 := UInt32.toNat_inj.1 h
    split_ifs with hextended
    · refine .left _ ?_ ⟨rfl, rfl, rfl, rfl, rfl, rfl⟩
      rw [hupdates, hextended, Bool.not_true, Bool.and_false]
    · refine .updated _ ?_ rfl ?_
      · rw [hupdates, hreg, Bool.eq_false_iff.2 hextended]
        rfl
      · rw [hstride]
        rfl
  · next h _ h20 => exact hleft _ h20 ⟨rfl, rfl, rfl, rfl, rfl, rfl⟩

theorem write_written (s : DafbVideo) (w : RegisterWrite) : Written s w.target w.data (s.write w) := by
  rw [write_eq]
  unfold writeBlock
  dsimp only
  split_ifs with hdafb hswatch hramdac
  · exact writeDafb_written s _ hdafb
  · exact writeSwatch_written s _ hswatch
  · exact writeRamdac_written s _ hramdac
  · refine .left s ?_ ⟨rfl, rfl, rfl, rfl, rfl, rfl⟩
    unfold updates
    dsimp only
    rw [if_neg hdafb, if_neg hswatch, if_neg hramdac]

end

/-! ## Runs of writes -/

/-- The video, with the stride as it was written last, and with what the last update of the mode
    has seen. -/
structure Recorded where
  video : DafbVideo
  stride : UInt32 := 1024
  /-- The second control of the pixel bus when the mode was taken up. -/
  taken : UInt8 := 0
  /-- No update has changed the stride since it was written. -/
  whole : Bool := true

namespace Recorded

def write (r : Recorded) (w : RegisterWrite) : Recorded :=
  let video := r.video.write w
  let stride := if isStride w.target then (w.data &&& 0x0fff) <<< 2 else r.stride
  if r.video.updates w.target then
    { video := video
      stride := stride
      taken := video.pixelBusControl1
      whole := (isStride w.target || r.whole) && !video.controls.rescales stride }
  else { r with video := video }

/-- The two hold the same registers. -/
structure SameRegisters (r r' : Recorded) : Prop where
  controls : r.video.controls = r'.video.controls
  control1 : r.video.pixelBusControl1 = r'.video.pixelBusControl1
  stride : r.stride = r'.stride

/-- The controls of the pixel bus name a depth, and the mode was taken up with the second control
    selecting as it does. -/
structure NamesMode (r : Recorded) : Prop where
  named : (r.video.controls.mode r.video.variant r.video.pixelBusControl1).isSome
  taken : r.taken &&& 0xc0 = 0xc0 ↔ r.video.pixelBusControl1 &&& 0xc0 = 0xc0

end Recorded

def recorded (s : DafbVideo) (ws : List RegisterWrite) : Recorded :=
  run Recorded.write { video := s.reset } ws

section
variable {r r' : Recorded}

theorem video_recorded (s : DafbVideo) (ws : List RegisterWrite) :
    (recorded s ws).video = run write s.reset ws := by
  have hstep : ∀ (r : Recorded) w, (r.write w).video = r.video.write w := by
    intro r w
    unfold Recorded.write
    dsimp only
    split_ifs <;> rfl
  have hrun : ∀ r : Recorded, (run Recorded.write r ws).video = run write r.video ws := by
    induction ws with
    | nil => exact fun _ => rfl
    | cons w ws ih =>
      intro r
      rw [run_cons, run_cons, ih, hstep]
  exact hrun _

/-- The raster is the one that the registers ask for. -/
structure Exact (r : Recorded) : Prop where
  size : r.video.controls.Timed → r.video.width = r.video.controls.width ∧
    r.video.height = r.video.controls.height r.video.variant
  mode : ∀ m, r.video.controls.mode r.video.variant r.taken = some m → r.video.mode = m
  stride : r.whole = true → r.video.stride = r.stride

theorem exact_write (h : Exact r) (w : RegisterWrite) : Exact (r.write w) := by
  have hwritten := write_written r.video w
  unfold Recorded.write
  dsimp only
  generalize r.video.write w = v at hwritten ⊢
  cases hwritten with
  | updated t hupdates hvariant hstride =>
    have hframe := updateMode_frame t
    have hcontrols : t.updateMode.controls = t.controls := hframe.controls
    have hvariant' : t.updateMode.variant = t.variant := hframe.variant
    have hcontrol1 : t.updateMode.pixelBusControl1 = t.pixelBusControl1 := hframe.control1
    have hmode : t.updateMode.mode = t.pixelMode := hframe.mode
    rw [if_pos hupdates]
    refine ⟨fun htimed => ?_, fun m hm => ?_, fun hwhole => ?_⟩
    · show t.updateMode.width = t.updateMode.controls.width ∧ _
      replace htimed : t.updateMode.controls.Timed := htimed
      rw [hcontrols] at htimed ⊢
      rw [hvariant']
      exact updateMode_size htimed
    · show t.updateMode.mode = m
      replace hm : t.updateMode.controls.mode t.updateMode.variant t.updateMode.pixelBusControl1 =
        some m := hm
      rw [hcontrols, hvariant', hcontrol1] at hm
      rw [hmode, pixelMode_eq, hm]
      rfl
    · show t.updateMode.stride = if isStride w.target then (w.data &&& 0x0fff) <<< 2 else r.stride
      replace hwhole : ((isStride w.target || r.whole) && !t.updateMode.controls.rescales
        (if isStride w.target then (w.data &&& 0x0fff) <<< 2 else r.stride)) = true := hwhole
      obtain ⟨hkept, hplain⟩ := Bool.and_eq_true_iff.1 hwhole
      have htstride : t.stride =
          if isStride w.target then (w.data &&& 0x0fff) <<< 2 else r.stride := by
        rw [hstride]
        split_ifs with hw
        · rfl
        · rw [Bool.eq_false_iff.2 hw, Bool.false_or] at hkept
          exact h.stride hkept
      rw [hcontrols, ← htstride, Bool.not_eq_true'] at hplain
      rw [updateMode_stride hplain, htstride]
  | left t hupdates hsame =>
    rw [if_neg (Bool.eq_false_iff.1 hupdates)]
    refine ⟨fun htimed => ?_, fun m hm => ?_, fun hwhole => hsame.stride.trans (h.stride hwhole)⟩
    · show v.width = v.controls.width ∧ v.height = v.controls.height v.variant
      replace htimed : v.controls.Timed := htimed
      rw [hsame.controls] at htimed ⊢
      rw [hsame.variant, hsame.width, hsame.height]
      exact h.size htimed
    · show v.mode = m
      replace hm : v.controls.mode v.variant r.taken = some m := hm
      rw [hsame.controls, hsame.variant] at hm
      rw [hsame.mode]
      exact h.mode m hm

theorem exact_reset (s : DafbVideo) : Exact { video := s.reset } := by
  have hmode : s.reset.controls.mode s.reset.variant 0 = some 0 := by
    have hcontrol : s.reset.controls.pixelBusControl = 0 := rfl
    unfold Controls.mode
    rw [hcontrol, if_neg fun h => absurd h.2.1 (by decide)]
    rfl
  refine ⟨fun h => absurd rfl h.counts.1, fun m hm => ?_, fun _ => rfl⟩
  exact Option.some.inj (hmode.symm.trans hm)

theorem run_exact (s : DafbVideo) (ws : List RegisterWrite) : Exact (recorded s ws) :=
  run_inv (I := Exact) (fun _ w h => exact_write h w) (exact_reset s) ws

theorem variant_write (s : DafbVideo) (w : RegisterWrite) : (s.write w).variant = s.variant := by
  have hwritten := write_written s w
  generalize s.write w = v at hwritten ⊢
  cases hwritten with
  | updated t _ hvariant _ => exact (updateMode_frame t).variant.trans hvariant
  | left _ _ hsame => exact hsame.variant

theorem variant_recorded (s : DafbVideo) (ws : List RegisterWrite) :
    (recorded s ws).video.variant = s.variant := by
  rw [video_recorded]
  exact run_inv (I := fun t => t.variant = s.variant) (fun t w h => (variant_write t w).trans h)
    (show s.reset.variant = s.variant from rfl) ws

theorem clockDivider_cases (c : Controls) :
    c.clockDivider = 1 ∨ c.clockDivider = 2 ∨ c.clockDivider = 4 ∨ c.clockDivider = 8 := by
  have hall : ∀ n : Fin 256, (1 : UInt32) <<< (((UInt8.ofNat n.val).toUInt32 &&& 0x60) >>> 5) ∈
      [(1 : UInt32), 2, 4, 8] := by decide +kernel
  have h := hall ⟨c.pixelBusControl.toNat, c.pixelBusControl.toNat_lt⟩
  rw [UInt8.ofNat_toNat] at h
  simpa [Controls.clockDivider] using h

/-- The width is at most 4096 times the largest divider. -/
theorem width_le {c : Controls} (h : c.Timed) : c.width.toInt ≤ 4096 * 8 := by
  have hdivider : 1 ≤ c.clockDivider.toInt32.toInt ∧ c.clockDivider.toInt32.toInt ≤ 8 := by
    rcases clockDivider_cases c with hd | hd | hd | hd <;> rw [hd] <;> decide
  have hpos : 0 < c.horizontalSize.toInt := Int32.lt_iff_toInt_lt.1 h.horizontal.1
  have hle : c.horizontalSize.toInt ≤ 4096 := Int32.le_iff_toInt_le.1 h.horizontal.2
  unfold Controls.width
  split_ifs
  · have hquot : 0 ≤ c.horizontalSize.toInt / c.clockDivider.toInt32.toInt ∧
        c.horizontalSize.toInt / c.clockDivider.toInt32.toInt ≤ 4096 :=
      ⟨Int.ediv_nonneg hpos.le (by omega), (Int.ediv_le_self _ hpos.le).trans hle⟩
    have hdiff : (c.horizontalSize / c.clockDivider.toInt32 - 23).toInt =
        c.horizontalSize.toInt / c.clockDivider.toInt32.toInt - 23 := by
      have hdiv : (c.horizontalSize / c.clockDivider.toInt32).toInt =
          c.horizontalSize.toInt / c.clockDivider.toInt32.toInt := by
        rw [Int32.toInt_div, Int.tdiv_eq_ediv_of_nonneg hpos.le]
        exact Int.bmod_eq_of_le (by omega) (by omega)
      have h23 : (23 : Int32).toInt = 23 := by decide
      rw [Int32.toInt_sub, hdiv, h23]
      exact Int.bmod_eq_of_le (by omega) (by omega)
    show (if (1 : Int32) ≤ _ then _ else (1 : Int32)).toInt ≤ _
    split_ifs
    · omega
    · decide
  · have hprod : c.horizontalSize.toInt * c.clockDivider.toInt32.toInt ≤ 4096 * 8 :=
      Int.mul_le_mul hle hdivider.2 (by omega) (by decide)
    have hprod0 : 0 ≤ c.horizontalSize.toInt * c.clockDivider.toInt32.toInt :=
      Int.mul_nonneg hpos.le (by omega)
    rw [Int32.toInt_mul, Int.bmod_eq_of_le (by omega) (by omega)]
    exact hprod
theorem mode_taken (h : r.NamesMode) :
    r.video.controls.mode r.video.variant r.taken =
      r.video.controls.mode r.video.variant r.video.pixelBusControl1 := by
  unfold Controls.mode
  simp only [h.taken]

/-- Writes that leave equal registers leave equal rasters. -/
theorem raster_of_controls (s : DafbVideo) (as bs : List RegisterWrite)
    (hregisters : (recorded s as).SameRegisters (recorded s bs))
    (htimed : (recorded s as).video.controls.Timed) :
    (recorded s as).video.width = (recorded s bs).video.width ∧
      (recorded s as).video.height = (recorded s bs).video.height ∧
      (recorded s as).video.width.toInt ≤ 4096 * 8 ∧
      ((recorded s as).NamesMode → (recorded s bs).NamesMode →
        (recorded s as).video.mode = (recorded s bs).video.mode) ∧
      ((recorded s as).video.controls.convolution = true ∨
          ((recorded s as).whole = true ∧ (recorded s bs).whole = true) →
        (recorded s as).video.scanoutStrideBytes = (recorded s bs).video.scanoutStrideBytes) := by
  have has := run_exact s as
  have hbs := run_exact s bs
  have hvariant := (variant_recorded s as).trans (variant_recorded s bs).symm
  have htimed' : (recorded s bs).video.controls.Timed := hregisters.controls ▸ htimed
  obtain ⟨hwidth, hheight⟩ := has.size htimed
  obtain ⟨hwidth', hheight'⟩ := hbs.size htimed'
  refine ⟨?_, ?_, ?_, fun hn hn' => ?_, fun hstride => ?_⟩
  · rw [hwidth, hwidth', hregisters.controls]
  · rw [hheight, hheight', hregisters.controls, hvariant]
  · rw [hwidth]
    exact width_le htimed
  · obtain ⟨m, hm⟩ := Option.isSome_iff_exists.1 hn.named
    have hm' := hm
    rw [hregisters.controls, hregisters.control1, hvariant] at hm'
    rw [has.mode m ((mode_taken hn).trans hm), hbs.mode m ((mode_taken hn').trans hm')]
  · have hconfig : (recorded s as).video.config = (recorded s bs).video.config :=
      congrArg Controls.config hregisters.controls
    unfold scanoutStrideBytes
    by_cases hconv : (recorded s as).video.config &&& 0x08 ≠ 0
    · rw [if_pos hconv, if_pos (hconfig ▸ hconv)]
    · obtain ⟨hwhole, hwhole'⟩ := hstride.resolve_left fun h => hconv (bne_iff_ne.1 h)
      rw [if_neg hconv, if_neg (hconfig ▸ hconv), has.stride hwhole, hbs.stride hwhole',
        hregisters.stride]

/-- A picture of 640 by 480. -/
def timing : List RegisterWrite :=
  [.long 0x148 800, .long 0x144 640, .long 0x164 1000, .long 0x160 960]

theorem raster_of_timing :
    (recorded (powerOn .memc .vga) timing).video.scanoutStrideBytes =
      (recorded (powerOn .memc .vga) (timing ++ [.long 0x008 256])).video.scanoutStrideBytes := by
  have hregisters : (recorded (powerOn .memc .vga) timing).SameRegisters
      (recorded (powerOn .memc .vga) (timing ++ [.long 0x008 256])) :=
    ⟨by decide +kernel, by decide +kernel, by decide +kernel⟩
  have htimed : (recorded (powerOn .memc .vga) timing).video.controls.Timed :=
    ⟨by decide +kernel, by decide +kernel, by decide +kernel⟩
  have hwhole : (recorded (powerOn .memc .vga) timing).whole = true ∧
      (recorded (powerOn .memc .vga) (timing ++ [.long 0x008 256])).whole = true := by decide +kernel
  have hraster := raster_of_controls (powerOn .memc .vga) timing (timing ++ [.long 0x008 256])
  exact (hraster hregisters htimed).2.2.2.2 (Or.inr hwhole)

/-- Equal registers do not give equal rasters: a depth that has no name leaves the mode, the
    second control of the pixel bus waits for the next update, the convolution divides the stride
    for good, and a size without totals is not taken up. -/
theorem raster_of_history :
    (∃ as bs, (recorded (powerOn .memc .vga) as).SameRegisters (recorded (powerOn .memc .vga) bs) ∧
      (recorded (powerOn .memc .vga) as).video.controls.Timed ∧
      (recorded (powerOn .memc .vga) as).video.mode ≠ (recorded (powerOn .memc .vga) bs).video.mode) ∧
    (∃ as w, (recorded (powerOn .memc .vga) as).SameRegisters
        (recorded (powerOn .memc .vga) (as ++ [w])) ∧
      (recorded (powerOn .memc .vga) as).video.controls.Timed ∧
      (recorded (powerOn .memc .vga) as).video.mode ≠
        (recorded (powerOn .memc .vga) (as ++ [w])).video.mode) ∧
    (∃ as w, (recorded (powerOn .memc .vga) as).SameRegisters
        (recorded (powerOn .memc .vga) (as ++ [w])) ∧
      (recorded (powerOn .memc .vga) as).video.controls.Timed ∧
      (recorded (powerOn .memc .vga) as).video.scanoutStrideBytes ≠
        (recorded (powerOn .memc .vga) (as ++ [w])).video.scanoutStrideBytes) ∧
    (∃ as bs, (recorded (powerOn .memc .vga) as).SameRegisters (recorded (powerOn .memc .vga) bs) ∧
      (recorded (powerOn .memc .vga) as).video.controls.horizontalSize = 640 ∧
      (recorded (powerOn .memc .vga) as).video.controls.verticalSize = 480 ∧
      (recorded (powerOn .memc .vga) as).video.width ≠
        (recorded (powerOn .memc .vga) bs).video.width) := by
  refine ⟨⟨timing ++ [.long 0x220 0x08, .long 0x220 0x04], timing ++ [.long 0x220 0x04],
    ⟨?_, ?_, ?_⟩, ⟨?_, ?_, ?_⟩, ?_⟩, ⟨timing ++ [.long 0x220 0x1e, .long 0x200 1, .long 0x220 0xc0],
    .long 0x148 800, ⟨?_, ?_, ?_⟩, ⟨?_, ?_, ?_⟩, ?_⟩, ⟨timing ++ [.long 0x220 0x20, .long 0x010 0x08,
    .long 0x010 0x00], .long 0x008 256, ⟨?_, ?_, ?_⟩, ⟨?_, ?_, ?_⟩, ?_⟩,
    ⟨[.long 0x160 960, .long 0x144 640], [.long 0x148 800, .long 0x164 1000, .long 0x160 960,
    .long 0x144 800, .long 0x148 0, .long 0x164 0, .long 0x144 640], ⟨?_, ?_, ?_⟩, ?_, ?_, ?_⟩⟩
  all_goals decide +kernel

end

end DafbVideo

end CuteMac.Video
