/-
  The time of the video cards in slices.

  * `latch`: an interrupt line that is raised when a counter runs out;
  * `CuteMacVideoCard.sliced`: the time of this card can be sliced anywhere;
  * `AppleDisplayCard.sliced_iff`: so can that of this card, as far as the sum of the
    position and the cycles wraps as often;
  * `MacintoshIIVideoCard.guestVisible_iff`: a slice that ends behind the frame delays the
    blanking of this card;
  * `DafbVideo.sliced_iff`: what a slice leaves behind the frame is lost here;
  * `blanking_slices_iff`: the four together.
-/
import CuteMac.Lib.Countdown
import CuteMac.Video.CuteMacVideoCard
import CuteMac.Video.DafbVideo

namespace CuteMac.Video

open Countdown

/-- An interrupt line after some cycles of the counter. -/
def latch (enabled irq : Bool) (counter cycles : Nat) : Bool :=
  if counter ≤ cycles then enabled || irq else irq

theorem latch_latch (enabled irq : Bool) (period counter a b : Nat) :
    latch enabled (latch enabled irq counter a) (fall period counter a) b =
      latch enabled irq counter (a + b) := by
  unfold latch
  rcases Nat.lt_or_ge a counter with ha | ha
  · rw [if_neg (Nat.not_le.2 ha)]
    by_cases hb : counter ≤ a + b
    · rw [if_pos ((fall_le_iff counter a b ha).2 hb), if_pos hb]
    · rw [if_neg fun h => hb ((fall_le_iff counter a b ha).1 h), if_neg hb]
  · rw [if_pos ha, if_pos (Nat.le_add_right_of_le ha)]
    split_ifs
    · rw [← Bool.or_assoc, Bool.or_self]
    · rfl

/-! ## The card of the emulator -/

namespace CuteMacVideoCard

open CuteMacCard

/-- The requests of the guest after some cycles. -/
def tickPower (s : CuteMacVideoCard) (cycles : Nat) : CuteMacVideoCard :=
  if s.deferredPowerRequest ≠ .none then
    if s.powerRequestDelayCycles ≤ cycles then
      { s with
        powerRequest := s.deferredPowerRequest
        deferredPowerRequest := .none
        powerRequestDelayCycles := 0 }
    else { s with powerRequestDelayCycles := s.powerRequestDelayCycles - cycles }
  else s

/-- The frame after some cycles. -/
def tickFrame (s : CuteMacVideoCard) (cycles : Nat) : CuteMacVideoCard :=
  { s with
    vblCycles := fall cyclesPerVbl s.vblCycles cycles
    irqAsserted := latch s.vblEnabled s.irqAsserted s.vblCycles cycles }

theorem tick_eq (s : CuteMacVideoCard) (cycles : Nat) :
    s.tick cycles = (s.tickPower cycles).tickFrame cycles := by
  have hframe : ∀ t : CuteMacVideoCard,
      (if t.vblCycles ≤ cycles then
        { t with
          vblCycles := cyclesPerVbl - (cycles - t.vblCycles) % cyclesPerVbl
          irqAsserted := t.vblEnabled || t.irqAsserted }
      else { t with vblCycles := t.vblCycles - cycles }) = t.tickFrame cycles := by
    intro t
    unfold tickFrame fall latch
    split_ifs <;> rfl
  exact hframe (s.tickPower cycles)

theorem tickPower_tickPower (s : CuteMacVideoCard) (a b : Nat) :
    (s.tickPower a).tickPower b = s.tickPower (a + b) := by
  unfold tickPower
  by_cases hnone : s.deferredPowerRequest ≠ .none
  · rw [if_pos hnone, if_pos hnone]
    rcases Nat.lt_or_ge a s.powerRequestDelayCycles with ha | ha
    · rw [if_neg (Nat.not_le.2 ha), if_pos hnone]
      dsimp only
      split_ifs
      · rfl
      · omega
      · omega
      · rw [Nat.sub_sub]
    · rw [if_pos ha, if_pos (Nat.le_add_right_of_le ha)]
      exact if_neg fun h => h rfl
  · rw [if_neg hnone, if_neg hnone, if_neg hnone]

theorem tickFrame_tickFrame (s : CuteMacVideoCard) (a b : Nat) :
    (s.tickFrame a).tickFrame b = s.tickFrame (a + b) := by
  unfold tickFrame
  dsimp only
  rw [fall_fall (by decide), latch_latch]

theorem tickPower_tickFrame (s : CuteMacVideoCard) (a b : Nat) :
    (s.tickFrame a).tickPower b = (s.tickPower b).tickFrame a := by
  unfold tickPower tickFrame
  dsimp only
  split_ifs <;> rfl

theorem sliced (s : CuteMacVideoCard) (a b : Nat) : (s.tick a).tick b = s.tick (a + b) := by
  rw [tick_eq, tick_eq, tick_eq, tickPower_tickFrame, tickFrame_tickFrame, tickPower_tickPower]

end CuteMacVideoCard

/-! ## The Apple card -/

namespace AppleDisplayCard

open AppleDisplay

theorem tick_eq (s : AppleDisplayCard) (cycles : Nat) :
    s.tick cycles =
      { s with
        frameCyclePosition := (s.frameCyclePosition + cycles) % UInt64.size % cyclesPerVbl
        vblCycles := fall cyclesPerVbl s.vblCycles cycles
        irqAsserted := latch (!s.vblDisabled) s.irqAsserted s.vblCycles cycles } := by
  unfold tick fall latch
  dsimp only
  split_ifs <;> rfl

/-- The frame wraps around in the 64-bit sum as often in two slices as in one. -/
def WrapsAlike (position a b : Nat) : Prop :=
  (position + a + b) / UInt64.size =
    (position + a) / UInt64.size +
      ((position + a) % UInt64.size % cyclesPerVbl + b) / UInt64.size

/-- Sums that differ by whole turns of both counters. -/
theorem wraps_iff {A B i j k m : Nat} (hi : i ≤ 1) (hj : j ≤ 1) (hk : k ≤ 1)
    (h : 18446744073709551616 * j + A = 18446744073709551616 * i + 261379 * m + 18446744073709551616 * k + B) :
    B % 261379 = A % 261379 ↔ j = i + k := by
  constructor
  · intro hmod
    rcases Nat.le_one_iff_eq_zero_or_eq_one.1 hi with rfl | rfl <;>
      rcases Nat.le_one_iff_eq_zero_or_eq_one.1 hj with rfl | rfl <;>
      rcases Nat.le_one_iff_eq_zero_or_eq_one.1 hk with rfl | rfl <;> omega
  · intro hj
    have hA : A = 261379 * m + B := by omega
    rw [hA, Nat.mul_add_mod]

theorem position_slice_iff {position a b : Nat} (hposition : position < UInt64.size)
    (hcycles : a + b < UInt64.size) :
    ((position + a) % UInt64.size % cyclesPerVbl + b) % UInt64.size % cyclesPerVbl =
        (position + (a + b)) % UInt64.size % cyclesPerVbl ↔ WrapsAlike position a b := by
  have hsum : position + (a + b) = position + a + b := (Nat.add_assoc _ _ _).symm
  have hlow : (position + a) % UInt64.size % cyclesPerVbl < cyclesPerVbl :=
    Nat.mod_lt _ (by decide)
  have hsize : UInt64.size = 18446744073709551616 := rfl
  have hperiod : cyclesPerVbl = 261379 := rfl
  have hx := Nat.div_add_mod (position + a) UInt64.size
  have hturn := Nat.div_add_mod ((position + a) % UInt64.size) cyclesPerVbl
  have hxb := Nat.div_add_mod (position + a + b) UInt64.size
  have hyb := Nat.div_add_mod ((position + a) % UInt64.size % cyclesPerVbl + b) UInt64.size
  unfold WrapsAlike
  rw [hsum]
  simp only [hsize, hperiod] at hposition hcycles hlow hx hturn hxb hyb ⊢
  exact wraps_iff (m := (position + a) % 18446744073709551616 / 261379) (by omega) (by omega)
    (by omega) (by omega)

theorem sliced_iff {s : AppleDisplayCard} {a b : Nat} (hposition : s.frameCyclePosition < UInt64.size)
    (hcycles : a + b < UInt64.size) :
    (s.tick a).tick b = s.tick (a + b) ↔ WrapsAlike s.frameCyclePosition a b := by
  rw [← position_slice_iff hposition hcycles, tick_eq, tick_eq, tick_eq]
  dsimp only
  rw [fall_fall (by decide), latch_latch]
  constructor
  · exact fun h => congrArg frameCyclePosition h
  · intro h
    rw [h]

end AppleDisplayCard

/-! ## The Macintosh II card -/

namespace MacintoshIIVideoCard

open MacintoshII

/-- What is left of the blanking after some cycles; one that is to begin takes its place. -/
def blankAfter (start blank cycles : Nat) : Nat :=
  if start ≠ 0 ∧ start ≤ cycles then vblankDurationCycles - (cycles - start) else blank - cycles

theorem tick_eq (s : MacintoshIIVideoCard) (cycles : Nat) :
    s.tick cycles =
      { s with
        vblCycles := fall cyclesPerVbl s.vblCycles cycles
        vblankStartCycles :=
          if s.vblCycles ≤ cycles then vblankStartDelayCycles else s.vblankStartCycles - cycles
        vblankCycles := blankAfter s.vblankStartCycles s.vblankCycles cycles
        vblAssertions :=
          if s.vblCycles ≤ cycles ∧ s.vblEnabled then s.vblAssertions + 1 else s.vblAssertions
        irqAsserted := latch s.vblEnabled s.irqAsserted s.vblCycles cycles } := by
  have hpair :
      (if s.vblankStartCycles ≠ 0 then
        if s.vblankStartCycles ≤ cycles then
          (0, vblankDurationCycles - (cycles - s.vblankStartCycles))
        else (s.vblankStartCycles - cycles, s.vblankCycles - cycles)
      else (s.vblankStartCycles, s.vblankCycles - cycles)) =
        (s.vblankStartCycles - cycles, blankAfter s.vblankStartCycles s.vblankCycles cycles) := by
    unfold blankAfter
    split_ifs with h0 hbegun hboth hboth
    · rw [Nat.sub_eq_zero_of_le hbegun]
    · exact absurd ⟨h0, hbegun⟩ hboth
    · exact absurd hboth.2 hbegun
    · rfl
    · exact absurd ‹_ ∧ _›.1 h0
    · rw [not_not.1 h0, Nat.zero_sub]
  unfold tick fall latch
  dsimp only
  rw [hpair]
  dsimp only
  by_cases hframe : s.vblCycles ≤ cycles
  · simp only [hframe, true_and, if_true]
  · simp only [hframe, false_and, if_false]

/-- What the guest sees of the time: the interrupt, the blanking, and how far the next frame is. -/
structure GuestView where
  irq : Bool
  blanking : Bool
  vblCycles : Nat
  deriving DecidableEq

def guestView (s : MacintoshIIVideoCard) : GuestView :=
  { irq := s.irqAsserted, blanking := s.vblankCycles != 0, vblCycles := s.vblCycles }

/-- The blanking is on after some cycles, unless a new frame begins. -/
def Blanks (start blank cycles : Nat) : Prop :=
  if start ≠ 0 ∧ start ≤ cycles then cycles < start + vblankDurationCycles else cycles < blank

/-- The blanking is seen alike when the first of two slices ends behind the frame. -/
def BlanksAlike (start blank a b : Nat) : Prop :=
  if vblankStartDelayCycles ≤ b then
    b < vblankStartDelayCycles + vblankDurationCycles ↔ Blanks start blank (a + b)
  else
    start ≠ 0 → a < start → start ≤ a + b →
      (a + b < blank ↔ a + b < start + vblankDurationCycles)

theorem blankAfter_slice (start blank a b : Nat) :
    blankAfter (start - a) (blankAfter start blank a) b = blankAfter start blank (a + b) := by
  unfold blankAfter
  generalize vblankDurationCycles = duration
  split_ifs <;> omega

theorem blankAfter_pos_iff (start blank cycles : Nat) :
    blankAfter start blank cycles ≠ 0 ↔ Blanks start blank cycles := by
  unfold blankAfter Blanks
  split_ifs <;> omega

theorem blanksAlike_iff (start blank a b : Nat) :
    (blankAfter vblankStartDelayCycles (blankAfter start blank a) b ≠ 0 ↔
      blankAfter start blank (a + b) ≠ 0) ↔ BlanksAlike start blank a b := by
  have hdelay : vblankStartDelayCycles ≠ 0 := by decide
  unfold BlanksAlike
  by_cases hb : vblankStartDelayCycles ≤ b
  · rw [if_pos hb, blankAfter_pos_iff, blankAfter_pos_iff]
    exact iff_congr (by rw [Blanks, if_pos ⟨hdelay, hb⟩]) Iff.rfl
  · rw [if_neg hb, blankAfter, if_neg fun h => hb h.2]
    unfold blankAfter
    generalize vblankDurationCycles = duration
    split_ifs <;> omega

theorem guestView_iff (s : MacintoshIIVideoCard) (a b : Nat) :
    ((s.tick a).tick b).guestView = (s.tick (a + b)).guestView ↔
      a < s.vblCycles ∨ BlanksAlike s.vblankStartCycles s.vblankCycles a b := by
  rw [tick_eq, tick_eq, tick_eq]
  unfold guestView
  dsimp only
  rw [fall_fall (by decide), latch_latch]
  simp only [GuestView.mk.injEq, true_and, and_true]
  have hbit : ∀ m n : Nat, ((m != 0) = (n != 0)) ↔ (m ≠ 0 ↔ n ≠ 0) := fun m n => by
    rw [Bool.eq_iff_iff, bne_iff_ne, bne_iff_ne]
  rw [hbit]
  rcases Nat.lt_or_ge a s.vblCycles with ha | ha
  · rw [if_neg (Nat.not_le.2 ha), blankAfter_slice]
    exact iff_of_true Iff.rfl (Or.inl ha)
  · rw [if_pos ha, blanksAlike_iff]
    exact ⟨Or.inr, fun h => h.resolve_left (Nat.not_lt.2 ha)⟩

end MacintoshIIVideoCard

/-! ## The video of the Quadra -/

namespace DafbVideo

open Dafb

/-- The interrupts that are enabled are raised. -/
def raised (enable status : UInt8) : UInt8 :=
  let status := if enable &&& 0x01 ≠ 0 then status ||| 0x01 else status
  if enable &&& 0x04 ≠ 0 then status ||| 0x04 else status

theorem raised_raised (enable status : UInt8) :
    raised enable (raised enable status) = raised enable status := by
  have horder : ∀ x : UInt8, x ||| 0x01 ||| 0x04 ||| 0x01 ||| 0x04 = x ||| 0x01 ||| 0x04 := by
    intro x
    rw [UInt8.or_assoc (x ||| 0x01), UInt8.or_assoc (x ||| 0x01), UInt8.or_assoc x,
      UInt8.or_assoc x]
    rfl
  unfold raised
  dsimp only
  split_ifs
  · exact horder status
  · rw [UInt8.or_assoc, UInt8.or_self]
  · rw [UInt8.or_assoc, UInt8.or_self]
  · rfl

theorem setInterrupt_if (s : DafbVideo) (c : Prop) [Decidable c] (mask : UInt8) :
    (if c then s.setInterrupt mask true else s) =
      { s with interruptStatus := if c then s.interruptStatus ||| mask else s.interruptStatus } := by
  split_ifs <;> rfl

/-- The next frame begins. -/
def nextFrame (s : DafbVideo) : DafbVideo :=
  { s with
    vblCycles := defaultVblCycles
    interruptStatus := raised s.swatchInterruptEnable s.interruptStatus }

theorem tick_eq (s : DafbVideo) (cycles : Nat) :
    s.tick cycles =
      if s.swatchMode &&& 1 ≠ 0 then s
      else if s.vblCycles ≤ cycles then s.nextFrame
      else { s with vblCycles := s.vblCycles - cycles } := by
  have hraise : ∀ t : DafbVideo,
      (let u := if t.swatchInterruptEnable &&& 0x01 ≠ 0 then t.setInterrupt 0x01 true else t
       if u.swatchInterruptEnable &&& 0x04 ≠ 0 then u.setInterrupt 0x04 true else u) =
        { t with interruptStatus := raised t.swatchInterruptEnable t.interruptStatus } := by
    intro t
    dsimp only
    rw [setInterrupt_if, setInterrupt_if]
    rfl
  unfold tick
  by_cases hstopped : s.swatchMode &&& 1 ≠ 0
  · rw [if_pos hstopped, if_pos hstopped]
  · rw [if_neg hstopped, if_neg hstopped]
    by_cases hframe : s.vblCycles ≤ cycles
    · rw [if_pos hframe, if_pos hframe]
      exact hraise { s with vblCycles := defaultVblCycles }
    · rw [if_neg hframe, if_neg hframe]

theorem nextFrame_nextFrame (s : DafbVideo) : s.nextFrame.nextFrame = s.nextFrame := by
  unfold nextFrame
  dsimp only
  rw [raised_raised]

theorem sliced_iff (s : DafbVideo) (a b : Nat) :
    (s.tick a).tick b = s.tick (a + b) ↔
      s.swatchMode &&& 1 ≠ 0 ∨ a < s.vblCycles ∨ b = 0 ∨ defaultVblCycles ≤ b := by
  by_cases hstopped : s.swatchMode &&& 1 ≠ 0
  · have hrest : ∀ n, s.tick n = s := fun n => by rw [tick_eq, if_pos hstopped]
    rw [hrest, hrest, hrest]
    exact iff_of_true rfl (Or.inl hstopped)
  · rcases Nat.lt_or_ge a s.vblCycles with ha | ha
    · refine iff_of_true ?_ (Or.inr (Or.inl ha))
      rw [tick_eq s a, if_neg hstopped, if_neg (Nat.not_le.2 ha), tick_eq, if_neg hstopped, tick_eq,
        if_neg hstopped]
      dsimp only
      by_cases hb : s.vblCycles ≤ a + b
      · rw [if_pos hb, if_pos (by omega : s.vblCycles - a ≤ b)]
        rfl
      · rw [if_neg hb, if_neg (by omega : ¬ s.vblCycles - a ≤ b), Nat.sub_sub]
    · have hstopped' : ¬ s.nextFrame.swatchMode &&& 1 ≠ 0 := hstopped
      rw [tick_eq s a, if_neg hstopped, if_pos ha, tick_eq s (a + b), if_neg hstopped,
        if_pos (Nat.le_add_right_of_le ha), tick_eq, if_neg hstopped']
      by_cases hb : defaultVblCycles ≤ b
      · rw [if_pos (show s.nextFrame.vblCycles ≤ b from hb)]
        exact iff_of_true (nextFrame_nextFrame s) (Or.inr (Or.inr (Or.inr hb)))
      · rw [if_neg (show ¬ s.nextFrame.vblCycles ≤ b from hb)]
        constructor
        · intro h
          have hcycles : defaultVblCycles - b = defaultVblCycles := congrArg vblCycles h
          have hpos : 0 < defaultVblCycles := by decide
          exact Or.inr (Or.inr (Or.inl (by omega)))
        · intro h
          have hb0 : b = 0 := by
            rcases h with h | h | h | h
            · exact absurd h hstopped
            · exact absurd h (Nat.not_lt.2 ha)
            · exact h
            · exact absurd h hb
          rw [hb0]
          rfl

end DafbVideo

/-! ## The four together -/

/-- When the time of the cards can be sliced: always, but for what three of them lose at the end of
    a slice. -/
theorem blanking_slices_iff (c : CuteMacVideoCard) (d : AppleDisplayCard) (m : MacintoshIIVideoCard)
    (v : DafbVideo) (a b : Nat) (hcycles : a + b < UInt64.size)
    (hposition : d.frameCyclePosition < UInt64.size) :
    (c.tick a).tick b = c.tick (a + b) ∧
      ((d.tick a).tick b = d.tick (a + b) ↔ AppleDisplayCard.WrapsAlike d.frameCyclePosition a b) ∧
      (((m.tick a).tick b).guestView = (m.tick (a + b)).guestView ↔
        a < m.vblCycles ∨ MacintoshIIVideoCard.BlanksAlike m.vblankStartCycles m.vblankCycles a b) ∧
      ((v.tick a).tick b = v.tick (a + b) ↔
        v.swatchMode &&& 1 ≠ 0 ∨ a < v.vblCycles ∨ b = 0 ∨ Dafb.defaultVblCycles ≤ b) :=
  ⟨c.sliced a b, AppleDisplayCard.sliced_iff hposition hcycles, m.guestView_iff a b,
    v.sliced_iff a b⟩

theorem apple_tick_tick :
    ((AppleDisplayCard.powerOn 512 .hiResRgb).tick 261000).tick 1000 =
      (AppleDisplayCard.powerOn 512 .hiResRgb).tick 262000 := by
  have hslices := blanking_slices_iff (CuteMacVideoCard.make 640 480 8 4096 false true [])
    (AppleDisplayCard.powerOn 512 .hiResRgb) MacintoshIIVideoCard.powerOn
    (DafbVideo.powerOn .memc .vga) 261000 1000
  have hposition : (AppleDisplayCard.powerOn 512 .hiResRgb).frameCyclePosition < UInt64.size := by
    decide +kernel
  have hwraps : AppleDisplayCard.WrapsAlike
      (AppleDisplayCard.powerOn 512 .hiResRgb).frameCyclePosition 261000 1000 := by
    show (0 + 261000 + 1000) / UInt64.size = _
    decide +kernel
  exact (hslices (by decide) hposition).2.1.2 hwraps

/-- The Macintosh II card begins its blanking late behind a slice that ends with the frame; the
    video of the Quadra begins its next frame late behind one that ends after it. -/
theorem slices_lose_time :
    ((MacintoshIIVideoCard.powerOn.tick 261379).tick 500).guestView ≠
        (MacintoshIIVideoCard.powerOn.tick 261879).guestView ∧
      ((((DafbVideo.powerOn .memc .vga).writeRegister32 0x100 0).tick 1330013).tick 5).vblCycles ≠
        (((DafbVideo.powerOn .memc .vga).writeRegister32 0x100 0).tick 1330018).vblCycles := by
  decide +kernel

end CuteMac.Video
