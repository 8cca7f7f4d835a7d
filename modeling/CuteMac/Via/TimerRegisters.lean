/-
  The adapter's timers behind their registers.

  The latch and the counter of timer 1 are kept beside the bytes that the guest
  reads back, and timer 2 has no latch: what was written to its low byte is kept
  where its counter is shown.

  * `Tracked`: the adapter with the bytes that were last written;
  * `Follows`: the guest reads and starts what it wrote, and sees a running
    counter;
  * `Agrees`, `follows_iff`: the same as equations between the copies;
  * `Keeps`: the accesses that keep the copies equal;
  * `follows_iff_keeps`: the runs in which the timers follow.
-/
import CuteMac.Core.PhysicalMemoryMap
import CuteMac.Lib.Machine
import CuteMac.Via.Slices

namespace CuteMac.Via

open Machine (run Guarded)
open ShiftRegister (forall_byte)

/-! ## Words -/

/-- The word made of two bytes, as the latch is. -/
def word (high low : UInt8) : UInt16 := (high.toUInt16 <<< 8) ||| low.toUInt16

@[simp] theorem lowByte_word (high low : UInt8) : lowByte (word high low) = low := by
  have hlow := low.toNat_lt
  refine UInt8.toNat_inj.1 ?_
  rw [lowByte, UInt16.toNat_toUInt8, word, Core.toNat_word]
  omega

@[simp] theorem highByte_word (high low : UInt8) : highByte (word high low) = high := by
  have hhigh := high.toNat_lt
  have hlow := low.toNat_lt
  refine UInt8.toNat_inj.1 ?_
  rw [highByte, UInt16.toNat_toUInt8, UInt16.toNat_shiftRight, word, Core.toNat_word]
  simp [Nat.shiftRight_eq_div_pow]
  omega

theorem or_and_mask (x y m : UInt16) : (x ||| y) &&& m = (x &&& m) ||| (y &&& m) := by
  refine UInt16.toNat_inj.1 ?_
  simp only [UInt16.toNat_and, UInt16.toNat_or, Nat.and_or_distrib_right]

/-- The masks of a word are its two bytes. -/
theorem word_masks (high low value : UInt8) :
    (word high low &&& (0xff00 : UInt16)) ||| value.toUInt16 = word high value ∧
      (value.toUInt16 <<< 8) ||| (word high low &&& (0x00ff : UInt16)) = word value low := by
  have hhigh : (high.toUInt16 <<< 8) &&& (0xff00 : UInt16) = high.toUInt16 <<< 8 ∧
      (high.toUInt16 <<< 8) &&& (0x00ff : UInt16) = 0 :=
    forall_byte (P := fun high => (high.toUInt16 <<< 8) &&& (0xff00 : UInt16) =
      high.toUInt16 <<< 8 ∧ (high.toUInt16 <<< 8) &&& (0x00ff : UInt16) = 0)
      (by decide +kernel) high
  have hlow : low.toUInt16 &&& (0xff00 : UInt16) = 0 ∧
      low.toUInt16 &&& (0x00ff : UInt16) = low.toUInt16 :=
    forall_byte (P := fun low => low.toUInt16 &&& (0xff00 : UInt16) = 0 ∧
      low.toUInt16 &&& (0x00ff : UInt16) = low.toUInt16) (by decide +kernel) low
  rw [word, or_and_mask, or_and_mask, hhigh.1, hhigh.2, hlow.1, hlow.2, UInt16.or_zero,
    UInt16.zero_or]
  exact ⟨rfl, rfl⟩

/-- The count that a latch stands for. -/
def countOf (latch : UInt16) : Int := if latch = 0 then 0x10000 else latch.toNat

theorem ofInt_countOf (latch : UInt16) : UInt16.ofInt (countOf latch) = latch := by
  by_cases h : latch = 0
  · rw [countOf, if_pos h, h]
    decide
  · rw [countOf, if_neg h]
    refine UInt16.toNat_inj.1 ?_
    have hlt := latch.toNat_lt
    simp [UInt16.ofInt, UInt16.toNat_ofNat']
    omega

theorem Timer1.start_counter (t : Timer1) : t.start.counter = countOf t.latch := by
  show (t.reload.val : Int) = countOf t.latch
  unfold reload countOf
  by_cases h : t.latch = 0
  · rw [dif_pos h, if_pos h]
    rfl
  · rw [dif_neg h, if_neg h]

/-! ## Accesses -/

/-- What the guest does to the adapter, and the clock. -/
inductive Access where
  | read (index : UInt8)
  | write (index value : UInt8)
  | tick (cycles : Int)
  deriving DecidableEq, Repr

/-- The bytes last written to the latch of timer 1, through either address, and to the low
    byte of timer 2. -/
structure Written where
  latchLow : UInt8 := 0
  latchHigh : UInt8 := 0
  timer2Low : UInt8 := 0
  deriving DecidableEq, Repr

def Written.write (w : Written) (value : UInt8) : Register → Written
  | .timer1CounterLow | .timer1LatchLow => { w with latchLow := value }
  | .timer1CounterHigh | .timer1LatchHigh => { w with latchHigh := value }
  | .timer2CounterLow => { w with timer2Low := value }
  | _ => w

structure Tracked where
  via : Via6522
  written : Written := {}

namespace Tracked

def apply (t : Tracked) : Access → Tracked
  | .read index => { t with via := (t.via.readRegister index).2 }
  | .write index value =>
    { via := t.via.writeRegister index value
      written := t.written.write value (register index) }
  | .tick cycles => { t with via := t.via.tick cycles }

/-- The guest reads back what it wrote to the latch of timer 1, a start counts from what was
    written, and a running timer shows its count. -/
structure Follows (t : Tracked) : Prop where
  latchLow : ∀ index, register index = .timer1LatchLow →
    (t.via.readRegister index).1 = t.written.latchLow
  latchHigh : ∀ index, register index = .timer1LatchHigh →
    (t.via.readRegister index).1 = t.written.latchHigh
  timer1Start : ∀ index value, register index = .timer1CounterHigh →
    (t.via.writeRegister index value).timer1.counter = countOf (word value t.written.latchLow)
  timer2Start : ∀ index value, register index = .timer2CounterHigh →
    (t.via.writeRegister index value).timer2.counter = (word value t.written.timer2Low).toNat
  timer1Low : t.via.timer1.running = true → ∀ index, register index = .timer1CounterLow →
    (t.via.readRegister index).1 = lowByte (UInt16.ofInt t.via.timer1.counter)
  timer1High : t.via.timer1.running = true → ∀ index, register index = .timer1CounterHigh →
    (t.via.readRegister index).1 = highByte (UInt16.ofInt t.via.timer1.counter)
  timer2Low : t.via.timer2.running = true → ∀ index, register index = .timer2CounterLow →
    (t.via.readRegister index).1 = lowByte (UInt16.ofInt t.via.timer2.counter)
  timer2High : t.via.timer2.running = true → ∀ index, register index = .timer2CounterHigh →
    (t.via.readRegister index).1 = highByte (UInt16.ofInt t.via.timer2.counter)

/-- The latch itself is what was written to it. -/
def Latched (t : Tracked) : Prop :=
  t.via.timer1.latch = word t.written.latchHigh t.written.latchLow

end Tracked

/-! ## The copies -/

/-- While the timer runs, its counter registers hold its count. -/
def Timer1.Shows (t : Timer1) : Prop :=
  t.running = true →
    t.counterLow = lowByte (UInt16.ofInt t.counter) ∧
      t.counterHigh = highByte (UInt16.ofInt t.counter)

def Timer2.Shows (t : Timer2) : Prop :=
  t.running = true →
    t.counterLow = lowByte (UInt16.ofInt t.counter) ∧
      t.counterHigh = highByte (UInt16.ofInt t.counter)

namespace Tracked

/-- The copies of what was written and of what counts are equal. -/
structure Agrees (t : Tracked) : Prop where
  latchLow : t.via.timer1.latchLow = t.written.latchLow
  latchHigh : t.via.timer1.latchHigh = t.written.latchHigh
  timer2Low : t.via.timer2.counterLow = t.written.timer2Low
  timer1 : t.via.timer1.Shows
  timer2 : t.via.timer2.Shows

/-- The writes that keep the copies equal write to one copy what the others hold. -/
def KeepsWrite (t : Tracked) (value : UInt8) : Register → Prop
  | .timer1CounterLow =>
    value = t.via.timer1.latchLow ∧
      (t.via.timer1.running = true → value = lowByte (UInt16.ofInt t.via.timer1.counter))
  | .timer1CounterHigh =>
    value = t.via.timer1.latchHigh ∧ t.via.timer1.counterLow = lowByte t.via.timer1.latch
  | .timer2CounterLow =>
    t.via.timer2.running = true → value = lowByte (UInt16.ofInt t.via.timer2.counter)
  | _ => True

/-- The accesses that keep the copies equal.  While timer 2 runs, the clock leaves its low
    byte alone. -/
def Keeps (t : Tracked) : Access → Prop
  | .read _ => True
  | .write index value => t.KeepsWrite value (register index)
  | .tick cycles =>
    0 < cycles → t.via.timer2.running = true →
      lowByte (UInt16.ofInt (max 0 (t.via.timer2.counter - cycles))) = t.via.timer2.counterLow

end Tracked

/-! ## The adapter's registers -/

namespace Via6522

section
variable (s : Via6522) (index : UInt8)

theorem read_latchLow (h : register index = .timer1LatchLow) :
    (s.readRegister index).1 = s.timer1.latchLow := by
  unfold readRegister
  rw [h]

theorem read_latchHigh (h : register index = .timer1LatchHigh) :
    (s.readRegister index).1 = s.timer1.latchHigh := by
  unfold readRegister
  rw [h]

theorem read_timer1Low (h : register index = .timer1CounterLow) (hr : s.timer1.running = true) :
    (s.readRegister index).1 = s.timer1.counterLow := by
  unfold readRegister
  rw [h]
  show s.timer1.readLow = _
  rw [Timer1.readLow, hr]
  rfl

theorem read_timer1High (h : register index = .timer1CounterHigh) (hr : s.timer1.running = true) :
    (s.readRegister index).1 = s.timer1.counterHigh := by
  unfold readRegister
  rw [h]
  show s.timer1.readHigh = _
  rw [Timer1.readHigh, hr]
  rfl

theorem read_timer2Low (h : register index = .timer2CounterLow) (hr : s.timer2.running = true) :
    (s.readRegister index).1 = s.timer2.counterLow := by
  unfold readRegister
  rw [h]
  show s.timer2.readLow s.auxiliaryControl = _
  rw [Timer2.readLow, hr]
  rfl

theorem read_timer2High (h : register index = .timer2CounterHigh) (hr : s.timer2.running = true) :
    (s.readRegister index).1 = s.timer2.counterHigh := by
  unfold readRegister
  rw [h]
  show s.timer2.readHigh s.auxiliaryControl = _
  rw [Timer2.readHigh, hr]
  rfl

/-- A read leaves the timers alone. -/
theorem readRegister_timers :
    (s.readRegister index).2.timer1 = s.timer1 ∧ (s.readRegister index).2.timer2 = s.timer2 := by
  unfold readRegister
  cases register index with
  | registerB =>
    dsimp only
    split_ifs <;> exact ⟨rfl, rfl⟩
  | shiftRegister =>
    dsimp only
    unfold call
    split_ifs <;> exact ⟨rfl, rfl⟩
  | _ => exact ⟨rfl, rfl⟩

/-- The timers after a write. -/
theorem writeRegister_timer2 (value : UInt8) :
    (s.writeRegister index value).timer2 =
      match register index with
      | .timer2CounterLow => { s.timer2 with counterLow := value }
      | .timer2CounterHigh => { s.timer2 with counterHigh := value }.start
      | _ => s.timer2 := by
  unfold writeRegister
  cases register index with
  | interruptEnable =>
    dsimp only
    split_ifs <;> rfl
  | timer1CounterHigh =>
    dsimp only
    unfold startTimer1 callPortBChanged call
    dsimp only
    split_ifs <;> rfl
  | shiftRegister =>
    dsimp only
    unfold writeShiftRegister call
    dsimp only
    split_ifs <;> rfl
  | registerAHandshake | registerA | dataDirectionA =>
    dsimp only
    unfold notifyPortAChanged call
    split_ifs <;> rfl
  | registerB | dataDirectionB =>
    dsimp only
    unfold callPortBChanged call
    split_ifs <;> rfl
  | _ => rfl

/-- A start drives PB7 low, or leaves it alone. -/
theorem startTimer1_timer1 :
    ∃ pb7, s.startTimer1.timer1 = { s.timer1.start with pb7 := pb7 } := by
  unfold startTimer1 callPortBChanged call
  dsimp only
  split_ifs <;> exact ⟨_, rfl⟩

theorem writeRegister_timer1 (value : UInt8) : ∃ pb7,
    (s.writeRegister index value).timer1 =
      match register index with
      | .timer1CounterLow => { s.timer1.setLatchLow value with counterLow := value, pb7 := pb7 }
      | .timer1CounterHigh =>
        { { s.timer1.setLatchHigh value with counterHigh := value }.start with pb7 := pb7 }
      | .timer1LatchLow => { s.timer1.setLatchLow value with latchLow := value, pb7 := pb7 }
      | .timer1LatchHigh => { s.timer1.setLatchHigh value with latchHigh := value, pb7 := pb7 }
      | _ => { s.timer1 with pb7 := pb7 } := by
  unfold writeRegister
  cases register index with
  | interruptEnable =>
    dsimp only
    split_ifs <;> exact ⟨_, rfl⟩
  | timer1CounterHigh =>
    exact startTimer1_timer1
      { s with timer1 := { s.timer1.setLatchHigh value with counterHigh := value } }
  | shiftRegister =>
    dsimp only
    unfold writeShiftRegister call
    dsimp only
    split_ifs <;> exact ⟨_, rfl⟩
  | registerAHandshake | registerA | dataDirectionA =>
    dsimp only
    unfold notifyPortAChanged call
    split_ifs <;> exact ⟨_, rfl⟩
  | registerB | dataDirectionB =>
    dsimp only
    unfold callPortBChanged call
    split_ifs <;> exact ⟨_, rfl⟩
  | _ => exact ⟨_, rfl⟩

/-- The timers after a tick. -/
theorem tick_timers {cycles : Int} (h : 0 < cycles) :
    (s.tick cycles).timer1 = (s.timer1.tick s.auxiliaryControl cycles).1 ∧
      (s.tick cycles).timer2 = (s.timer2.tick s.auxiliaryControl cycles).1 := by
  obtain ⟨calls, hc⟩ := tick_eq_ticked s h
  rw [hc]
  exact ⟨rfl, rfl⟩

end

end Via6522

/-! ## The clock -/

theorem Timer1.shows_showCounter {t : Timer1} (h : 0 < t.counter) : t.showCounter.Shows := by
  intro _
  have hmax : max 0 t.counter = t.counter := by omega
  unfold showCounter
  rw [hmax]
  exact ⟨rfl, rfl⟩

theorem Timer1.shows_of_stopped {t : Timer1} (h : t.running = false) : t.Shows := by
  intro hrunning
  rw [h] at hrunning
  cases hrunning

/-- The clock shows the count of timer 1, if the timer still runs. -/
theorem Timer1.tick_shows (t : Timer1) (acr : UInt8) (cycles : Int) :
    (t.tick acr cycles).1.Shows := by
  rcases Bool.eq_false_or_eq_true t.running with hr | hr
  · by_cases hc : cycles < t.counter
    · rw [tick_counting hr acr hc]
      refine shows_showCounter ?_
      show 0 < t.counter - cycles
      omega
    · by_cases hacr : acr &&& 0x40 = 0
      · exact shows_of_stopped (tick_of_stops ⟨hr, hacr, by omega⟩).1
      · rw [(tick_freeRun hr hacr cycles).1]
        exact shows_showCounter (Countdown.rearm_fst_pos _ _)
  · rw [tick_stopped hr]
    exact shows_of_stopped hr

/-- The clock leaves the latch of timer 1 alone. -/
theorem Timer1.tick_latch (t : Timer1) (acr : UInt8) (cycles : Int) :
    (t.tick acr cycles).1.latch = t.latch ∧ (t.tick acr cycles).1.latchLow = t.latchLow ∧
      (t.tick acr cycles).1.latchHigh = t.latchHigh := by
  unfold tick expire showCounter
  dsimp only
  split_ifs <;> exact ⟨rfl, rfl, rfl⟩

theorem Timer2.shows_of_stopped {t : Timer2} (h : t.running = false) : t.Shows := by
  intro hrunning
  rw [h] at hrunning
  cases hrunning

theorem Timer2.tick_shows (t : Timer2) (acr : UInt8) (cycles : Int) :
    (t.tick acr cycles).1.Shows := by
  rcases Bool.eq_false_or_eq_true t.running with hr | hr
  · by_cases hc : cycles < t.counter
    · rw [tick_counting hr acr hc]
      exact fun _ => ⟨rfl, rfl⟩
    · rw [tick_expired hr acr (by omega)]
      exact shows_of_stopped rfl
  · by_cases hacr : acr &&& 0x20 = 0
    · rw [tick_free hr hacr]
      exact shows_of_stopped hr
    · rw [tick_stopped hr hacr]
      exact shows_of_stopped hr

/-- The low byte that timer 2 holds after a tick. -/
theorem Timer2.tick_counterLow (t : Timer2) (acr : UInt8) (cycles : Int) :
    (t.tick acr cycles).1.counterLow =
      if t.running then lowByte (UInt16.ofInt (max 0 (t.counter - cycles))) else t.counterLow := by
  rcases Bool.eq_false_or_eq_true t.running with hr | hr
  · rw [hr, if_pos rfl]
    by_cases hc : cycles < t.counter
    · rw [tick_counting hr acr hc, show max 0 (t.counter - cycles) = t.counter - cycles by omega]
    · rw [tick_expired hr acr (by omega), show max 0 (t.counter - cycles) = 0 by omega]
      rfl
  · rw [hr, if_neg (by decide)]
    by_cases hacr : acr &&& 0x20 = 0
    · rw [tick_free hr hacr]
    · rw [tick_stopped hr hacr]

/-! ## Runs -/

namespace Tracked

theorem latched_apply (t : Tracked) (a : Access) (h : t.Latched) : (t.apply a).Latched := by
  unfold Latched at h ⊢
  cases a with
  | read index =>
    show (t.via.readRegister index).2.timer1.latch = _
    rw [(t.via.readRegister_timers index).1]
    exact h
  | write index value =>
    obtain ⟨pb7, hwrite⟩ := t.via.writeRegister_timer1 index value
    show (t.via.writeRegister index value).timer1.latch = _
    rw [hwrite]
    show _ = word (t.written.write value (register index)).latchHigh
      (t.written.write value (register index)).latchLow
    have hmasks := word_masks t.written.latchHigh t.written.latchLow value
    cases register index with
    | timer1CounterLow | timer1LatchLow =>
      show (t.via.timer1.latch &&& 0xff00) ||| value.toUInt16 = _
      rw [h]
      exact hmasks.1
    | timer1CounterHigh | timer1LatchHigh =>
      show (value.toUInt16 <<< 8) ||| (t.via.timer1.latch &&& 0x00ff) = _
      rw [h]
      exact hmasks.2
    | _ => exact h
  | tick cycles =>
    show (t.via.tick cycles).timer1.latch = _
    by_cases hc : 0 < cycles
    · rw [(t.via.tick_timers hc).1, (t.via.timer1.tick_latch _ _).1]
      exact h
    · have htick : t.via.tick cycles = t.via := if_pos (by omega)
      rw [htick]
      exact h

/-- What the guest sees is right exactly when the copies are equal. -/
theorem follows_iff {t : Tracked} (h : t.Latched) : t.Follows ↔ t.Agrees := by
  constructor
  · intro hf
    refine ⟨?_, ?_, ?_, fun hr => ⟨?_, ?_⟩, fun hr => ⟨?_, ?_⟩⟩
    · exact (t.via.read_latchLow 6 rfl).symm.trans (hf.latchLow 6 rfl)
    · exact (t.via.read_latchHigh 7 rfl).symm.trans (hf.latchHigh 7 rfl)
    · have hstart := hf.timer2Start 9 0 rfl
      rw [t.via.writeRegister_timer2] at hstart
      have hwords : (word 0 t.via.timer2.counterLow).toNat = (word 0 t.written.timer2Low).toNat :=
        Int.ofNat_inj.mp hstart
      have hlow := congrArg lowByte (UInt16.toNat_inj.1 hwords)
      rwa [lowByte_word, lowByte_word] at hlow
    · exact (t.via.read_timer1Low 4 rfl hr).symm.trans (hf.timer1Low hr 4 rfl)
    · exact (t.via.read_timer1High 5 rfl hr).symm.trans (hf.timer1High hr 5 rfl)
    · exact (t.via.read_timer2Low 8 rfl hr).symm.trans (hf.timer2Low hr 8 rfl)
    · exact (t.via.read_timer2High 9 rfl hr).symm.trans (hf.timer2High hr 9 rfl)
  · intro ha
    refine ⟨?_, ?_, ?_, ?_, ?_, ?_, ?_, ?_⟩
    · intro index hindex
      rw [t.via.read_latchLow index hindex, ha.latchLow]
    · intro index hindex
      rw [t.via.read_latchHigh index hindex, ha.latchHigh]
    · intro index value hindex
      obtain ⟨pb7, hwrite⟩ := t.via.writeRegister_timer1 index value
      rw [hwrite, hindex]
      show (Timer1.start { t.via.timer1.setLatchHigh value with counterHigh := value }).counter = _
      rw [Timer1.start_counter]
      show countOf ((value.toUInt16 <<< 8) ||| (t.via.timer1.latch &&& 0x00ff)) = _
      rw [h, (word_masks t.written.latchHigh t.written.latchLow value).2]
    · intro index value hindex
      rw [t.via.writeRegister_timer2, hindex, ← ha.timer2Low]
      rfl
    · intro hr index hindex
      rw [t.via.read_timer1Low index hindex hr]
      exact (ha.timer1 hr).1
    · intro hr index hindex
      rw [t.via.read_timer1High index hindex hr]
      exact (ha.timer1 hr).2
    · intro hr index hindex
      rw [t.via.read_timer2Low index hindex hr]
      exact (ha.timer2 hr).1
    · intro hr index hindex
      rw [t.via.read_timer2High index hindex hr]
      exact (ha.timer2 hr).2

theorem agrees_iff {t : Tracked} {timer1 : Timer1} {timer2 : Timer2} (h1 : t.via.timer1 = timer1)
    (h2 : t.via.timer2 = timer2) :
    t.Agrees ↔ timer1.latchLow = t.written.latchLow ∧ timer1.latchHigh = t.written.latchHigh ∧
      timer2.counterLow = t.written.timer2Low ∧ timer1.Shows ∧ timer2.Shows := by
  subst h1 h2
  constructor
  · intro h
    exact ⟨h.latchLow, h.latchHigh, h.timer2Low, h.timer1, h.timer2⟩
  · rintro ⟨hl, hh, h2, hs1, hs2⟩
    exact ⟨hl, hh, h2, hs1, hs2⟩

/-- A start of timer 1 shows its count if the low byte shown is that of the latch. -/
theorem start_shows_iff (t : Timer1) (value : UInt8) (pb7 : Bool) :
    Timer1.Shows { Timer1.start { t.setLatchHigh value with counterHigh := value } with
      pb7 := pb7 } ↔ t.counterLow = lowByte t.latch := by
  have hlatch : (t.setLatchHigh value).latch = word value (lowByte t.latch) := by
    have hword : word (highByte t.latch) (lowByte t.latch) = t.latch :=
      bytes_inj (lowByte_word _ _) (highByte_word _ _)
    have hmasks := (word_masks (highByte t.latch) (lowByte t.latch) value).2
    rwa [hword] at hmasks
  have hcounter : (Timer1.start { t.setLatchHigh value with counterHigh := value }).counter =
      countOf (word value (lowByte t.latch)) := by
    rw [Timer1.start_counter, ← hlatch]
  unfold Timer1.Shows
  dsimp only
  rw [hcounter, ofInt_countOf, lowByte_word, highByte_word]
  constructor
  · intro h
    exact (h rfl).1
  · intro h _
    exact ⟨h, rfl⟩

theorem agrees_write_iff {t : Tracked} (ha : t.Agrees) (index value : UInt8) :
    (t.apply (.write index value)).Agrees ↔ t.Keeps (.write index value) := by
  obtain ⟨pb7, h1⟩ := t.via.writeRegister_timer1 index value
  have h2 := t.via.writeRegister_timer2 index value
  have hwritten : (t.apply (.write index value)).written =
    t.written.write value (register index) := rfl
  rw [agrees_iff (t := t.apply (.write index value)) h1 h2, hwritten]
  show _ ↔ t.KeepsWrite value (register index)
  cases register index with
  | timer1CounterLow =>
    constructor
    · rintro ⟨hl, -, -, hs, -⟩
      exact ⟨hl.symm, fun hr => (hs hr).1⟩
    · rintro ⟨hl, hs⟩
      refine ⟨hl.symm, ha.latchHigh, ha.timer2Low, fun hr => ?_, ha.timer2⟩
      exact ⟨hs hr, (ha.timer1 hr).2⟩
  | timer1CounterHigh =>
    constructor
    · rintro ⟨-, hh, -, hs, -⟩
      exact ⟨hh.symm, (start_shows_iff _ _ _).mp hs⟩
    · rintro ⟨hh, hs⟩
      exact ⟨ha.latchLow, hh.symm, ha.timer2Low, (start_shows_iff _ _ _).mpr hs, ha.timer2⟩
  | timer1LatchLow =>
    exact iff_of_true ⟨rfl, ha.latchHigh, ha.timer2Low, ha.timer1, ha.timer2⟩ trivial
  | timer1LatchHigh =>
    exact iff_of_true ⟨ha.latchLow, rfl, ha.timer2Low, ha.timer1, ha.timer2⟩ trivial
  | timer2CounterLow =>
    constructor
    · rintro ⟨-, -, -, -, hs⟩ hr
      exact (hs hr).1
    · intro hs
      exact ⟨ha.latchLow, ha.latchHigh, rfl, ha.timer1, fun hr => ⟨hs hr, (ha.timer2 hr).2⟩⟩
  | timer2CounterHigh =>
    refine iff_of_true ⟨ha.latchLow, ha.latchHigh, ha.timer2Low, ha.timer1, fun _ => ?_⟩ trivial
    -- the count is the word that the two registers show
    have hofInt : UInt16.ofInt (word value t.via.timer2.counterLow).toNat =
        word value t.via.timer2.counterLow := by
      refine UInt16.toNat_inj.1 ?_
      have hlt := (word value t.via.timer2.counterLow).toNat_lt
      simp [UInt16.ofInt, UInt16.toNat_ofNat']
      omega
    show t.via.timer2.counterLow =
        lowByte (UInt16.ofInt (word value t.via.timer2.counterLow).toNat) ∧
      value = highByte (UInt16.ofInt (word value t.via.timer2.counterLow).toNat)
    rw [hofInt, lowByte_word, highByte_word]
    exact ⟨rfl, rfl⟩
  | _ =>
    exact iff_of_true ⟨ha.latchLow, ha.latchHigh, ha.timer2Low, ha.timer1, ha.timer2⟩ trivial

theorem agrees_tick_iff {t : Tracked} (ha : t.Agrees) (cycles : Int) :
    (t.apply (.tick cycles)).Agrees ↔ t.Keeps (.tick cycles) := by
  by_cases hc : 0 < cycles
  · obtain ⟨h1, h2⟩ := t.via.tick_timers hc
    obtain ⟨-, hl, hh⟩ := t.via.timer1.tick_latch t.via.auxiliaryControl cycles
    have hlow := t.via.timer2.tick_counterLow t.via.auxiliaryControl cycles
    rw [agrees_iff (t := t.apply (.tick cycles)) h1 h2, hl, hh, hlow]
    have hwritten : (t.apply (.tick cycles)).written = t.written := rfl
    rw [hwritten, ← ha.timer2Low]
    constructor
    · rintro ⟨-, -, hlow, -, -⟩ - hr
      rwa [if_pos hr] at hlow
    · intro hlow
      refine ⟨ha.latchLow, ha.latchHigh, ?_, Timer1.tick_shows _ _ _, Timer2.tick_shows _ _ _⟩
      by_cases hr : t.via.timer2.running = true
      · rw [if_pos hr]
        exact hlow hc hr
      · rw [if_neg hr]
  · have htick : t.via.tick cycles = t.via := if_pos (by omega)
    have happly : t.apply (.tick cycles) = t := by
      show { t with via := t.via.tick cycles } = t
      rw [htick]
    rw [happly]
    exact iff_of_true ha fun hpos => absurd hpos hc

/-- What an access does to copies that are equal. -/
theorem agrees_apply_iff {t : Tracked} (ha : t.Agrees) (a : Access) :
    (t.apply a).Agrees ↔ t.Keeps a := by
  cases a with
  | read index =>
    obtain ⟨h1, h2⟩ := t.via.readRegister_timers index
    refine iff_of_true ((agrees_iff (t := t.apply (.read index)) h1 h2).mpr ?_) trivial
    exact ⟨ha.latchLow, ha.latchHigh, ha.timer2Low, ha.timer1, ha.timer2⟩
  | write index value => exact agrees_write_iff ha index value
  | tick cycles => exact agrees_tick_iff ha cycles

/-- The adapter after a reset. -/
def start (s : Via6522) : Tracked := { via := s.reset }

theorem reset_timers (s : Via6522) : s.reset.timer1 = {} ∧ s.reset.timer2 = {} := by
  unfold Via6522.reset Via6522.notifyPortAChanged Via6522.callPortBChanged Via6522.call
  dsimp only
  split_ifs <;> exact ⟨rfl, rfl⟩

theorem latched_start (s : Via6522) : (start s).Latched := by
  show s.reset.timer1.latch = _
  rw [(reset_timers s).1]
  exact (by decide : (0 : UInt16) = word 0 0)

theorem agrees_start (s : Via6522) : (start s).Agrees := by
  obtain ⟨h1, h2⟩ := reset_timers s
  refine (agrees_iff (t := start s) h1 h2).mpr ⟨rfl, rfl, rfl, ?_, ?_⟩
  · exact Timer1.shows_of_stopped rfl
  · exact Timer2.shows_of_stopped rfl

/-- **The timers follow their registers** in every state of a run exactly when every access
    of the run keeps the copies equal. -/
theorem follows_iff_keeps (s : Via6522) (accesses : List Access) :
    (∀ before, before <+: accesses → (run apply (start s) before).Follows) ↔
      Guarded apply Keeps (start s) accesses := by
  have hkeeps := Machine.prefixes_inv_iff_guarded (I := Agrees)
    (fun t a ha => agrees_apply_iff ha a) (agrees_start s) accesses
  refine Iff.trans (forall_congr' fun before => imp_congr_right fun _ => ?_) hkeeps
  exact follows_iff (Machine.run_inv latched_apply (latched_start s) before)

/-- The byte written to the low address of timer 1's counter is not read back from its
    latch; a start of timer 1 does not show its count; and a second start of timer 2 counts
    from what the first one left. -/
theorem timers_do_not_follow :
    ¬ (run apply (start {}) [.write 4 0x34]).Follows ∧
      ¬ (run apply (start {}) [.write 6 0x34, .write 7 0x12, .write 5 0x12]).Follows ∧
      ¬ (run apply (start {}) [.write 8 0x10, .write 9 0x01, .tick 5]).Follows := by
  refine ⟨fun h => ?_, fun h => ?_, fun h => ?_⟩
  · exact absurd (h.latchLow 6 rfl) (by decide)
  · exact absurd (h.timer1Low rfl 4 rfl) (by decide)
  · exact absurd (h.timer2Start 9 0x01 rfl) (by decide)

end Tracked

end CuteMac.Via
