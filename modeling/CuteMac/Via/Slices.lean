/-
  The adapter's clock in slices.

  * `GuestView`: the flags, the counters, PB7, the CA1 schedule and the keyboard;
  * `AutomaticCa1.tick_slice`, `Keyboard.tick_slice`: the blanking line and the
    shift register may be ticked in slices;
  * `Timer1.tick_slice`, `Timer2.tick_slice`: so may a timer, unless it stops in
    the first slice: what is left of that slice is dropped, while the second
    slice moves its free-running counter;
  * `tick_tick_iff`: the two slices are one tick exactly when no timer stops in
    the first, or the second is a whole turn of the free-running counter.
-/
import CuteMac.Lib.ShiftRegister
import CuteMac.Via.Via6522

namespace CuteMac.Via

open Countdown ShiftRegister

/-! ## Words -/

theorem bytes_inj {x y : UInt16} (hl : lowByte x = lowByte y) (hh : highByte x = highByte y) :
    x = y := by
  have hl' := congrArg UInt8.toNat hl
  have hh' := congrArg UInt8.toNat hh
  simp only [lowByte, highByte, UInt16.toNat_toUInt8, UInt16.toNat_shiftRight] at hl' hh'
  have hx := x.toNat_lt
  have hy := y.toNat_lt
  refine UInt16.toNat_inj.1 ?_
  simp [Nat.shiftRight_eq_div_pow] at hl' hh'
  omega

theorem ofInt_eq_zero_iff (b : Int) : UInt16.ofInt b = 0 ↔ (65536 : Int) ∣ b := by
  rw [← UInt16.toNat_inj]
  simp [UInt16.ofInt, UInt16.toNat_ofNat']
  omega

theorem sub_ofInt_add (x : UInt16) (a b : Int) :
    x - UInt16.ofInt (a + b) = x - UInt16.ofInt a - UInt16.ofInt b := by
  rw [UInt16.ofInt_add, UInt16.sub_eq_add_neg, UInt16.neg_add, UInt16.sub_eq_add_neg (-_),
    ← UInt16.add_assoc, ← UInt16.sub_eq_add_neg, ← UInt16.sub_eq_add_neg]

/-! ## The parts -/

theorem ite_or_ite (f : UInt8) (j k : Nat) :
    ((if 0 < j then f else 0) ||| (if 0 < k then f else 0)) = if 0 < j + k then f else 0 := by
  by_cases hj : 0 < j <;> by_cases hk : 0 < k
  · rw [if_pos hj, if_pos hk, if_pos (by omega), UInt8.or_self]
  · rw [if_pos hj, if_neg hk, if_pos (by omega), UInt8.or_zero]
  · rw [if_neg hj, if_pos hk, if_pos (by omega), UInt8.zero_or]
  · rw [if_neg hj, if_neg hk, if_neg (by omega), UInt8.or_zero]

theorem AutomaticCa1.tick_slice (c : AutomaticCa1) (a : Int) {b : Int} (hb : 0 ≤ b) :
    c.tick (a + b) = (((c.tick a).1.tick b).1, (c.tick a).2 ||| ((c.tick a).1.tick b).2) := by
  by_cases h : 0 < c.period
  · have hs : c.vblCycles - (a + b) = c.vblCycles - a - b := by omega
    simp only [tick, dif_pos h, hs, rearm_slice ⟨c.period, h⟩ (c.vblCycles - a) hb, ite_or_ite]
  · simp [tick, dif_neg h]

theorem Keyboard.tick_slice (k : Keyboard) (acr : UInt8) (a : Int) {b : Int} (hb : 0 < b) :
    k.tick acr (a + b) =
      (((k.tick acr a).1.tick acr b).1, (k.tick acr a).2 ||| ((k.tick acr a).1.tick acr b).2) := by
  by_cases hk : 0 < k.shiftCycles
  · by_cases hka : k.shiftCycles ≤ a
    · -- the reception ends in the first slice, and the second finds nothing to do
      have hab : k.shiftCycles ≤ a + b := by omega
      rw [tick_finished hk hka, tick_finished hk hab, tick_idle (by simp)]
      simp
    · have hc : k.tick acr a = ({ k with shiftCycles := k.shiftCycles - a }, 0) :=
        tick_counting hk (by omega)
      have hk' : 0 < ({ k with shiftCycles := k.shiftCycles - a } : Keyboard).shiftCycles := by
        show 0 < k.shiftCycles - a; omega
      rw [hc]
      by_cases hkb : k.shiftCycles ≤ a + b
      · rw [tick_finished hk hkb, tick_finished hk' (by show k.shiftCycles - a ≤ b; omega)]
        simp [finish]
      · have hb' : b < k.shiftCycles - a := by omega
        have hab : a + b < k.shiftCycles := by omega
        have hs : k.shiftCycles - a - b = k.shiftCycles - (a + b) := by omega
        rw [tick_counting hk hab, tick_counting hk' hb']
        simp [hs]
  · have hi : ∀ c, k.tick acr c = (k, 0) := fun c => tick_idle (by omega)
    simp [hi]

namespace Timer1

/-- The timer runs out of its one shot within `a` cycles. -/
def StopsWithin (t : Timer1) (acr : UInt8) (a : Int) : Prop :=
  t.running = true ∧ acr &&& 0x40 = 0 ∧ t.counter ≤ a

theorem tick_stopped {t : Timer1} (h : t.running = false) (acr : UInt8) (a : Int) :
    t.tick acr a = ({ t with freeCounter := t.freeCounter - UInt16.ofInt a }, 0, false) := by
  simp [tick, h]

theorem tick_counting {t : Timer1} (h : t.running = true) (acr : UInt8) {a : Int}
    (ha : a < t.counter) :
    t.tick acr a = ({ t with counter := t.counter - a }.showCounter, 0, false) := by
  rw [tick, if_pos h]
  simp only [if_neg (show ¬ t.counter - a ≤ 0 by omega)]

theorem tick_expired {t : Timer1} (h : t.running = true) (acr : UInt8) {a : Int}
    (ha : t.counter ≤ a) :
    t.tick acr a =
      (({ t with counter := t.counter - a }.expire acr).1.showCounter, timer1InterruptBit,
        ({ t with counter := t.counter - a }.expire acr).2) := by
  rw [tick, if_pos h]
  simp only [if_pos (show t.counter - a ≤ 0 by omega)]

/-- The timer after the reloads that led to a counter. -/
def reloaded (t : Timer1) (acr : UInt8) (counter : Int × Nat) : Timer1 :=
  { t with
    counter := counter.1
    pb7 := t.pb7 ^^ (acr &&& 0x80 != 0 && counter.2 % 2 == 1) }.showCounter

theorem reloaded_reloaded (t : Timer1) (acr : UInt8) (c c' : Int × Nat) :
    (t.reloaded acr c).reloaded acr c' = t.reloaded acr (c'.1, c.2 + c'.2) := by
  have hodd : ∀ p q : Bool, ((p ^^ (q && c.2 % 2 == 1)) ^^ (q && c'.2 % 2 == 1)) =
      (p ^^ (q && (c.2 + c'.2) % 2 == 1)) := by
    intro p q
    rcases Nat.mod_two_eq_zero_or_one c.2 with hj | hj <;>
      rcases Nat.mod_two_eq_zero_or_one c'.2 with hk | hk <;>
      cases q <;> simp [Nat.add_mod, hj, hk]
  simp only [reloaded, showCounter, hodd]

/-- A free run, whether the timer runs out in it or not. -/
theorem tick_freeRun {t : Timer1} (h : t.running = true) {acr : UInt8} (hacr : acr &&& 0x40 ≠ 0)
    (a : Int) :
    (t.tick acr a).1 = t.reloaded acr (rearm t.reload (t.counter - a)) ∧
      (t.tick acr a).2.1 =
        if 0 < (rearm t.reload (t.counter - a)).2 then timer1InterruptBit else 0 := by
  by_cases ha : t.counter ≤ a
  · rw [tick_expired h acr ha, if_pos (rearm_snd_pos_iff.2 (by omega))]
    refine ⟨?_, rfl⟩
    simp only [expire, if_pos hacr]
    rfl
  · rw [tick_counting h acr (by omega), rearm_pos (by omega)]
    simp [reloaded]

/-- **Timer 1.**  Two slices are one tick, unless the timer stops in the first one and the
    second one moves the free-running counter. -/
theorem tick_slice (t : Timer1) (acr : UInt8) (a : Int) {b : Int} (hb : 0 < b)
    (h : t.StopsWithin acr a → (65536 : Int) ∣ b) :
    (t.tick acr (a + b)).1 = ((t.tick acr a).1.tick acr b).1 ∧
      (t.tick acr (a + b)).2.1 = (t.tick acr a).2.1 ||| ((t.tick acr a).1.tick acr b).2.1 := by
  have hs : t.counter - (a + b) = t.counter - a - b := by omega
  rcases Bool.eq_false_or_eq_true t.running with hr | hr
  · by_cases hacr : acr &&& 0x40 = 0
    · by_cases ha : t.counter ≤ a
      · -- a one shot: the second slice only moves the free-running counter
        have hz : UInt16.ofInt b = 0 := (ofInt_eq_zero_iff b).2 (h ⟨hr, hacr, ha⟩)
        have hab : t.counter ≤ a + b := by omega
        rw [tick_expired hr acr ha, tick_expired hr acr hab,
          tick_stopped (by simp [expire, hacr, showCounter])]
        simp [expire, hacr, showCounter, hz]
      · have hc := tick_counting hr acr (show a < t.counter by omega)
        have hr' : ({ t with counter := t.counter - a } : Timer1).showCounter.running = true := hr
        rw [hc]
        by_cases hab : t.counter ≤ a + b
        · rw [tick_expired hr acr hab,
            tick_expired hr' acr (by show t.counter - a ≤ b; omega)]
          simp [expire, hacr, showCounter]
        · rw [tick_counting hr acr (by omega),
            tick_counting hr' acr (by show b < t.counter - a; omega)]
          simp [showCounter, hs]
    · have hslice := rearm_slice t.reload (t.counter - a) (show 0 ≤ b by omega)
      obtain ⟨hta, hfa⟩ := tick_freeRun hr hacr a
      obtain ⟨htab, hfab⟩ := tick_freeRun hr hacr (a + b)
      obtain ⟨htb, hfb⟩ := tick_freeRun (show (t.tick acr a).1.running = true by rw [hta]; exact hr)
        hacr b
      have hreload : (t.tick acr a).1.reload = t.reload := by rw [hta]; rfl
      have hcounter : (t.tick acr a).1.counter = (rearm t.reload (t.counter - a)).1 := by
        rw [hta]; rfl
      rw [hreload, hcounter] at htb hfb
      rw [hs, hslice] at htab hfab
      refine ⟨?_, ?_⟩
      · rw [htab, htb, hta, reloaded_reloaded]
      · rw [hfab, hfa, hfb, ite_or_ite]
  · rw [tick_stopped hr, tick_stopped hr, tick_stopped (by exact hr), sub_ofInt_add]
    simp

/-- A timer that stopped in the first slice shows the second one. -/
theorem tick_tick_of_stops {t : Timer1} {acr : UInt8} {a : Int} (h : t.StopsWithin acr a) (b : Int) :
    ((t.tick acr a).1.tick acr b).1.running = false ∧
      ((t.tick acr a).1.tick acr b).1.freeCounter = t.freeCounter - UInt16.ofInt b := by
  obtain ⟨hr, hacr, ha⟩ := h
  rw [tick_expired hr acr ha, tick_stopped (by simp [expire, hacr, showCounter])]
  simp [expire, hacr, showCounter]

theorem tick_of_stops {t : Timer1} {acr : UInt8} {a : Int} (h : t.StopsWithin acr a) :
    (t.tick acr a).1.running = false ∧ (t.tick acr a).1.freeCounter = t.freeCounter := by
  obtain ⟨hr, hacr, ha⟩ := h
  rw [tick_expired hr acr ha]
  simp [expire, hacr, showCounter]

theorem readLow_stopped {t : Timer1} (h : t.running = false) :
    t.readLow = lowByte t.freeCounter := by
  simp [readLow, h]

theorem readHigh_stopped {t : Timer1} (h : t.running = false) :
    t.readHigh = highByte t.freeCounter := by
  simp [readHigh, h]

theorem StopsWithin.mono {t : Timer1} {acr : UInt8} {a c : Int} (h : t.StopsWithin acr a)
    (hac : a ≤ c) : t.StopsWithin acr c :=
  ⟨h.1, h.2.1, Int.le_trans h.2.2 hac⟩

end Timer1

namespace Timer2

/-- The timer runs out within `a` cycles, and then counts freely. -/
def StopsWithin (t : Timer2) (acr : UInt8) (a : Int) : Prop :=
  t.running = true ∧ acr &&& 0x20 = 0 ∧ t.counter ≤ a

theorem tick_counting {t : Timer2} (h : t.running = true) (acr : UInt8) {a : Int}
    (ha : a < t.counter) :
    t.tick acr a =
      ({ t with
          counter := t.counter - a
          counterLow := lowByte (UInt16.ofInt (t.counter - a))
          counterHigh := highByte (UInt16.ofInt (t.counter - a)) }, 0) := by
  rw [tick, if_pos h]
  simp only [if_pos (show 0 < t.counter - a by omega)]

theorem tick_expired {t : Timer2} (h : t.running = true) (acr : UInt8) {a : Int}
    (ha : t.counter ≤ a) :
    t.tick acr a =
      ({ t with counter := 0, running := false, counterLow := 0, counterHigh := 0 },
        timer2InterruptBit) := by
  rw [tick, if_pos h]
  simp only [if_neg (show ¬ 0 < t.counter - a by omega)]

theorem tick_free {t : Timer2} (h : t.running = false) {acr : UInt8} (hacr : acr &&& 0x20 = 0)
    (a : Int) :
    t.tick acr a = ({ t with freeCounter := t.freeCounter - UInt16.ofInt a }, 0) := by
  simp [tick, h, hacr]

theorem tick_stopped {t : Timer2} (h : t.running = false) {acr : UInt8} (hacr : acr &&& 0x20 ≠ 0)
    (a : Int) : t.tick acr a = (t, 0) := by
  simp [tick, h, hacr]

/-- **Timer 2.**  Two slices are one tick, unless the timer stops in the first one and the
    second one moves the free-running counter. -/
theorem tick_slice (t : Timer2) (acr : UInt8) (a : Int) {b : Int} (hb : 0 < b)
    (h : t.StopsWithin acr a → (65536 : Int) ∣ b) :
    t.tick acr (a + b) =
      (((t.tick acr a).1.tick acr b).1, (t.tick acr a).2 ||| ((t.tick acr a).1.tick acr b).2) := by
  rcases Bool.eq_false_or_eq_true t.running with hr | hr
  · by_cases ha : t.counter ≤ a
    · have hab : t.counter ≤ a + b := by omega
      rw [tick_expired hr acr ha, tick_expired hr acr hab]
      by_cases hacr : acr &&& 0x20 = 0
      · have hz : UInt16.ofInt b = 0 := (ofInt_eq_zero_iff b).2 (h ⟨hr, hacr, ha⟩)
        rw [tick_free rfl hacr]
        simp [hz]
      · rw [tick_stopped rfl hacr]
        simp
    · rw [tick_counting hr acr (show a < t.counter by omega)]
      have hs : t.counter - (a + b) = t.counter - a - b := by omega
      by_cases hab : t.counter ≤ a + b
      · rw [tick_expired hr acr hab,
          tick_expired (by exact hr) acr (by show t.counter - a ≤ b; omega)]
        simp
      · rw [tick_counting hr acr (by omega),
          tick_counting (by exact hr) acr (by show b < t.counter - a; omega)]
        simp [hs]
  · by_cases hacr : acr &&& 0x20 = 0
    · rw [tick_free hr hacr, tick_free hr hacr, tick_free (by exact hr) hacr, sub_ofInt_add]
      simp
    · have hi : ∀ c, t.tick acr c = (t, 0) := tick_stopped hr hacr
      simp [hi]

/-- A timer that stopped in the first slice shows the second one. -/
theorem tick_tick_of_stops {t : Timer2} {acr : UInt8} {a : Int} (h : t.StopsWithin acr a) (b : Int) :
    ((t.tick acr a).1.tick acr b).1.running = false ∧
      ((t.tick acr a).1.tick acr b).1.freeCounter = t.freeCounter - UInt16.ofInt b := by
  obtain ⟨hr, hacr, ha⟩ := h
  rw [tick_expired hr acr ha, tick_free rfl hacr]
  exact ⟨rfl, rfl⟩

theorem tick_of_stops {t : Timer2} {acr : UInt8} {a : Int} (h : t.StopsWithin acr a) :
    (t.tick acr a).1.running = false ∧ (t.tick acr a).1.freeCounter = t.freeCounter := by
  obtain ⟨hr, hacr, ha⟩ := h
  rw [tick_expired hr acr ha]
  exact ⟨rfl, rfl⟩

theorem readLow_free {t : Timer2} (h : t.running = false) {acr : UInt8}
    (hacr : acr &&& 0x20 = 0) : t.readLow acr = lowByte t.freeCounter := by
  simp [readLow, h, hacr]

theorem readHigh_free {t : Timer2} (h : t.running = false) {acr : UInt8}
    (hacr : acr &&& 0x20 = 0) : t.readHigh acr = highByte t.freeCounter := by
  simp [readHigh, h, hacr]

theorem StopsWithin.mono {t : Timer2} {acr : UInt8} {a c : Int} (h : t.StopsWithin acr a)
    (hac : a ≤ c) : t.StopsWithin acr c :=
  ⟨h.1, h.2.1, Int.le_trans h.2.2 hac⟩

end Timer2

/-! ## The adapter -/

/-- What the guest sees of the adapter: the values that it would read, PB7, the CA1 schedule
    and the keyboard's shift register. -/
structure GuestView where
  interruptFlag : UInt8
  timer1CounterLow : UInt8
  timer1CounterHigh : UInt8
  timer2CounterLow : UInt8
  timer2CounterHigh : UInt8
  pb7 : Bool
  ca1 : AutomaticCa1
  keyboard : Keyboard
  deriving DecidableEq

namespace Via6522

def guestView (s : Via6522) : GuestView where
  interruptFlag := (s.readRegister 13).1
  timer1CounterLow := (s.readRegister 4).1
  timer1CounterHigh := (s.readRegister 5).1
  timer2CounterLow := (s.readRegister 8).1
  timer2CounterHigh := (s.readRegister 9).1
  pb7 := s.portB &&& 0x80 != 0
  ca1 := s.automaticCa1
  keyboard := s.keyboard

/-- A timer of the adapter stops within `a` cycles and its free-running counter takes over. -/
def StopsWithin (s : Via6522) (a : Int) : Prop :=
  s.timer1.StopsWithin s.auxiliaryControl a ∨ s.timer2.StopsWithin s.auxiliaryControl a

/-- The four parts after `cycles`, each by itself, and their flags. -/
def ticked (s : Via6522) (cycles : Int) : Via6522 :=
  { s with
    automaticCa1 := (s.automaticCa1.tick cycles).1
    timer1 := (s.timer1.tick s.auxiliaryControl cycles).1
    timer2 := (s.timer2.tick s.auxiliaryControl cycles).1
    keyboard := (s.keyboard.tick s.auxiliaryControl cycles).1
    interruptFlag :=
      s.interruptFlag ||| (s.automaticCa1.tick cycles).2 |||
        (s.timer1.tick s.auxiliaryControl cycles).2.1 |||
        (s.timer2.tick s.auxiliaryControl cycles).2 |||
        (s.keyboard.tick s.auxiliaryControl cycles).2 }

/-- No part looks at what another part does in a tick. -/
theorem tick_eq_ticked (s : Via6522) {cycles : Int} (h : 0 < cycles) :
    ∃ calls, s.tick cycles = { s.ticked cycles with calls := calls } := by
  refine ⟨(s.tick cycles).calls, ?_⟩
  rw [tick, if_neg (by omega)]
  unfold tickShiftRegister tickTimer2 tickTimer1 tickCa1 callPortBChanged call
  simp only
  split
  · split <;> rfl
  · rfl

/-- The calls are not seen. -/
theorem guestView_tick (s : Via6522) {cycles : Int} (h : 0 < cycles) :
    (s.tick cycles).guestView = (s.ticked cycles).guestView := by
  obtain ⟨calls, hc⟩ := tick_eq_ticked s h
  rw [hc]; rfl

theorem guestView_tick_tick (s : Via6522) {a b : Int} (ha : 0 < a) (hb : 0 < b) :
    ((s.tick a).tick b).guestView = ((s.ticked a).ticked b).guestView := by
  obtain ⟨calls, hc⟩ := tick_eq_ticked s ha
  rw [guestView_tick _ hb, hc]; rfl

theorem ticked_ticked {s : Via6522} {a b : Int} (hb : 0 < b)
    (h : s.StopsWithin a → (65536 : Int) ∣ b) : (s.ticked a).ticked b = s.ticked (a + b) := by
  have hc := s.automaticCa1.tick_slice a (show 0 ≤ b by omega)
  have ⟨h1, hf1⟩ := s.timer1.tick_slice s.auxiliaryControl a hb fun h' => h (.inl h')
  have h2 := s.timer2.tick_slice s.auxiliaryControl a hb fun h' => h (.inr h')
  have hk := s.keyboard.tick_slice s.auxiliaryControl a hb
  simp only [ticked, hc, h1, hf1, h2, hk]
  congr 1
  ac_rfl

/-- **Slices.**  Ticking for `a` and then for `b` cycles shows the guest what ticking for
    both at once shows it, exactly when no timer stops within the first `a` cycles and
    leaves the rest to a free-running counter that `b` moves. -/
theorem tick_tick_iff (s : Via6522) {a b : Int} (ha : 0 < a) (hb : 0 < b) :
    ((s.tick a).tick b).guestView = (s.tick (a + b)).guestView ↔
      (s.StopsWithin a → (65536 : Int) ∣ b) := by
  rw [guestView_tick_tick s ha hb, guestView_tick s (by omega)]
  refine ⟨?_, fun h => by rw [ticked_ticked hb h]⟩
  intro hview hstop
  rw [← ofInt_eq_zero_iff]
  have hself : ∀ x : UInt16, x - UInt16.ofInt b = x → UInt16.ofInt b = 0 := by grind
  rcases hstop with h1 | h2
  · -- what is read of timer 1 are the bytes of its free-running counter
    have hl := congrArg GuestView.timer1CounterLow hview
    have hh := congrArg GuestView.timer1CounterHigh hview
    obtain ⟨hr, hf⟩ := Timer1.tick_tick_of_stops h1 b
    obtain ⟨hr', hf'⟩ := Timer1.tick_of_stops (h1.mono (show a ≤ a + b by omega))
    refine hself s.timer1.freeCounter ?_
    rw [← hf, ← hf']
    exact bytes_inj (by rw [← Timer1.readLow_stopped hr, ← Timer1.readLow_stopped hr']; exact hl)
      (by rw [← Timer1.readHigh_stopped hr, ← Timer1.readHigh_stopped hr']; exact hh)
  · have hl := congrArg GuestView.timer2CounterLow hview
    have hh := congrArg GuestView.timer2CounterHigh hview
    obtain ⟨hr, hf⟩ := Timer2.tick_tick_of_stops h2 b
    obtain ⟨hr', hf'⟩ := Timer2.tick_of_stops (h2.mono (show a ≤ a + b by omega))
    have hacr := h2.2.1
    refine hself s.timer2.freeCounter ?_
    rw [← hf, ← hf']
    exact bytes_inj
      (by rw [← Timer2.readLow_free hr hacr, ← Timer2.readLow_free hr' hacr]; exact hl)
      (by rw [← Timer2.readHigh_free hr hacr, ← Timer2.readHigh_free hr' hacr]; exact hh)

/-- Timer 1 of an adapter after its reset, started for one shot of `n` cycles. -/
def oneShot (n : UInt8) : Via6522 :=
  ((reset {}).writeRegister 4 n).writeRegister 5 0

/-- A whole turn of the free-running counter is not seen. -/
theorem tick_tick_oneShot :
    (((oneShot 2).tick 2).tick 65536).guestView = ((oneShot 2).tick (2 + 65536)).guestView :=
  (tick_tick_iff (oneShot 2) (by decide) (by decide)).2 fun _ => ⟨1, by decide⟩

/-- The first slice ends the one shot: the second one is seen in the counter, where the one
    tick leaves it. -/
theorem tick_tick_ne_tick :
    (((oneShot 2).tick 2).tick 2).guestView ≠ ((oneShot 2).tick (2 + 2)).guestView ∧
      ((((oneShot 2).tick 2).tick 2).readRegister 4).1 = 0xfd ∧
      (((oneShot 2).tick (2 + 2)).readRegister 4).1 = 0xff := by
  decide +kernel

end Via6522

end CuteMac.Via
