/-
  The sound chip (`AppleSoundChip.cpp`).

  * `AppleSoundChip`: the registers, the two FIFOs and the accumulator of cycles;
  * `read`, `write`, `reset`, `tick`: what the machine calls;
  * `tick_tick`: time may be sliced, as long as nothing of it is lost in 64 bits.
-/
import Mathlib.Logic.Function.Iterate
import Mathlib.Algebra.Notation.Pi.Basic
import Mathlib.Tactic.Ring
import CuteMac.Lib.BankSizes

namespace CuteMac.Audio

def modeRegister : UInt16 := 0x801
def controlRegister : UInt16 := 0x802
def fifoModeRegister : UInt16 := 0x803
def fifoStatusRegister : UInt16 := 0x804
def clockRegister : UInt16 := 0x807
def fifoAIrqControlRegister : UInt16 := 0xf09
def fifoBIrqControlRegister : UInt16 := 0xf29
def cpuClock : UInt64 := 15667200
def originalSampleRate : UInt64 := 22257
def enhancedSampleRate : UInt64 := 44100

inductive Model where
  | original
  | enhanced
  deriving DecidableEq

structure AppleSoundChip where
  model : Model := .original
  memory : UInt16 → UInt8 := fun _ => 0
  fifo : Fin 2 → Nat → UInt8 := fun _ _ => 0
  readPointer : Fin 2 → UInt16 := fun _ => 0
  writePointer : Fin 2 → UInt16 := fun _ => 0
  capacity : Fin 2 → UInt16 := fun _ => 0
  sampleCycleAccumulator : UInt64 := 0
  irq : Bool := false

/-- The status bit of a FIFO that is half empty. -/
def halfBit (channel : Fin 2) : UInt8 := if channel = 0 then 0x01 else 0x04

/-- The status bit of a FIFO that is full, or empty. -/
def edgeBit (channel : Fin 2) : UInt8 := if channel = 0 then 0x02 else 0x08

namespace AppleSoundChip

def status (s : AppleSoundChip) : UInt8 := s.memory fifoStatusRegister

def setMemory (s : AppleSoundChip) (offset : UInt16) (value : UInt8) : AppleSoundChip :=
  { s with memory := Function.update s.memory offset value }

/-- Both FIFOs are emptied. -/
def clearFifos (s : AppleSoundChip) : AppleSoundChip :=
  { s with readPointer := fun _ => 0, writePointer := fun _ => 0, capacity := fun _ => 0 }

def reset (s : AppleSoundChip) : AppleSoundChip :=
  let cleared : AppleSoundChip := { model := s.model }
  if s.model = .enhanced then
    ((cleared.setMemory fifoStatusRegister 0x0f).setMemory fifoAIrqControlRegister 1).setMemory
      fifoBIrqControlRegister 1
  else cleared

def read (s : AppleSoundChip) (offset : UInt16) : UInt8 × AppleSoundChip :=
  let offset := offset &&& 0x0fff
  if offset < 0x400 then (s.fifo 0 offset.toNat, s)
  else if offset < 0x800 then (s.fifo 1 (offset - 0x400).toNat, s)
  else if offset = 0x800 then (if s.model = .enhanced then 0xb0 else 0, s)
  else if s.model = .enhanced ∧ offset = clockRegister then (3, s)
  else if offset = fifoStatusRegister then
    -- the original chip forgets its status, the other one acknowledges its interrupt only
    (s.status,
      { (if s.model = .original then s.setMemory offset 0 else s) with irq := false })
  else (s.memory offset, s)

/-- A write to one of the FIFOs. -/
def writeFifo (s : AppleSoundChip) (channel : Fin 2) (value : UInt8) : AppleSoundChip :=
  let capacity :=
    if s.capacity channel < 0x400 then s.capacity channel + 1 else s.capacity channel
  let status := if 0x200 ≤ capacity then s.status &&& ~~~halfBit channel else s.status
  let status :=
    if 0x3ff ≤ capacity then status ||| edgeBit channel
    else if 0 < capacity then status &&& ~~~edgeBit channel
    else status
  { s with
    fifo := Function.update s.fifo channel
      (Function.update (s.fifo channel) (s.writePointer channel).toNat value)
    writePointer := Function.update s.writePointer channel ((s.writePointer channel + 1) &&& 0x3ff)
    capacity := Function.update s.capacity channel capacity
    memory := Function.update s.memory fifoStatusRegister status }

/-- A write behind the FIFOs. -/
def writeRegister (s : AppleSoundChip) (offset : UInt16) (value : UInt8) : AppleSoundChip :=
  if offset = 0x800 then s
  else if s.model = .enhanced ∧ offset = controlRegister then s
  else
    let s :=
      if offset = modeRegister ∧ value &&& 3 ≠ s.memory offset &&& 3 then
        { s.clearFifos with sampleCycleAccumulator := 0 }
      else s
    let (s, value) :=
      if s.model = .enhanced ∧ offset = modeRegister then
        (s.setMemory fifoStatusRegister (s.status ||| 0x08), value &&& 1)
      else (s, value)
    let value :=
      if s.model = .enhanced ∧
          (offset = fifoAIrqControlRegister ∨ offset = fifoBIrqControlRegister) then value &&& 1
      else value
    let s :=
      if offset = fifoModeRegister ∧ value &&& 0x80 ≠ 0 then
        s.clearFifos.setMemory fifoStatusRegister (s.status ||| 0x0a)
      else s
    s.setMemory offset value

/-- The FIFO behind an offset below 0x800. -/
def fifoOf (offset : UInt16) : Fin 2 := if offset < 0x400 then 0 else 1

def write (s : AppleSoundChip) (offset : UInt16) (value : UInt8) : AppleSoundChip :=
  let offset := offset &&& 0x0fff
  if offset < 0x800 then s.writeFifo (fifoOf offset) value else s.writeRegister offset value

/-- The oldest sample of a FIFO is taken. -/
def takeSample (s : AppleSoundChip) (channel : Fin 2) : AppleSoundChip :=
  { s with
    readPointer := Function.update s.readPointer channel ((s.readPointer channel + 1) &&& 0x3ff)
    capacity := Function.update s.capacity channel (s.capacity channel - 1) }

/-- The interrupt is raised, with a new status. -/
def interrupt (s : AppleSoundChip) (status : UInt8) : AppleSoundChip :=
  { s.setMemory fifoStatusRegister status with irq := true }

/-- The part of `tick` for one sample of one FIFO. -/
def consume (s : AppleSoundChip) (channel : Fin 2) : AppleSoundChip :=
  let oldCapacity := s.capacity channel
  let s := if oldCapacity ≠ 0 then s.takeSample channel else s
  let s :=
    if oldCapacity = 0x200 then
      s.interrupt ((s.status ||| halfBit channel) &&& ~~~edgeBit channel)
    else s
  if oldCapacity ≠ 0 ∧ s.capacity channel = 0 then
    s.interrupt (s.status ||| (halfBit channel ||| edgeBit channel))
  else s

/-- FIFO mode. -/
def playing (s : AppleSoundChip) : Prop := s.memory modeRegister &&& 3 = 1

instance (s : AppleSoundChip) : Decidable s.playing := inferInstanceAs (Decidable (_ = _))

def sampleRate (s : AppleSoundChip) : UInt64 :=
  if s.model = .enhanced then enhancedSampleRate else originalSampleRate

def stereo (s : AppleSoundChip) : Bool :=
  s.model = .enhanced || s.memory controlRegister &&& 1 != 0

def playSample (stereo : Bool) (s : AppleSoundChip) : AppleSoundChip :=
  let s := s.consume 0
  if stereo then s.consume 1 else s

def tick (s : AppleSoundChip) (cpuCycles : UInt64) : AppleSoundChip :=
  if s.playing then
    let accumulator := s.sampleCycleAccumulator + cpuCycles * s.sampleRate
    let samples := accumulator / cpuClock
    (playSample s.stereo)^[samples.toNat] { s with sampleCycleAccumulator := accumulator % cpuClock }
  else s

/-! ## What a sample leaves alone -/

def setAccumulator (s : AppleSoundChip) (accumulator : UInt64) : AppleSoundChip :=
  { s with sampleCycleAccumulator := accumulator }

/-- The settings that a sample depends on. -/
structure SameSettings (s t : AppleSoundChip) : Prop where
  model : t.model = s.model
  mode : t.memory modeRegister = s.memory modeRegister
  control : t.memory controlRegister = s.memory controlRegister

theorem SameSettings.refl (s : AppleSoundChip) : SameSettings s s := ⟨rfl, rfl, rfl⟩

theorem SameSettings.trans {s t u : AppleSoundChip} (h : SameSettings s t) (h' : SameSettings t u) :
    SameSettings s u :=
  ⟨h'.model.trans h.model, h'.mode.trans h.mode, h'.control.trans h.control⟩

theorem SameSettings.ite {s t u : AppleSoundChip} {p : Prop} [Decidable p] (h : SameSettings s t)
    (h' : SameSettings s u) : SameSettings s (if p then t else u) := by
  split_ifs
  · exact h
  · exact h'

theorem interrupt_settings (s : AppleSoundChip) (status : UInt8) :
    SameSettings s (s.interrupt status) where
  model := rfl
  mode := Function.update_of_ne (show modeRegister ≠ fifoStatusRegister by decide) status s.memory
  control :=
    Function.update_of_ne (show controlRegister ≠ fifoStatusRegister by decide) status s.memory

section
variable (s : AppleSoundChip) (channel : Fin 2) (accumulator : UInt64)

theorem consume_settings : SameSettings s (s.consume channel) := by
  have htake : SameSettings s (if s.capacity channel ≠ 0 then s.takeSample channel else s) :=
    .ite ⟨rfl, rfl, rfl⟩ (.refl s)
  dsimp only [consume]
  generalize (if s.capacity channel ≠ 0 then s.takeSample channel else s) = t at htake ⊢
  refine .ite (.trans ?_ (interrupt_settings _ _)) ?_
  all_goals exact .ite (htake.trans (interrupt_settings _ _)) htake

theorem consume_setAccumulator :
    (s.setAccumulator accumulator).consume channel
      = (s.consume channel).setAccumulator accumulator := by
  dsimp only [consume, setAccumulator]
  split_ifs <;> first | rfl | contradiction

theorem playSample_settings (stereo : Bool) : SameSettings s (playSample stereo s) := by
  cases stereo with
  | false => exact consume_settings s 0
  | true => exact (consume_settings s 0).trans (consume_settings _ 1)

theorem playSample_setAccumulator (stereo : Bool) :
    playSample stereo (s.setAccumulator accumulator)
      = (playSample stereo s).setAccumulator accumulator := by
  cases stereo with
  | false => exact consume_setAccumulator s 0 accumulator
  | true =>
    show ((s.setAccumulator accumulator).consume 0).consume 1 = _
    rw [consume_setAccumulator, consume_setAccumulator]
    rfl

theorem iterate_settings (stereo : Bool) (n : Nat) :
    SameSettings s ((playSample stereo)^[n] s) := by
  induction n generalizing s with
  | zero => exact .refl s
  | succ n ih => exact (playSample_settings s stereo).trans (ih _)

theorem iterate_setAccumulator (stereo : Bool) (n : Nat) :
    (playSample stereo)^[n] (s.setAccumulator accumulator)
      = ((playSample stereo)^[n] s).setAccumulator accumulator := by
  induction n generalizing s with
  | zero => rfl
  | succ n ih => rw [Function.iterate_succ_apply, playSample_setAccumulator, ih]; rfl

end

/-! ## Slices of time -/

section
variable {s : AppleSoundChip}

theorem tick_of_playing (h : s.playing) (cpuCycles : UInt64) :
    s.tick cpuCycles =
      ((playSample s.stereo)^[((s.sampleCycleAccumulator + cpuCycles * s.sampleRate) / cpuClock).toNat]
        s).setAccumulator ((s.sampleCycleAccumulator + cpuCycles * s.sampleRate) % cpuClock) := by
  rw [tick, if_pos h, ← iterate_setAccumulator]
  rfl

theorem tick_settings (s : AppleSoundChip) (cpuCycles : UInt64) :
    SameSettings s (s.tick cpuCycles) := by
  by_cases h : s.playing
  · rw [tick_of_playing h]
    exact (iterate_settings s _ _).trans ⟨rfl, rfl, rfl⟩
  · rw [tick, if_neg h]
    exact .refl s

theorem SameSettings.playing {t : AppleSoundChip} (h : SameSettings s t) (hs : s.playing) :
    t.playing := by
  unfold AppleSoundChip.playing at *
  rw [h.mode, hs]

theorem SameSettings.sampleRate {t : AppleSoundChip} (h : SameSettings s t) :
    t.sampleRate = s.sampleRate := by
  unfold AppleSoundChip.sampleRate
  rw [h.model]

theorem SameSettings.stereo {t : AppleSoundChip} (h : SameSettings s t) : t.stereo = s.stereo := by
  unfold AppleSoundChip.stereo
  rw [h.model, h.control]

theorem tick_accumulator (h : s.playing) (cpuCycles : UInt64) :
    (s.tick cpuCycles).sampleCycleAccumulator
      = (s.sampleCycleAccumulator + cpuCycles * s.sampleRate) % cpuClock := by
  rw [tick_of_playing h]
  rfl

theorem sampleRate_pos (s : AppleSoundChip) : 0 < s.sampleRate.toNat := by
  unfold sampleRate
  split_ifs <;> decide

/-- What is played in two slices. -/
theorem div_slices (total more clock : Nat) (h : 0 < clock) :
    (total + more) / clock = (total % clock + more) / clock + total / clock := by
  have hsplit : total + more = total % clock + more + clock * (total / clock) := by
    have := Nat.mod_add_div total clock
    omega
  rw [hsplit, Nat.add_mul_div_left _ _ h]

theorem toNat_accumulated (accumulator cycles rate : UInt64)
    (h : accumulator.toNat + cycles.toNat * rate.toNat < 2 ^ 64) :
    (accumulator + cycles * rate).toNat = accumulator.toNat + cycles.toNat * rate.toNat := by
  rw [UInt64.toNat_add, UInt64.toNat_mul, Nat.mod_eq_of_lt (a := cycles.toNat * rate.toNat) (by omega),
    Nat.mod_eq_of_lt h]

theorem tick_tick (s : AppleSoundChip) (a b : UInt64)
    (h : s.sampleCycleAccumulator.toNat + (a.toNat + b.toNat) * s.sampleRate.toNat < 2 ^ 64) :
    (s.tick a).tick b = s.tick (a + b) := by
  by_cases hplaying : s.playing
  · have hsettings := tick_settings s a
    have hrate := sampleRate_pos s
    have hclock : 0 < cpuClock.toNat := by decide
    rw [Nat.add_mul] at h
    have hab : (a + b).toNat = a.toNat + b.toNat := by
      have ha := Nat.le_mul_of_pos_right a.toNat hrate
      have hb := Nat.le_mul_of_pos_right b.toNat hrate
      rw [UInt64.toNat_add]
      exact Nat.mod_eq_of_lt (by omega)
    have hfirst := toNat_accumulated s.sampleCycleAccumulator a s.sampleRate (by omega)
    have hboth := toNat_accumulated s.sampleCycleAccumulator (a + b) s.sampleRate
      (by rw [hab, Nat.add_mul]; omega)
    rw [hab, Nat.add_mul, ← Nat.add_assoc] at hboth
    -- what is left of the first slice
    have hleft : ((s.sampleCycleAccumulator + a * s.sampleRate) % cpuClock).toNat =
        (s.sampleCycleAccumulator.toNat + a.toNat * s.sampleRate.toNat) % cpuClock.toNat := by
      rw [UInt64.toNat_mod, hfirst]
    have hsecond := toNat_accumulated ((s.sampleCycleAccumulator + a * s.sampleRate) % cpuClock) b
      s.sampleRate (by
        rw [hleft]
        have := Nat.mod_le (s.sampleCycleAccumulator.toNat + a.toNat * s.sampleRate.toNat)
          cpuClock.toNat
        omega)
    rw [tick_of_playing (hsettings.playing hplaying), tick_accumulator hplaying,
      hsettings.sampleRate, hsettings.stereo, tick_of_playing hplaying a, iterate_setAccumulator,
      tick_of_playing hplaying (a + b), ← Function.iterate_add_apply]
    have hsamples : ((s.sampleCycleAccumulator + (a + b) * s.sampleRate) / cpuClock).toNat =
        (((s.sampleCycleAccumulator + a * s.sampleRate) % cpuClock + b * s.sampleRate)
          / cpuClock).toNat + ((s.sampleCycleAccumulator + a * s.sampleRate) / cpuClock).toNat := by
      rw [UInt64.toNat_div, UInt64.toNat_div, UInt64.toNat_div, hboth, hsecond, hleft, hfirst]
      exact div_slices _ _ _ hclock
    have hrest : ((s.sampleCycleAccumulator + a * s.sampleRate) % cpuClock + b * s.sampleRate)
        % cpuClock = (s.sampleCycleAccumulator + (a + b) * s.sampleRate) % cpuClock := by
      rw [← UInt64.toNat_inj, UInt64.toNat_mod, UInt64.toNat_mod, hsecond, hleft, hboth]
      exact Nat.mod_add_mod _ _ _
    rw [hsamples, hrest]
    rfl
  · have hstay : ∀ cycles, s.tick cycles = s := fun cycles => if_neg hplaying
    rw [hstay, hstay, hstay]

/-- FIFO mode, from the start. -/
def started : AppleSoundChip := ({} : AppleSoundChip).write modeRegister 1

theorem tick_tick_started :
    (started.tick 1000000).tick 2000000 = started.tick (1000000 + 2000000) :=
  tick_tick started 1000000 2000000 (by decide)

/-- Two slices that fit by themselves, and not together. -/
theorem tick_tick_wraps :
    ¬ ∀ (s : AppleSoundChip) (a b : UInt64), a.toNat * s.sampleRate.toNat < 2 ^ 64 →
      b.toNat * s.sampleRate.toNat < 2 ^ 64 →
      ((s.tick a).tick b).sampleCycleAccumulator = (s.tick (a + b)).sampleCycleAccumulator := by
  intro h
  have hplaying : started.playing := by decide
  have hslices := h started 800000000000000 800000000000000 (by decide) (by decide)
  have hsettings := tick_settings started 800000000000000
  rw [tick_accumulator (hsettings.playing hplaying), tick_accumulator hplaying,
    tick_accumulator hplaying, hsettings.sampleRate] at hslices
  exact absurd hslices (by decide)

end

end AppleSoundChip

end CuteMac.Audio
