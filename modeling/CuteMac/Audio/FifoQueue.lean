/-
  The FIFOs of the sound chip are queues.

  * `Traced`: the chip, with what is written to its FIFOs and what is consumed;
  * `Kept`: a sample may be dropped where 1024 others are pending;
  * `Queue`: what is consumed and what is pending is what was written;
  * `queue_iff`: it holds as long as no FIFO is written to that is full.

  A write to a full FIFO moves the write pointer on, and not the level: the oldest
  sample is overwritten, and the newest one is consumed in its place.
-/
import CuteMac.Audio.AppleSoundChip
import CuteMac.Lib.Machine
import CuteMac.Lib.Ring

namespace CuteMac.Audio

open AppleSoundChip Machine

/-! ## Runs -/

inductive Op where
  | write (offset : UInt16) (value : UInt8)
  | read (offset : UInt16)
  | tick (cpuCycles : UInt64)
  | reset

/-- The chip, and the samples that were written to a FIFO and consumed from it since it was
    emptied; those that are written while 1024 are pending are marked. -/
structure Traced where
  chip : AppleSoundChip
  written : Fin 2 → List (UInt8 × Bool) := fun _ => []
  consumed : Fin 2 → List UInt8 := fun _ => []

/-- Whether a write to a register empties the FIFOs. -/
def AppleSoundChip.clears (s : AppleSoundChip) (offset : UInt16) (value : UInt8) : Prop :=
  offset = modeRegister ∧ value &&& 3 ≠ s.memory modeRegister &&& 3 ∨
    offset = fifoModeRegister ∧ value &&& 0x80 ≠ 0

instance (s : AppleSoundChip) (offset : UInt16) (value : UInt8) : Decidable (s.clears offset value) :=
  inferInstanceAs (Decidable (_ ∨ _))

namespace Traced

def write (t : Traced) (offset : UInt16) (value : UInt8) : Traced :=
  let channel := fifoOf (offset &&& 0x0fff)
  if offset &&& 0x0fff < 0x800 then
    { t with
      chip := t.chip.write offset value
      written := Function.update t.written channel
        (t.written channel ++ [(value, t.chip.capacity channel == 0x400)]) }
  else if t.chip.clears (offset &&& 0x0fff) value then { chip := t.chip.write offset value }
  else { t with chip := t.chip.write offset value }

def consume (channel : Fin 2) (t : Traced) : Traced :=
  { t with
    chip := t.chip.consume channel
    consumed :=
      if t.chip.capacity channel ≠ 0 then
        Function.update t.consumed channel
          (t.consumed channel ++ [t.chip.fifo channel (t.chip.readPointer channel).toNat])
      else t.consumed }

def playSample (stereo : Bool) (t : Traced) : Traced :=
  let t := t.consume 0
  if stereo then t.consume 1 else t

def tick (t : Traced) (cpuCycles : UInt64) : Traced :=
  if t.chip.playing then
    let accumulator := t.chip.sampleCycleAccumulator + cpuCycles * t.chip.sampleRate
    let samples := accumulator / cpuClock
    (playSample t.chip.stereo)^[samples.toNat]
      { t with chip := t.chip.setAccumulator (accumulator % cpuClock) }
  else t

def step (t : Traced) : Op → Traced
  | .write offset value => t.write offset value
  | .read offset => { t with chip := (t.chip.read offset).2 }
  | .tick cpuCycles => t.tick cpuCycles
  | .reset => { chip := t.chip.reset }

end Traced

/-- What an operation does to the chip itself. -/
def AppleSoundChip.step (s : AppleSoundChip) : Op → AppleSoundChip
  | .write offset value => s.write offset value
  | .read offset => (s.read offset).2
  | .tick cpuCycles => s.tick cpuCycles
  | .reset => s.reset

theorem Traced.playSample_chip (stereo : Bool) (t : Traced) :
    (t.playSample stereo).chip = t.chip.playSample stereo := by
  cases stereo <;> rfl

theorem Traced.iterate_chip (stereo : Bool) (n : Nat) (t : Traced) :
    ((Traced.playSample stereo)^[n] t).chip = (AppleSoundChip.playSample stereo)^[n] t.chip := by
  induction n generalizing t with
  | zero => rfl
  | succ n ih => rw [Function.iterate_succ_apply, ih, Traced.playSample_chip]; rfl

/-- The logs only watch. -/
theorem Traced.step_chip (t : Traced) (op : Op) : (t.step op).chip = t.chip.step op := by
  cases op with
  | write offset value =>
    show (t.write offset value).chip = _
    unfold Traced.write
    split_ifs <;> rfl
  | read offset => rfl
  | tick cpuCycles =>
    show (t.tick cpuCycles).chip = t.chip.tick cpuCycles
    by_cases h : t.chip.playing
    · rw [Traced.tick, if_pos h, Traced.iterate_chip, AppleSoundChip.tick, if_pos h]
      rfl
    · rw [Traced.tick, if_neg h, AppleSoundChip.tick, if_neg h]
  | reset => rfl

theorem Traced.run_chip (t : Traced) (ops : List Op) :
    (run Traced.step t ops).chip = run AppleSoundChip.step t.chip ops := by
  induction ops generalizing t with
  | nil => rfl
  | cons op ops ih => rw [run_cons, run_cons, ih, Traced.step_chip]

/-! ## Queues -/

/-- The pending samples, the oldest one first. -/
def AppleSoundChip.pending (s : AppleSoundChip) (channel : Fin 2) : List UInt8 :=
  Ring.contents 0x400 (s.fifo channel) (s.readPointer channel).toNat (s.capacity channel).toNat

/-- The samples that are kept of those that are written, in order; marked ones may be dropped. -/
inductive Kept : List (UInt8 × Bool) → List UInt8 → Prop
  | nil : Kept [] []
  | keep {written kept} (value full) : Kept written kept → Kept ((value, full) :: written) (value :: kept)
  | drop {written kept} (value) : Kept written kept → Kept ((value, true) :: written) kept

theorem Kept.push {written : List (UInt8 × Bool)} {kept : List UInt8} (h : Kept written kept)
    (value : UInt8) (full : Bool) : Kept (written ++ [(value, full)]) (kept ++ [value]) := by
  induction h with
  | nil => exact .keep value full .nil
  | keep x f _ ih => exact .keep x f ih
  | drop x _ ih => exact .drop x ih

/-- The FIFO is a queue: the level is what the pointers say, and what is consumed and what is
    pending are the samples that are kept. -/
structure Queue (t : Traced) (channel : Fin 2) : Prop where
  pointers : (t.chip.writePointer channel).toNat =
    ((t.chip.readPointer channel).toNat + (t.chip.capacity channel).toNat) % 0x400
  samples : Kept (t.written channel) (t.consumed channel ++ t.chip.pending channel)

/-- The FIFO stays within its cells. -/
structure Bounds (s : AppleSoundChip) (channel : Fin 2) : Prop where
  level : (s.capacity channel).toNat ≤ 0x400
  readPointer : (s.readPointer channel).toNat < 0x400
  writePointer : (s.writePointer channel).toNat < 0x400

/-! ## What the operations do to the FIFOs -/

/-- The FIFOs of two chips are the same. -/
structure SameFifos (s t : AppleSoundChip) : Prop where
  fifo : t.fifo = s.fifo
  readPointer : t.readPointer = s.readPointer
  writePointer : t.writePointer = s.writePointer
  capacity : t.capacity = s.capacity

theorem SameFifos.refl (s : AppleSoundChip) : SameFifos s s := ⟨rfl, rfl, rfl, rfl⟩

theorem SameFifos.setMemory {s t : AppleSoundChip} (h : SameFifos s t) (offset : UInt16)
    (value : UInt8) : SameFifos s (t.setMemory offset value) := ⟨h.1, h.2, h.3, h.4⟩

theorem SameFifos.interrupt {s t : AppleSoundChip} (h : SameFifos s t) (status : UInt8) :
    SameFifos s (t.interrupt status) := ⟨h.1, h.2, h.3, h.4⟩

theorem SameFifos.ite {s t u : AppleSoundChip} {p : Prop} [Decidable p] (h : SameFifos s t)
    (h' : SameFifos s u) : SameFifos s (if p then t else u) := by
  split_ifs
  · exact h
  · exact h'

section
variable (s : AppleSoundChip)

theorem consume_fifos (channel : Fin 2) :
    SameFifos (if s.capacity channel ≠ 0 then s.takeSample channel else s) (s.consume channel) := by
  dsimp only [AppleSoundChip.consume]
  generalize (if s.capacity channel ≠ 0 then s.takeSample channel else s) = t
  refine .ite (.interrupt ?_ _) ?_
  all_goals exact .ite (.interrupt (.refl t) _) (.refl t)

theorem read_fifos (offset : UInt16) : SameFifos s (s.read offset).2 := by
  dsimp only [AppleSoundChip.read]
  split_ifs <;> exact ⟨rfl, rfl, rfl, rfl⟩

theorem writeRegister_fifos (offset : UInt16) (value : UInt8) :
    SameFifos (if s.clears offset value then s.clearFifos else s) (s.writeRegister offset value) := by
  by_cases hmode : offset = modeRegister
  · subst hmode
    have hclears : s.clears modeRegister value ↔ value &&& 3 ≠ s.memory modeRegister &&& 3 := by
      simp [clears, modeRegister, fifoModeRegister]
    have hother : modeRegister ≠ 0x800 ∧ modeRegister ≠ controlRegister ∧
        modeRegister ≠ fifoModeRegister := by decide
    simp only [writeRegister, hclears, hother, true_and, false_and, and_false, if_false]
    split_ifs <;> exact ⟨rfl, rfl, rfl, rfl⟩
  by_cases hfifo : offset = fifoModeRegister
  · subst hfifo
    have hclears : s.clears fifoModeRegister value ↔ value &&& 0x80 ≠ 0 := by
      simp [clears, modeRegister, fifoModeRegister]
    have hother : fifoModeRegister ≠ 0x800 ∧ fifoModeRegister ≠ controlRegister ∧
        fifoModeRegister ≠ modeRegister ∧ fifoModeRegister ≠ fifoAIrqControlRegister ∧
        fifoModeRegister ≠ fifoBIrqControlRegister := by decide
    simp only [writeRegister, hclears, hother, true_and, false_and, and_false, or_self, if_false]
    split_ifs <;> exact ⟨rfl, rfl, rfl, rfl⟩
  · have hclears : ¬ s.clears offset value := by simp [clears, hmode, hfifo]
    simp only [writeRegister, hclears, hmode, hfifo, false_and, and_false, if_false]
    split_ifs <;> exact ⟨rfl, rfl, rfl, rfl⟩

end

/-! ## Pointers -/

theorem toNat_next (p : UInt16) :
    ((p + 1) &&& 0x3ff).toNat = (p.toNat + 1) % 0x400 := by
  rw [UInt16.toNat_and, UInt16.toNat_add, show (0x3ff : UInt16).toNat = 2 ^ 10 - 1 from rfl,
    Nat.and_two_pow_sub_one_eq_mod]
  show (p.toNat + 1) % 2 ^ 16 % 1024 = _
  omega

theorem toNat_succ (c : UInt16) (h : c.toNat < 0x400) : (c + 1).toNat = c.toNat + 1 := by
  rw [UInt16.toNat_add]
  show (c.toNat + 1) % 2 ^ 16 = _
  omega

theorem toNat_pred (c : UInt16) (h : c ≠ 0) : (c - 1).toNat + 1 = c.toNat := by
  have hpos : c.toNat ≠ 0 := fun hz => h (UInt16.toNat_inj.1 hz)
  have hone : (1 : UInt16).toNat = 1 := rfl
  rw [UInt16.toNat_sub_of_le _ _ (UInt16.le_iff_toNat_le.2 (by omega)), hone]
  omega

section
variable {s s' : AppleSoundChip} {t t' : Traced} {channel other : Fin 2}

theorem Bounds.congr (h : Bounds s channel) (hs : SameFifos s s') : Bounds s' channel where
  level := by rw [hs.capacity]; exact h.level
  readPointer := by rw [hs.readPointer]; exact h.readPointer
  writePointer := by rw [hs.writePointer]; exact h.writePointer

theorem Bounds.setAccumulator (h : Bounds s channel) (accumulator : UInt64) :
    Bounds (s.setAccumulator accumulator) channel := h.congr ⟨rfl, rfl, rfl, rfl⟩

theorem SameFifos.pending (hs : SameFifos s s') : s'.pending channel = s.pending channel := by
  unfold AppleSoundChip.pending
  rw [hs.fifo, hs.readPointer, hs.capacity]

theorem Queue.congr (h : Queue t channel) (hs : SameFifos t.chip t'.chip)
    (hwritten : t'.written channel = t.written channel)
    (hconsumed : t'.consumed channel = t.consumed channel) : Queue t' channel where
  pointers := by rw [hs.writePointer, hs.readPointer, hs.capacity]; exact h.pointers
  samples := by rw [hwritten, hconsumed, hs.pending]; exact h.samples

theorem bounds_clear (s : AppleSoundChip) (channel : Fin 2) : Bounds s.clearFifos channel :=
  ⟨Nat.zero_le _, Nat.zero_lt_succ _, Nat.zero_lt_succ _⟩

/-- Empty FIFOs, of which nothing is recorded. -/
theorem queue_clear (hs : SameFifos s.clearFifos s') : Queue { chip := s' } channel where
  pointers := by rw [hs.writePointer, hs.readPointer, hs.capacity]; rfl
  samples := by
    have hpending : s'.pending channel = [] := hs.pending
    rw [hpending]
    exact .nil

/-! ## Samples -/

theorem takeSample_other (h : other ≠ channel) :
    (s.takeSample channel).readPointer other = s.readPointer other ∧
      (s.takeSample channel).capacity other = s.capacity other :=
  ⟨Function.update_of_ne h _ _, Function.update_of_ne h _ _⟩

theorem takeSample_pointer (s : AppleSoundChip) (channel : Fin 2) :
    (s.takeSample channel).readPointer channel = (s.readPointer channel + 1) &&& 0x3ff ∧
      (s.takeSample channel).capacity channel = s.capacity channel - 1 :=
  ⟨Function.update_self _ _ _, Function.update_self _ _ _⟩

theorem takeSample_bounds (h : Bounds s other) (hcapacity : s.capacity channel ≠ 0) :
    Bounds (s.takeSample channel) other := by
  by_cases ho : other = channel
  · subst ho
    obtain ⟨hr, hc⟩ := takeSample_pointer s other
    refine ⟨?_, ?_, h.writePointer⟩
    · rw [hc]
      have := toNat_pred _ hcapacity
      have := h.level
      omega
    · rw [hr, toNat_next]
      exact Nat.mod_lt _ (by decide)
  · obtain ⟨hr, hc⟩ := takeSample_other ho
    exact ⟨by rw [hc]; exact h.level, by rw [hr]; exact h.readPointer, h.writePointer⟩

/-- What is taken is the oldest sample that is pending. -/
theorem takeSample_pending (h : Bounds s channel) (hcapacity : s.capacity channel ≠ 0) :
    s.pending channel =
      s.fifo channel (s.readPointer channel).toNat :: (s.takeSample channel).pending channel := by
  obtain ⟨hr, hc⟩ := takeSample_pointer s channel
  unfold AppleSoundChip.pending
  rw [hr, hc, toNat_next, ← toNat_pred _ hcapacity, Ring.contents_pop,
    Nat.mod_eq_of_lt h.readPointer]
  rfl

theorem consume_bounds (h : Bounds t.chip other) : Bounds (t.consume channel).chip other := by
  refine Bounds.congr ?_ (consume_fifos t.chip channel)
  by_cases hcapacity : t.chip.capacity channel ≠ 0
  · rw [if_pos hcapacity]
    exact takeSample_bounds h hcapacity
  · rw [if_neg hcapacity]
    exact h

theorem consume_queue (hb : Bounds t.chip other) (h : Queue t other) :
    Queue (t.consume channel) other := by
  have hfifos := consume_fifos t.chip channel
  by_cases hcapacity : t.chip.capacity channel ≠ 0
  · rw [if_pos hcapacity] at hfifos
    have hconsumed : (t.consume channel).consumed = Function.update t.consumed channel
        (t.consumed channel ++ [t.chip.fifo channel (t.chip.readPointer channel).toNat]) :=
      if_pos hcapacity
    have hsame : Queue { t with
        chip := t.chip.takeSample channel, consumed := (t.consume channel).consumed } other := by
      by_cases ho : other = channel
      · subst ho
        obtain ⟨hr, hc⟩ := takeSample_pointer t.chip other
        refine ⟨?_, ?_⟩
        · show (t.chip.writePointer other).toNat = _
          rw [h.pointers, hr, hc, toNat_next, ← toNat_pred _ hcapacity,
            Nat.mod_add_mod, Nat.add_assoc, Nat.add_comm 1]
        · have hsamples := h.samples
          rw [takeSample_pending hb hcapacity] at hsamples
          show Kept (t.written other) ((t.consume other).consumed other ++ _)
          rw [hconsumed, Function.update_self, List.append_assoc]
          exact hsamples
      · obtain ⟨hr, hc⟩ := takeSample_other (s := t.chip) ho
        refine ⟨?_, ?_⟩
        · show (t.chip.writePointer other).toNat = _
          rw [h.pointers, hr, hc]
        · have hpending : (t.chip.takeSample channel).pending other = t.chip.pending other := by
            unfold AppleSoundChip.pending
            rw [hr, hc]
            rfl
          show Kept (t.written other) ((t.consume channel).consumed other ++ _)
          rw [hconsumed, Function.update_of_ne ho, hpending]
          exact h.samples
    exact hsame.congr hfifos rfl rfl
  · rw [if_neg hcapacity] at hfifos
    have hconsumed : (t.consume channel).consumed = t.consumed := if_neg hcapacity
    exact h.congr hfifos rfl (congrFun hconsumed other)

end

/-! ## Time -/

section
variable {t : Traced} {channel : Fin 2}

/-- What every sample preserves is preserved as time passes. -/
theorem tick_preserves {P : Traced → Prop} (hconsume : ∀ t channel, P t → P (t.consume channel))
    (haccumulator : ∀ t accumulator, P t →
      P { t with chip := t.chip.setAccumulator accumulator })
    (h : P t) (cpuCycles : UInt64) : P (t.tick cpuCycles) := by
  have hsample : ∀ stereo t, P t → P (t.playSample stereo) := by
    intro stereo t h
    cases stereo with
    | false => exact hconsume t 0 h
    | true => exact hconsume _ 1 (hconsume t 0 h)
  have hiterate : ∀ stereo n t, P t → P ((Traced.playSample stereo)^[n] t) := by
    intro stereo n
    induction n with
    | zero => exact fun t h => h
    | succ n ih => exact fun t h => ih _ (hsample stereo t h)
  by_cases hplaying : t.chip.playing
  · rw [Traced.tick, if_pos hplaying]
    exact hiterate _ _ _ (haccumulator t _ h)
  · rw [Traced.tick, if_neg hplaying]
    exact h

/-- Both FIFOs stay within their cells. -/
def InCells (t : Traced) : Prop := ∀ channel, Bounds t.chip channel

/-- Both FIFOs are queues. -/
def Queues (t : Traced) : Prop := ∀ channel, Queue t channel

theorem tick_inCells (h : InCells t) (cpuCycles : UInt64) : InCells (t.tick cpuCycles) :=
  tick_preserves (fun _ _ h other => consume_bounds (h other))
    (fun _ accumulator h other => (h other).setAccumulator accumulator) h cpuCycles

theorem tick_queues (hb : InCells t) (h : Queues t) (cpuCycles : UInt64) :
    Queues (t.tick cpuCycles) := by
  have hboth := tick_preserves (P := fun t => InCells t ∧ Queues t)
    (fun _ _ h => ⟨fun other => consume_bounds (h.1 other),
      fun other => consume_queue (h.1 other) (h.2 other)⟩)
    (fun _ accumulator h => ⟨fun other => (h.1 other).setAccumulator accumulator,
      fun other => (h.2 other).congr ⟨rfl, rfl, rfl, rfl⟩ rfl rfl⟩) ⟨hb, h⟩ cpuCycles
  exact hboth.2

/-! ## Writes -/

theorem writeFifo_level (s : AppleSoundChip) (channel : Fin 2) (value : UInt8) :
    (s.writeFifo channel value).capacity channel =
      if s.capacity channel < 0x400 then s.capacity channel + 1 else s.capacity channel :=
  Function.update_self _ _ _

theorem writeFifo_pointer (s : AppleSoundChip) (channel : Fin 2) (value : UInt8) :
    ((s.writeFifo channel value).writePointer channel).toNat =
      ((s.writePointer channel).toNat + 1) % 0x400 := by
  rw [← toNat_next]
  exact congrArg UInt16.toNat (Function.update_self _ _ _)

theorem writeFifo_other {other : Fin 2} (h : other ≠ channel) (s : AppleSoundChip) (value : UInt8) :
    (s.writeFifo channel value).fifo other = s.fifo other ∧
      (s.writeFifo channel value).writePointer other = s.writePointer other ∧
      (s.writeFifo channel value).capacity other = s.capacity other :=
  ⟨Function.update_of_ne h _ _, Function.update_of_ne h _ _, Function.update_of_ne h _ _⟩

theorem writeFifo_bounds {s : AppleSoundChip} {other : Fin 2} (h : Bounds s other) (value : UInt8) :
    Bounds (s.writeFifo channel value) other := by
  by_cases ho : other = channel
  · subst ho
    refine ⟨?_, h.readPointer, ?_⟩
    · rw [writeFifo_level]
      split_ifs with hfree
      · have hlt := UInt16.lt_iff_toNat_lt.1 hfree
        rw [toNat_succ _ hlt]
        exact hlt
      · exact h.level
    · rw [writeFifo_pointer]
      exact Nat.mod_lt _ (by decide)
  · obtain ⟨-, hw, hc⟩ := writeFifo_other ho s value
    exact ⟨by rw [hc]; exact h.level, h.readPointer, by rw [hw]; exact h.writePointer⟩

/-- A write to a FIFO, and its record. -/
def Traced.writeFifo (t : Traced) (channel : Fin 2) (value : UInt8) : Traced :=
  { t with
    chip := t.chip.writeFifo channel value
    written := Function.update t.written channel
      (t.written channel ++ [(value, t.chip.capacity channel == 0x400)]) }

theorem writeFifo_queue_other {other : Fin 2} (h : Queue t other) (ho : other ≠ channel)
    (value : UInt8) : Queue (t.writeFifo channel value) other := by
  obtain ⟨hf, hw, hc⟩ := writeFifo_other ho t.chip value
  have hpending : (t.chip.writeFifo channel value).pending other = t.chip.pending other := by
    unfold AppleSoundChip.pending
    rw [hf, hc]
    rfl
  have hwritten : (t.writeFifo channel value).written other = t.written other :=
    Function.update_of_ne ho _ _
  refine ⟨?_, ?_⟩
  · show ((t.chip.writeFifo channel value).writePointer other).toNat = _
    rw [hw, h.pointers]
    exact congrArg (fun c : UInt16 => (_ + c.toNat) % 0x400) hc.symm
  · rw [hwritten]
    show Kept _ (t.consumed other ++ (t.chip.writeFifo channel value).pending other)
    rw [hpending]
    exact h.samples

/-- A FIFO that is not full takes one more sample. -/
theorem writeFifo_queue (hb : Bounds t.chip channel) (h : Queue t channel)
    (hfree : t.chip.capacity channel ≠ 0x400) (value : UInt8) :
    Queue (t.writeFifo channel value) channel := by
  have hlt : (t.chip.capacity channel).toNat < 0x400 :=
    lt_of_le_of_ne hb.level fun he => hfree (UInt16.toNat_inj.1 he)
  have hcapacity : ((t.chip.writeFifo channel value).capacity channel).toNat =
      (t.chip.capacity channel).toNat + 1 := by
    rw [writeFifo_level, if_pos (UInt16.lt_iff_toNat_lt.2 hlt), toNat_succ _ hlt]
  refine ⟨?_, ?_⟩
  · show ((t.chip.writeFifo channel value).writePointer channel).toNat = _
    rw [writeFifo_pointer, h.pointers, Nat.mod_add_mod, Nat.add_assoc]
    exact congrArg (fun c => (_ + c) % 0x400) hcapacity.symm
  · have hwritten : (t.writeFifo channel value).written channel =
        t.written channel ++ [(value, t.chip.capacity channel == 0x400)] :=
      Function.update_self _ _ _
    have hfifo : (t.chip.writeFifo channel value).fifo channel =
        Function.update (t.chip.fifo channel) (t.chip.writePointer channel).toNat value :=
      Function.update_self _ _ _
    have hpending : (t.chip.writeFifo channel value).pending channel =
        t.chip.pending channel ++ [value] := by
      unfold AppleSoundChip.pending
      rw [hfifo, hcapacity, h.pointers]
      exact Ring.contents_push hlt value
    rw [hwritten]
    show Kept _ (t.consumed channel ++ (t.chip.writeFifo channel value).pending channel)
    rw [hpending, ← List.append_assoc]
    exact h.samples.push value _

/-- A write to a full FIFO moves the pointer away from the level. -/
theorem writeFifo_full (h : Queue t channel) (hfull : t.chip.capacity channel = 0x400)
    (value : UInt8) : ¬ Queue (t.writeFifo channel value) channel := by
  intro h'
  have hpointers := h'.pointers
  have hcapacity : (t.chip.writeFifo channel value).capacity channel = 0x400 := by
    rw [writeFifo_level, hfull]
    rfl
  change ((t.chip.writeFifo channel value).writePointer channel).toNat =
    ((t.chip.readPointer channel).toNat +
      ((t.chip.writeFifo channel value).capacity channel).toNat) % 0x400 at hpointers
  have hold := h.pointers
  rw [writeFifo_pointer, hcapacity] at hpointers
  rw [hfull] at hold
  have hlevel : (0x400 : UInt16).toNat = 0x400 := rfl
  omega

/-- The newest sample takes the place of the oldest one. -/
theorem writeFifo_overwrites (h : Queue t channel) (hfull : t.chip.capacity channel = 0x400)
    (value : UInt8) :
    (t.chip.writeFifo channel value).pending channel = value :: (t.chip.pending channel).tail := by
  have hcapacity : (t.chip.writeFifo channel value).capacity channel = 0x400 := by
    rw [writeFifo_level, hfull]
    rfl
  have hfifo : (t.chip.writeFifo channel value).fifo channel =
      Function.update (t.chip.fifo channel) (t.chip.writePointer channel).toNat value :=
    Function.update_self _ _ _
  have hplace : (t.chip.writePointer channel).toNat = (t.chip.readPointer channel).toNat % 0x400 := by
    rw [h.pointers, hfull]
    exact Nat.add_mod_right _ _
  unfold AppleSoundChip.pending
  rw [hfifo, hcapacity, hplace, hfull]
  exact Ring.contents_overwrite (by decide) value

end

/-! ## Runs -/

/-- No FIFO is written to that is full. -/
def NotFull (t : Traced) : Op → Prop
  | .write offset _ =>
    offset &&& 0x0fff < 0x800 → t.chip.capacity (fifoOf (offset &&& 0x0fff)) ≠ 0x400
  | _ => True

theorem reset_fifos (s : AppleSoundChip) : SameFifos ({ s with fifo := fun _ _ => 0 }).clearFifos s.reset := by
  unfold AppleSoundChip.reset
  split_ifs <;> exact ⟨rfl, rfl, rfl, rfl⟩

section
variable {t : Traced}

theorem write_inCells (h : InCells t) (offset : UInt16) (value : UInt8) :
    InCells (t.write offset value) := by
  intro channel
  rw [show (t.write offset value).chip = t.chip.write offset value from
    t.step_chip (.write offset value)]
  dsimp only [AppleSoundChip.write]
  split_ifs
  · exact writeFifo_bounds (h channel) value
  · refine Bounds.congr ?_ (writeRegister_fifos t.chip _ value)
    split_ifs
    · exact bounds_clear t.chip channel
    · exact h channel

theorem step_inCells (h : InCells t) (op : Op) : InCells (t.step op) := by
  cases op with
  | write offset value => exact write_inCells h offset value
  | read offset => exact fun channel => (h channel).congr (read_fifos t.chip offset)
  | tick cpuCycles => exact tick_inCells h cpuCycles
  | reset => exact fun channel => (bounds_clear _ channel).congr (reset_fifos t.chip)

/-- A write keeps the queues exactly if it does not meet a full one. -/
theorem write_queues (hb : InCells t) (h : Queues t) (offset : UInt16) (value : UInt8) :
    Queues (t.write offset value) ↔ NotFull t (.write offset value) := by
  by_cases hfifo : offset &&& 0x0fff < 0x800
  · have hwrite : t.write offset value = t.writeFifo (fifoOf (offset &&& 0x0fff)) value := by
      dsimp only [Traced.write, AppleSoundChip.write, Traced.writeFifo]
      rw [if_pos hfifo, if_pos hfifo]
    rw [hwrite]
    constructor
    · exact fun hqueues _ hfull => writeFifo_full (h _) hfull value (hqueues _)
    · intro hfree channel
      by_cases ho : channel = fifoOf (offset &&& 0x0fff)
      · subst ho
        exact writeFifo_queue (hb _) (h _) (hfree hfifo) value
      · exact writeFifo_queue_other (h channel) ho value
  · refine iff_of_true (fun channel => ?_) fun hlt => absurd hlt hfifo
    have hfifos := writeRegister_fifos t.chip (offset &&& 0x0fff) value
    dsimp only [Traced.write, AppleSoundChip.write]
    rw [if_neg hfifo, if_neg hfifo]
    by_cases hclears : t.chip.clears (offset &&& 0x0fff) value
    · rw [if_pos hclears] at hfifos ⊢
      exact queue_clear hfifos
    · rw [if_neg hclears] at hfifos ⊢
      exact (h channel).congr hfifos rfl rfl

theorem step_queues (hb : InCells t) (h : Queues t) (op : Op) :
    Queues (t.step op) ↔ NotFull t op := by
  cases op with
  | write offset value => exact write_queues hb h offset value
  | read offset =>
    exact iff_of_true (fun channel => (h channel).congr (read_fifos t.chip offset) rfl rfl) trivial
  | tick cpuCycles => exact iff_of_true (tick_queues hb h cpuCycles) trivial
  | reset => exact iff_of_true (fun _ => queue_clear (reset_fifos t.chip)) trivial

end

/-- A chip as it is built. -/
def start (model : Model) : Traced := { chip := { model := model } }

/-- The FIFOs are queues through a run exactly if none is written to that is full. -/
theorem queue_iff (model : Model) (ops : List Op) :
    (∀ done, done <+: ops → ∀ channel, Queue (run Traced.step (start model) done) channel) ↔
      Guarded Traced.step NotFull (start model) ops := by
  have hcells : InCells (start model) := bounds_clear { model := model }
  have hqueues : Queues (start model) := fun _ => queue_clear (s := { model := model }) ⟨rfl, rfl, rfl, rfl⟩
  have hiff : (∀ done, done <+: ops → InCells (run Traced.step (start model) done) ∧
      Queues (run Traced.step (start model) done)) ↔
        Guarded Traced.step NotFull (start model) ops :=
    prefixes_inv_iff_guarded (I := fun t => InCells t ∧ Queues t)
      (fun t op h => (and_iff_right (step_inCells h.1 op)).trans (step_queues h.1 h.2 op))
      ⟨hcells, hqueues⟩ ops
  rw [← hiff]
  refine forall₂_congr fun done _ => (and_iff_right ?_).symm
  exact run_inv (I := InCells) (fun _ op h => step_inCells h op) hcells done

/-- The level while a FIFO fills up. -/
theorem burst_level (model : Model) (value : UInt8) {n : Nat} (hn : n ≤ 0x400) :
    ((run Traced.step (start model) (List.replicate n (.write 0 value))).chip.capacity 0).toNat
      = n := by
  induction n with
  | zero => rfl
  | succ n ih =>
    have hlevel := ih (by omega)
    rw [List.replicate_succ', run_append]
    generalize run Traced.step (start model) (List.replicate n (.write 0 value)) = t at hlevel ⊢
    have hlt : (t.chip.capacity 0).toNat < 0x400 := by omega
    show ((t.chip.writeFifo 0 value).capacity 0).toNat = n + 1
    rw [writeFifo_level, if_pos (UInt16.lt_iff_toNat_lt.2 hlt), toNat_succ _ hlt, hlevel]

/-- One sample too many. -/
theorem queue_overrun :
    ¬ ∀ (model : Model) (ops : List Op) (channel : Fin 2),
      Queue (run Traced.step (start model) ops) channel := by
  intro h
  have hfull := h .original (List.replicate 0x400 (.write 0 0)) 0
  have hover := h .original (List.replicate 0x400 (.write 0 0) ++ [.write 0 0]) 0
  have hlevel := burst_level .original 0 (n := 0x400) (Nat.le_refl _)
  rw [run_append] at hover
  generalize run Traced.step (start .original) (List.replicate 0x400 (.write 0 0)) = t
    at hfull hover hlevel
  exact writeFifo_full hfull (UInt16.toNat_inj.1 hlevel) 0 hover

end CuteMac.Audio
