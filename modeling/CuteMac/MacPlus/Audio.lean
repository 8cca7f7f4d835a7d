/-
  The sound of the Macintosh Plus (`MacPlusMachine.cpp`).

  * `MacPlusAudio`, `advanceAudio`, `takeAudioFrame`: samples, and the frames of their bytes;
  * `Traced`: the machine, with the samples since the last frame;
  * `Whole`: the bytes of a frame are those of its last samples;
  * `whole_iff`: it holds as long as nothing is removed from the front.

  The limit on the bytes is odd: what is left behind it starts in the middle of a sample.
-/
import CuteMac.Lib.Machine
import Mathlib.Logic.Function.Iterate
import Mathlib.Order.Nat
import CuteMac.Lib.BankSizes

namespace CuteMac.MacPlus

open Machine

def soundSamples : UInt32 := 370
def soundMainOffset : UInt32 := 0x300
def soundAlternateOffset : UInt32 := 0x5f00
def soundSampleRate : Nat := 22255
def cyclesPerVideoFrame : UInt64 := 130560
def maxPendingAudioBytes : Nat := soundSampleRate / 2
def viaSoundPageBit : UInt8 := 0x08

/-- What the rest of the machine shows to the sound circuit. -/
structure SoundSource where
  debugRead8 : UInt32 → UInt8 := fun _ => 0
  ramSize : UInt32 := 0x100000
  viaPortA : UInt8 := 0
  soundVolume : Fin 8 := 3
  soundEnabled : Bool := false

structure MacPlusAudio where
  source : SoundSource := {}
  pendingAudio : List UInt8 := []
  audioCyclePhase : UInt64 := 0
  audioBufferIndex : UInt32 := 0
  audioPlaybackActive : Bool := false

structure AudioFrame where
  sampleRate : Nat
  channels : Nat
  samples : List UInt8

def SoundSource.soundBufferBase (source : SoundSource) (mainPage : Bool) : UInt32 :=
  let offset := if mainPage then soundMainOffset else soundAlternateOffset
  if offset ≤ source.ramSize then source.ramSize - offset else 0

/-- The bytes of a sample, the low one first. -/
def sampleBytes (sample : Int16) : List UInt8 :=
  [sample.toUInt16.toUInt8, (sample.toUInt16 >>> 8).toUInt8]

namespace MacPlusAudio

def sample (s : MacPlusAudio) : Int16 :=
  if s.source.soundEnabled then
    let base := s.source.soundBufferBase (s.source.viaPortA &&& viaSoundPageBit != 0)
    let source : Int := (s.source.debugRead8 (base + s.audioBufferIndex * 2)).toNat - 128
    Int16.ofInt ((source * 256).tdiv (8 - s.source.soundVolume.val))
  else 0

/-- One round of the loop of `advanceAudio`. -/
def emitSample (s : MacPlusAudio) : MacPlusAudio :=
  { s with
    audioCyclePhase := s.audioCyclePhase - cyclesPerVideoFrame
    audioPlaybackActive := s.audioPlaybackActive || s.sample != 0
    pendingAudio := s.pendingAudio ++ sampleBytes s.sample
    audioBufferIndex := (s.audioBufferIndex + 1) % soundSamples }

/-- The phase grows with the cycles. -/
def addCycles (s : MacPlusAudio) (cycles : Int32) : MacPlusAudio :=
  { s with
    audioCyclePhase := s.audioCyclePhase + cycles.toInt64.toUInt64 * soundSamples.toUInt64 }

/-- The rounds of the loop, which takes a sample off the phase as often as there is one in it. -/
def rounds (s : MacPlusAudio) : Nat := (s.audioCyclePhase / cyclesPerVideoFrame).toNat

def trimAudio (s : MacPlusAudio) : MacPlusAudio :=
  if maxPendingAudioBytes < s.pendingAudio.length then
    { s with pendingAudio := s.pendingAudio.drop (s.pendingAudio.length - maxPendingAudioBytes) }
  else s

def advanceAudio (s : MacPlusAudio) (cycles : Int32) : MacPlusAudio :=
  let s := s.addCycles cycles
  (emitSample^[s.rounds] s).trimAudio

def takeAudioFrame (s : MacPlusAudio) : AudioFrame × MacPlusAudio :=
  ({ sampleRate := soundSampleRate, channels := 1, samples := s.pendingAudio },
    { s with pendingAudio := [] })

def reset (s : MacPlusAudio) : MacPlusAudio :=
  { s with
    pendingAudio := [], audioCyclePhase := 0, audioBufferIndex := 0, audioPlaybackActive := false }

/-- The samples of some rounds. -/
def emitted : Nat → MacPlusAudio → List Int16
  | 0, _ => []
  | n + 1, s => s.sample :: emitted n s.emitSample

end MacPlusAudio

/-! ## Runs -/

namespace Audio

inductive Op where
  | advanceAudio (cycles : Int32)
  | takeAudioFrame
  /-- The memory, the adapter or the volume change. -/
  | machine (source : SoundSource)
  | runCycles
  | reset

/-- The machine, and the samples that it made since the last frame. -/
structure Traced where
  machine : MacPlusAudio := {}
  produced : List Int16 := []

def step (t : Traced) : Op → Traced
  | .advanceAudio cycles =>
    let s := t.machine.addCycles cycles
    { machine := t.machine.advanceAudio cycles, produced := t.produced ++ s.emitted s.rounds }
  | .takeAudioFrame => { machine := t.machine.takeAudioFrame.2 }
  | .machine source => { t with machine := { t.machine with source := source } }
  | .runCycles => { t with machine := { t.machine with audioPlaybackActive := false } }
  | .reset => { machine := t.machine.reset }

end Audio

/-! ## Samples -/

@[simp] theorem length_sampleBytes (sample : Int16) : (sampleBytes sample).length = 2 := rfl

theorem length_bytes (samples : List Int16) :
    (samples.flatMap sampleBytes).length = 2 * samples.length := by
  induction samples with
  | nil => rfl
  | cons sample samples ih =>
    rw [List.flatMap_cons, List.length_append, length_sampleBytes, ih, List.length_cons]
    omega

namespace MacPlusAudio

theorem length_emitted (n : Nat) (s : MacPlusAudio) : (s.emitted n).length = n := by
  induction n generalizing s with
  | zero => rfl
  | succ n ih => rw [emitted, List.length_cons, ih]

theorem iterate_pendingAudio (n : Nat) (s : MacPlusAudio) :
    (emitSample^[n] s).pendingAudio = s.pendingAudio ++ (s.emitted n).flatMap sampleBytes := by
  induction n generalizing s with
  | zero => exact (List.append_nil _).symm
  | succ n ih =>
    rw [Function.iterate_succ_apply, ih, emitted, List.flatMap_cons, ← List.append_assoc]
    rfl

theorem length_advanced (s : MacPlusAudio) (n : Nat) :
    (emitSample^[n] s).pendingAudio.length = s.pendingAudio.length + 2 * n := by
  rw [iterate_pendingAudio, List.length_append, length_bytes, length_emitted]

theorem trimAudio_of_le {s : MacPlusAudio} (h : s.pendingAudio.length ≤ maxPendingAudioBytes) :
    s.trimAudio = s := if_neg (Nat.not_lt.2 h)

theorem length_trimAudio {s : MacPlusAudio} (h : maxPendingAudioBytes < s.pendingAudio.length) :
    s.trimAudio.pendingAudio.length = maxPendingAudioBytes := by
  simp only [trimAudio, if_pos h, List.length_drop]
  omega

/-- The phase that is left when the loop has taken some samples off it. -/
theorem iterate_phase {n : Nat} (s : MacPlusAudio)
    (h : n * cyclesPerVideoFrame.toNat ≤ s.audioCyclePhase.toNat) :
    (emitSample^[n] s).audioCyclePhase.toNat =
      s.audioCyclePhase.toNat - n * cyclesPerVideoFrame.toNat := by
  induction n generalizing s with
  | zero => rw [Nat.zero_mul]; rfl
  | succ n ih =>
    rw [Nat.succ_mul] at h
    have hone : s.emitSample.audioCyclePhase.toNat =
        s.audioCyclePhase.toNat - cyclesPerVideoFrame.toNat :=
      UInt64.toNat_sub_of_le _ _ (UInt64.le_iff_toNat_le.2 (by omega))
    rw [Function.iterate_succ_apply, ih _ (by omega), hone, Nat.succ_mul]
    omega

/-- The loop leaves less than the phase of a sample. -/
theorem advanceAudio_phase (s : MacPlusAudio) (cycles : Int32) :
    (s.advanceAudio cycles).audioCyclePhase.toNat =
      (s.addCycles cycles).audioCyclePhase.toNat % cyclesPerVideoFrame.toNat := by
  have htrim : ∀ t : MacPlusAudio, t.trimAudio.audioCyclePhase = t.audioCyclePhase := by
    intro t
    unfold trimAudio
    split_ifs <;> rfl
  have hrounds : (s.addCycles cycles).rounds =
      (s.addCycles cycles).audioCyclePhase.toNat / cyclesPerVideoFrame.toNat :=
    UInt64.toNat_div _ _
  have hmod := Nat.div_add_mod' (s.addCycles cycles).audioCyclePhase.toNat
    cyclesPerVideoFrame.toNat
  unfold advanceAudio
  rw [htrim, iterate_phase _ (by rw [hrounds]; omega), hrounds]
  omega

end MacPlusAudio

/-! ## Frames -/

namespace Audio

/-- The frame that can be taken is made of whole samples, the last ones that were made; older
    ones are left out only where the limit is exceeded. -/
def Whole (t : Traced) : Prop :=
  ∃ dropped kept, t.produced = dropped ++ kept ∧
    t.machine.takeAudioFrame.1.samples = kept.flatMap sampleBytes ∧
    (dropped ≠ [] → maxPendingAudioBytes < 2 * t.produced.length)

/-- The bytes that are pending do not exceed the limit. -/
def Fits (t : Traced) : Op → Prop
  | .advanceAudio cycles =>
    t.machine.pendingAudio.length + 2 * (t.machine.addCycles cycles).rounds ≤ maxPendingAudioBytes
  | _ => True

theorem advanceAudio_whole {t : Traced} (h : Whole t) (cycles : Int32) :
    Whole (step t (.advanceAudio cycles)) ↔ Fits t (.advanceAudio cycles) := by
  obtain ⟨dropped, kept, hproduced, hpending, hlimit⟩ := h
  have hpending : t.machine.pendingAudio = kept.flatMap sampleBytes := hpending
  set s := t.machine.addCycles cycles with hs
  have hlength := s.length_advanced s.rounds
  have hbytes : (MacPlusAudio.emitSample^[s.rounds] s).pendingAudio =
      (kept ++ s.emitted s.rounds).flatMap sampleBytes := by
    rw [s.iterate_pendingAudio, List.flatMap_append]
    exact congrArg (· ++ _) hpending
  constructor
  · rintro ⟨dropped', kept', -, hpending', -⟩
    by_contra hfits
    have hover : maxPendingAudioBytes <
        (MacPlusAudio.emitSample^[s.rounds] s).pendingAudio.length := by
      rw [hlength]
      exact Nat.not_le.1 hfits
    -- the limit is odd, the bytes of samples are even
    have hodd := congrArg List.length hpending'
    rw [length_bytes] at hodd
    have htrimmed := MacPlusAudio.length_trimAudio hover
    have hmax : maxPendingAudioBytes = 11127 := rfl
    change ((MacPlusAudio.emitSample^[s.rounds] s).trimAudio).pendingAudio.length = _ at hodd
    omega
  · intro hfits
    have hle : (MacPlusAudio.emitSample^[s.rounds] s).pendingAudio.length ≤ maxPendingAudioBytes := by
      rw [hlength]
      exact hfits
    refine ⟨dropped, kept ++ s.emitted s.rounds, ?_, ?_, ?_⟩
    · show t.produced ++ s.emitted s.rounds = _
      rw [hproduced, List.append_assoc]
    · show ((MacPlusAudio.emitSample^[s.rounds] s).trimAudio).pendingAudio = _
      rw [MacPlusAudio.trimAudio_of_le hle, hbytes]
    · intro hne
      have hold := hlimit hne
      show _ < 2 * (t.produced ++ s.emitted s.rounds).length
      rw [List.length_append]
      omega

theorem step_whole {t : Traced} (h : Whole t) (op : Op) : Whole (step t op) ↔ Fits t op := by
  cases op with
  | advanceAudio cycles => exact advanceAudio_whole h cycles
  | takeAudioFrame => exact iff_of_true ⟨[], [], rfl, rfl, fun hne => absurd rfl hne⟩ trivial
  | machine source => exact iff_of_true h trivial
  | runCycles => exact iff_of_true h trivial
  | reset => exact iff_of_true ⟨[], [], rfl, rfl, fun hne => absurd rfl hne⟩ trivial

/-- Frames of a run are made of whole samples exactly if the limit is never exceeded. -/
theorem whole_iff (ops : List Op) :
    (∀ done, done <+: ops → Whole (run step {} done)) ↔ Guarded step Fits {} ops :=
  prefixes_inv_iff_guarded (I := Whole) (fun _ op h => step_whole h op)
    ⟨[], [], rfl, rfl, fun hne => absurd rfl hne⟩ ops

/-- A call for 353 cycles makes a sample, or two. -/
theorem rounds_pos {s : MacPlusAudio} (h : s.audioCyclePhase.toNat < cyclesPerVideoFrame.toNat) :
    0 < (s.addCycles 353).rounds := by
  have hframe : cyclesPerVideoFrame.toNat = 130560 := rfl
  have hmore : ((353 : Int32).toInt64.toUInt64 * soundSamples.toUInt64).toNat = 130610 := by decide
  have hphase : (s.addCycles 353).audioCyclePhase.toNat = s.audioCyclePhase.toNat + 130610 := by
    show (s.audioCyclePhase + _).toNat = _
    rw [UInt64.toNat_add, hmore]
    exact Nat.mod_eq_of_lt (by omega)
  unfold MacPlusAudio.rounds
  rw [UInt64.toNat_div, hphase, hframe]
  omega

theorem step_length {t : Traced} {cycles : Int32} (h : Fits t (.advanceAudio cycles)) :
    (step t (.advanceAudio cycles)).machine.pendingAudio.length =
      t.machine.pendingAudio.length + 2 * (t.machine.addCycles cycles).rounds := by
  have hlength := (t.machine.addCycles cycles).length_advanced (t.machine.addCycles cycles).rounds
  show ((MacPlusAudio.emitSample^[_] (t.machine.addCycles cycles)).trimAudio).pendingAudio.length = _
  rw [MacPlusAudio.trimAudio_of_le (hlength.le.trans h), hlength]
  rfl

/-- A quarter of a second without a frame. -/
theorem frame_of_parts : ¬ ∀ ops : List Op, Whole (run step {} ops) := by
  intro h
  let t : Nat → Traced := fun n => run step {} (List.replicate n (.advanceAudio 353))
  have hsucc : ∀ n, t (n + 1) = step (t n) (.advanceAudio 353) := by
    intro n
    show run step {} (List.replicate (n + 1) (.advanceAudio 353)) = _
    rw [List.replicate_succ', run_append]
    rfl
  have hwhole : ∀ n, Whole (t n) := fun n => h _
  have hphase : ∀ n, (t n).machine.audioCyclePhase.toNat < cyclesPerVideoFrame.toNat := by
    intro n
    cases n with
    | zero => decide
    | succ n =>
      rw [hsucc]
      show ((t n).machine.advanceAudio 353).audioCyclePhase.toNat < _
      rw [MacPlusAudio.advanceAudio_phase]
      exact Nat.mod_lt _ (by decide)
  have hfits : ∀ n, Fits (t n) (.advanceAudio 353) := fun n =>
    (advanceAudio_whole (hwhole n) 353).1 (hsucc n ▸ hwhole (n + 1))
  have hlength : ∀ n, 2 * n ≤ (t n).machine.pendingAudio.length := by
    intro n
    induction n with
    | zero => exact Nat.zero_le _
    | succ n ih =>
      have hpos := rounds_pos (hphase n)
      rw [hsucc, step_length (hfits n)]
      omega
  have hover := hlength 5564
  have hmax : maxPendingAudioBytes = 11127 := rfl
  have hle : (t 5564).machine.pendingAudio.length ≤ maxPendingAudioBytes :=
    (Nat.le_add_right _ _).trans (hfits 5564)
  omega

end Audio

end CuteMac.MacPlus
