/-
  The counters of the Cuda while the host waits.

  * `HostStep`, `step`: what the host does to the lines, and the clock;
  * `View`, `At`: what a transaction is about, and a state in which no counter runs;
  * `run_ticks_shift`, `run_ticks_idle`, `run_ticks_treq`: a counter that runs out does so
    once, however the time is cut up.
-/
import CuteMac.Cuda.Packets
import CuteMac.Lib.Machine
import Mathlib.Algebra.GroupWithZero.Nat

namespace CuteMac.Cuda

open CuteMac.Via Machine CudaController

/-! ## The host -/

inductive HostStep where
  | auxiliaryControl (value : UInt8)
  | stage (value : UInt8)
  | portB (output direction : UInt8) (unixSeconds : Int)
  | tick (cycles : Nat)

def step (s : CudaController) : HostStep → CudaController
  | .auxiliaryControl value => { s with via := s.via.map fun via => via.writeRegister 11 value }
  | .stage value => s.shiftByteFromHost value
  | .portB output direction unixSeconds => s.portBChanged output direction unixSeconds
  | .tick cycles => s.tick cycles

def ticks (cycles : List Nat) : List HostStep := cycles.map .tick

/-! ## Waiting -/

/-- What a transaction is about. -/
structure View where
  cells : Nat → UInt8
  input : List UInt8
  output : List UInt8
  position : Nat
  tip : Bool
  byteAck : Bool
  events : List Event

def view (s : CudaController) : View where
  cells := cellsOf s.pram
  input := s.input
  output := s.output
  position := s.outputPosition
  tip := s.lastTip
  byteAck := s.lastByteAck
  events := s.events

def View.log (v : View) (events : List Event) : View := { v with events := v.events ++ events }

/-- No counter runs. -/
structure Calm (s : CudaController) : Prop where
  attached : s.via.isSome
  responseTreq : s.responseTreqCycles ≤ 0
  idleAck : s.idleAckCycles ≤ 0
  shift : s.shiftCycles ≤ 0

/-- The state is calm and shows `v`. -/
structure At (s : CudaController) (v : View) : Prop where
  calm : Calm s
  view : view s = v

section
variable {s : CudaController} {cycles : Nat} (cs : List Nat)

/-- What the end of a shift does to the adapter. -/
def shiftEvents (s : CudaController) : List Event :=
  if s.shiftOutCompletion then [.shiftOut]
  else .shiftIn s.pendingShiftValue :: (if s.releaseTreqAfterShift then [.treq true] else [])

theorem callVia_of_isSome (h : s.via.isSome) (event : Event) (call : Via6522 → Via6522) :
    ∃ via, s.callVia event call = { s with via := some via, events := s.events ++ [event] } := by
  obtain ⟨via, hvia⟩ := Option.isSome_iff_exists.1 h
  exact ⟨call via, by rw [callVia, hvia]⟩

theorem shiftDone_spec (h : s.via.isSome) : ∃ via release, s.shiftDone =
    { s with
      via := some via
      releaseTreqAfterShift := release
      events := s.events ++ shiftEvents s } := by
  rw [shiftDone, shiftEvents]
  by_cases hout : s.shiftOutCompletion = true
  · rw [if_pos hout, if_pos hout]
    obtain ⟨via, hcall⟩ := callVia_of_isSome h .shiftOut fun via => via.externalShiftOutComplete
    exact ⟨via, s.releaseTreqAfterShift, hcall⟩
  · rw [if_neg hout, if_neg hout]
    obtain ⟨via, hcall⟩ := callVia_of_isSome h (.shiftIn s.pendingShiftValue)
      fun via => via.externalShiftIn s.pendingShiftValue
    rw [externalShiftIn, hcall]
    by_cases hrelease : s.releaseTreqAfterShift = true
    · simp only [if_pos hrelease, setTreq, callVia, List.append_assoc, List.singleton_append]
      exact ⟨_, _, rfl⟩
    · simp only [if_neg hrelease]
      exact ⟨_, _, rfl⟩

/-! One tick of one counter: it does not run, goes on, or runs out. -/

theorem tickResponseTreq_idle (h : s.responseTreqCycles ≤ 0) : s.tickResponseTreq cycles = s :=
  if_neg (Int.not_lt.2 h)

theorem tickResponseTreq_on (h : 0 < s.responseTreqCycles - cycles) :
    s.tickResponseTreq cycles
      = { s with responseTreqCycles := s.responseTreqCycles - cycles } := by
  rw [tickResponseTreq, if_pos (by omega)]
  exact if_neg (Int.not_le.2 h)

theorem tickResponseTreq_done (hvia : s.via.isSome) (hpos : 0 < s.responseTreqCycles)
    (h : s.responseTreqCycles - cycles ≤ 0) : ∃ via, s.tickResponseTreq cycles =
      { s with
        via := some via
        responseTreqCycles := s.responseTreqCycles - cycles
        events := s.events ++ [.treq false] } := by
  rw [tickResponseTreq, if_pos hpos]
  obtain ⟨via, hcall⟩ := callVia_of_isSome
    (s := { s with responseTreqCycles := s.responseTreqCycles - cycles }) hvia (.treq false)
    fun via => via.setPortBInputBit treqBit false
  exact ⟨via, (if_pos h).trans hcall⟩

theorem tickIdleAck_idle (h : s.idleAckCycles ≤ 0) : s.tickIdleAck cycles = s :=
  if_neg (Int.not_lt.2 h)

theorem tickIdleAck_on (h : 0 < s.idleAckCycles - cycles) :
    s.tickIdleAck cycles = { s with idleAckCycles := s.idleAckCycles - cycles } := by
  rw [tickIdleAck, if_pos (by omega)]
  exact if_neg (Int.not_le.2 h)

theorem tickIdleAck_done (hvia : s.via.isSome) (hpos : 0 < s.idleAckCycles)
    (h : s.idleAckCycles - cycles ≤ 0) : ∃ via, s.tickIdleAck cycles =
      { s with
        via := some via
        idleAckCycles := s.idleAckCycles - cycles
        events := s.events ++ [.idleAck] } := by
  rw [tickIdleAck, if_pos hpos]
  obtain ⟨via, hcall⟩ := callVia_of_isSome
    (s := { s with idleAckCycles := s.idleAckCycles - cycles }) hvia .idleAck
    fun via => via.externalShiftIn 0
  exact ⟨via, (if_pos h).trans hcall⟩

theorem tickShift_idle (h : s.shiftCycles ≤ 0) : s.tickShift cycles = s := if_neg (Int.not_lt.2 h)

theorem tickShift_on (h : 0 < s.shiftCycles - cycles) :
    s.tickShift cycles = { s with shiftCycles := s.shiftCycles - cycles } := by
  rw [tickShift, if_pos (by omega)]
  exact if_neg (Int.not_le.2 h)

theorem tickShift_done (hvia : s.via.isSome) (hpos : 0 < s.shiftCycles)
    (h : s.shiftCycles - cycles ≤ 0) : ∃ via release, s.tickShift cycles =
      { s with
        via := some via
        shiftCycles := s.shiftCycles - cycles
        releaseTreqAfterShift := release
        events := s.events ++ shiftEvents s } := by
  rw [tickShift, if_pos hpos]
  obtain ⟨via, release, hspec⟩ :=
    shiftDone_spec (s := { s with shiftCycles := s.shiftCycles - cycles }) hvia
  exact ⟨via, release, (if_pos h).trans hspec⟩

theorem tick_attached (hvia : s.via.isSome) :
    s.tick cycles = ((s.tickResponseTreq cycles).tickIdleAck cycles).tickShift cycles := by
  rw [tick, if_neg]
  rw [Option.isNone_iff_eq_none]
  exact Option.isSome_iff_ne_none.1 hvia

theorem run_ticks_cons : run step s (ticks (cycles :: cs)) = run step (s.tick cycles) (ticks cs) :=
  rfl

theorem not_enough {n : Int} (hpos : 0 < n) : ¬ n ≤ (([] : List Nat).sum : Nat) := by
  rw [List.sum_nil]
  exact Int.not_le.2 hpos

theorem enough_cons {n : Int} (h : n ≤ ((cycles :: cs).sum : Nat)) : n - cycles ≤ (cs.sum : Nat) := by
  rw [List.sum_cons, Int.natCast_add] at h
  omega

theorem run_ticks_calm (h : Calm s) : run step s (ticks cs) = s := by
  induction cs with
  | nil => rfl
  | cons c cs ih =>
    rw [run_ticks_cons cs, tick_attached h.attached, tickResponseTreq_idle h.responseTreq,
      tickIdleAck_idle h.idleAck, tickShift_idle h.shift]
    exact ih

theorem At.wait {v : View} (h : At s v) : At (run step s (ticks cs)) v := by
  rw [run_ticks_calm cs h.calm]
  exact h

/-- A shift ends once. -/
theorem run_ticks_shift (hvia : s.via.isSome) (htreq : s.responseTreqCycles ≤ 0)
    (hidle : s.idleAckCycles ≤ 0) (hpos : 0 < s.shiftCycles) (henough : s.shiftCycles ≤ cs.sum) :
    At (run step s (ticks cs)) ((view s).log (shiftEvents s)) := by
  induction cs generalizing s with
  | nil => exact absurd henough (not_enough hpos)
  | cons c cs ih =>
    rw [run_ticks_cons cs, tick_attached hvia, tickResponseTreq_idle htreq, tickIdleAck_idle hidle]
    rcases Int.lt_or_le 0 (s.shiftCycles - c) with hon | hdone
    · rw [tickShift_on hon]
      exact ih (s := { s with shiftCycles := s.shiftCycles - c }) hvia htreq hidle hon
        (enough_cons cs henough)
    · obtain ⟨via, release, hspec⟩ := tickShift_done hvia hpos hdone
      rw [hspec]
      exact At.wait cs ⟨⟨rfl, htreq, hidle, hdone⟩, rfl⟩

/-- The idle acknowledge comes once. -/
theorem run_ticks_idle (hvia : s.via.isSome) (htreq : s.responseTreqCycles ≤ 0)
    (hshift : s.shiftCycles ≤ 0) (hpos : 0 < s.idleAckCycles) (henough : s.idleAckCycles ≤ cs.sum) :
    At (run step s (ticks cs)) ((view s).log [.idleAck]) := by
  induction cs generalizing s with
  | nil => exact absurd henough (not_enough hpos)
  | cons c cs ih =>
    rw [run_ticks_cons cs, tick_attached hvia, tickResponseTreq_idle htreq]
    rcases Int.lt_or_le 0 (s.idleAckCycles - c) with hon | hdone
    · rw [tickIdleAck_on hon, tickShift_idle (by exact hshift)]
      exact ih (s := { s with idleAckCycles := s.idleAckCycles - c }) hvia htreq hshift hon
        (enough_cons cs henough)
    · obtain ⟨via, hspec⟩ := tickIdleAck_done hvia hpos hdone
      rw [hspec, tickShift_idle (by exact hshift)]
      exact At.wait cs ⟨⟨rfl, htreq, hdone, hshift⟩, rfl⟩

/-- TREQ comes before the idle acknowledge. -/
theorem run_ticks_treq (hvia : s.via.isSome) (hshift : s.shiftCycles ≤ 0)
    (hpos : 0 < s.responseTreqCycles) (hle : s.responseTreqCycles ≤ s.idleAckCycles)
    (henough : s.idleAckCycles ≤ cs.sum) :
    At (run step s (ticks cs)) ((view s).log [.treq false, .idleAck]) := by
  induction cs generalizing s with
  | nil => exact absurd henough (not_enough (by omega))
  | cons c cs ih =>
    rcases Int.lt_or_le 0 (s.responseTreqCycles - c) with hon | hdone
    · rw [run_ticks_cons cs, tick_attached hvia, tickResponseTreq_on hon,
        tickIdleAck_on (by show 0 < s.idleAckCycles - c; omega), tickShift_idle (by exact hshift)]
      exact ih (s := { s with
          responseTreqCycles := s.responseTreqCycles - c
          idleAckCycles := s.idleAckCycles - c }) hvia hshift hon
        (by show s.responseTreqCycles - c ≤ s.idleAckCycles - c; omega) (enough_cons cs henough)
    · -- the rest of this tick is a tick after TREQ has come
      obtain ⟨via, hspec⟩ := tickResponseTreq_done hvia hpos hdone
      have hidle := run_ticks_idle (c :: cs) (s := { s with
          via := some via
          responseTreqCycles := s.responseTreqCycles - c
          events := s.events ++ [.treq false] }) rfl hdone hshift (by show 0 < s.idleAckCycles; omega)
        henough
      rw [run_ticks_cons cs, tick_attached rfl, tickResponseTreq_idle hdone] at hidle
      rw [run_ticks_cons cs, tick_attached hvia, hspec]
      have hlog : ∀ v : View, (v.log [.treq false]).log [.idleAck] = v.log [.treq false, .idleAck] :=
        fun v => by simp [View.log]
      rw [← hlog]
      exact hidle

end

end CuteMac.Cuda
