/-
  Receiving through the serial controller.

  A guest that drains a channel after every tick: it reads data while RR0 bit 0
  is set, and may write data in between.

  * `Round`: a tick, the data written before the guest drains, and what it does
    until the next tick;
  * `Session`: the controller with the bytes delivered and the bytes read;
  * `lossless_iff`: the rounds through which nothing is lost.

  The channel has one data byte, which the transmit side writes too.
-/
import CuteMac.Lib.Machine
import CuteMac.Scc.Z8530

namespace CuteMac.Scc

open Machine (run Guarded)

variable {ε : Type}

namespace Z8530Scc

/-- The guest reads data while RR0 bit 0 is set; `fuel` bounds the rounds of the loop. -/
def drain (ch : Channel) : Nat → Z8530Scc ε → List UInt8 × Z8530Scc ε
  | 0, s => ([], s)
  | fuel + 1, s =>
    let (rr0, s) := s.readControl ch
    if rr0 &&& 1 ≠ 0 then
      let (value, s) := s.readData ch
      let (values, s) := drain ch fuel s
      (value :: values, s)
    else ([], s)

end Z8530Scc

/-- What the guest does between two ticks. -/
inductive GuestAction where
  | write (value : UInt8)
  | drain
  deriving DecidableEq, Repr

/-- A tick, data written before the guest drains, and what the guest does then. -/
structure Round where
  cycles : Int
  writes : List UInt8
  after : List GuestAction

structure Session (ε : Type) where
  scc : Z8530Scc ε
  delivered : List UInt8 := []
  received : List UInt8 := []

namespace Session

variable (ch : Channel) (fuel : Nat)

/-- A drain makes up to `fuel + 1` reads, of which one is always enough. -/
def drain (t : Session ε) : Session ε :=
  { t with
    scc := (t.scc.drain ch (fuel + 1)).2
    received := t.received ++ (t.scc.drain ch (fuel + 1)).1 }

def write (t : Session ε) (value : UInt8) : Session ε :=
  { t with scc := t.scc.writeData ch value }

def act (t : Session ε) : GuestAction → Session ε
  | .write value => t.write ch value
  | .drain => t.drain ch fuel

variable [SerialEndpoint ε]

def tick (t : Session ε) (cycles : Int) : Session ε :=
  { t with
    scc := t.scc.tick cycles
    delivered := t.delivered ++ t.scc.delivered ch }

def round (t : Session ε) (r : Round) : Session ε :=
  run (act ch fuel) ((run (write ch) (t.tick ch r.cycles) r.writes).drain ch fuel) r.after

end Session

/-! ## The channel in one round -/

/-- The channel is set up for receiving: its register pointer is at RR0 and it is not in
    local loopback.  The byte to be read, if there is one, is `pending`. -/
structure ChannelState.Holds (c : ChannelState) (pending : Option UInt8) : Prop where
  pointer : c.selectedRegister = 0
  loopback : c.localLoopback = 0
  available : c.receiveDataAvailable = pending.isSome
  data : ∀ value ∈ pending, c.data = value

namespace ChannelState

variable {c : ChannelState} {pending : Option UInt8}

/-- Bit 0 of RR0 is the flag. -/
theorem rr0_and_one (c : ChannelState) :
    c.rr0 &&& 1 = if c.receiveDataAvailable then 1 else 0 := by
  have hor (x y : UInt8) : (x ||| y) &&& 1 = x &&& 1 ||| y &&& 1 := by
    apply UInt8.toBitVec_inj.mp
    ext i hi
    simp [Bool.and_or_distrib_right]
  rw [rr0, hor, hor, hor, c.status.property]
  split_ifs <;> rfl

theorem Holds.receiveByte (h : c.Holds pending) (value : UInt8) :
    (c.receiveByte value).Holds (some value) :=
  ⟨h.pointer, h.loopback, rfl, by simp [ChannelState.receiveByte]⟩

/-- Of several bytes the last one is there to be read. -/
theorem Holds.receiveBytes (h : c.Holds pending) (bytes : List UInt8) :
    (bytes.foldl ChannelState.receiveByte c).Holds (bytes.getLast?.or pending) := by
  induction bytes generalizing c pending with
  | nil => exact h
  | cons value bytes ih =>
    have h' := ih (h.receiveByte value)
    rw [List.getLast?_cons]
    cases hl : bytes.getLast? with
    | none => simpa [hl] using h'
    | some last => simpa [hl] using h'

/-- The transmitter and the timer leave the receiver alone. -/
theorem Holds.advance (h : c.Holds pending) (cycles : Int) :
    ((c.advanceTransmitter cycles).advanceTimer cycles).Holds pending := by
  have ht : (c.advanceTransmitter cycles).Holds pending := by
    unfold advanceTransmitter
    split_ifs
    · exact h
    · exact ⟨h.pointer, h.loopback, h.available, h.data⟩
  unfold advanceTimer
  split_ifs
  · exact ht
  · exact ⟨ht.pointer, ht.loopback, ht.available, ht.data⟩
  · exact ⟨ht.pointer, ht.loopback, ht.available, ht.data⟩

end ChannelState

namespace Z8530Scc

@[simp] theorem state_setState (s : Z8530Scc ε) (ch : Channel) (c : ChannelState) :
    (s.setState ch c).state ch = c := by
  cases ch <;> rfl

theorem state_setState_ne (s : Z8530Scc ε) {ch ch' : Channel} (c : ChannelState) (h : ch ≠ ch') :
    (s.setState ch' c).state ch = s.state ch := by
  cases ch <;> cases ch' <;> first | rfl | exact absurd rfl h

@[simp] theorem state_setBus (s : Z8530Scc ε) (ch ch' : Channel) (endpoint : ε) :
    (s.setBus ch' endpoint).state ch = s.state ch := by
  cases ch <;> cases ch' <;> rfl

theorem bus_setState (s : Z8530Scc ε) (ch ch' : Channel) (c : ChannelState) :
    (s.setState ch' c).bus ch = s.bus ch := by
  cases ch <;> cases ch' <;> rfl

theorem bus_setBus_ne (s : Z8530Scc ε) {ch ch' : Channel} (endpoint : ε) (h : ch ≠ ch') :
    (s.setBus ch' endpoint).bus ch = s.bus ch := by
  cases ch <;> cases ch' <;> first | rfl | exact absurd rfl h

variable {s : Z8530Scc ε} {ch : Channel} {pending : Option UInt8}

theorem holds_writeData (h : (s.state ch).Holds pending) (value : UInt8) :
    ((s.writeData ch value).state ch).Holds (pending.map fun _ => value) := by
  rw [writeData, state_setState]
  refine ⟨h.pointer, h.loopback, ?_, ?_⟩
  · simp [h.loopback, h.available]
  · cases pending with
    | none => simp
    | some _ => simp

/-- Data written before the drain takes the place of the byte that is there. -/
theorem holds_writes (h : (s.state ch).Holds pending) (writes : List UInt8) :
    ((writes.foldl (writeData · ch ·) s).state ch).Holds (pending.map writes.getLastD) := by
  induction writes generalizing s pending with
  | nil =>
    cases pending with
    | none => exact h
    | some _ => exact h
  | cons value writes ih =>
    have hlast : (value :: writes).getLastD = writes.getLastD ∘ fun _ => value := by
      funext _
      rw [List.getLastD_cons, Function.comp_apply]
    have h' := ih (holds_writeData h value)
    rw [Option.map_map, ← hlast] at h'
    exact h'

/-- Where the pointer is at RR0, RR0 is read and the receiver stays as it is. -/
theorem holds_readControl (h : (s.state ch).Holds pending) :
    (s.readControl ch).1 &&& 1 = (if pending.isSome then 1 else 0) ∧
      ((s.readControl ch).2.state ch).Holds pending := by
  simp only [readControl, h.pointer, if_true, state_setState]
  constructor
  · rw [ChannelState.rr0_and_one, h.available]
  · exact ⟨rfl, h.loopback, h.available, h.data⟩

theorem drain_nothing (h : (s.state ch).Holds none) (fuel : Nat) :
    (s.drain ch fuel).1 = [] ∧ ((s.drain ch fuel).2.state ch).Holds none := by
  cases fuel with
  | zero => exact ⟨rfl, h⟩
  | succ fuel =>
    obtain ⟨hr, hc⟩ := holds_readControl h
    simp only [drain, hr]
    exact ⟨rfl, hc⟩

/-- **A drain reads the byte that is there.** -/
theorem drain_pending (h : (s.state ch).Holds pending) (fuel : Nat) :
    (s.drain ch (fuel + 1)).1 = pending.toList ∧
      ((s.drain ch (fuel + 1)).2.state ch).Holds none := by
  cases pending with
  | none => exact drain_nothing h (fuel + 1)
  | some value =>
    obtain ⟨hr, hc⟩ := holds_readControl h
    have hread : (((s.readControl ch).2.readData ch).2.state ch).Holds none := by
      rw [readData, state_setState]
      exact ⟨hc.pointer, hc.loopback, rfl, by simp⟩
    obtain ⟨hrest, hnone⟩ := drain_nothing hread fuel
    have hvalue : ((s.readControl ch).2.readData ch).1 = value := hc.data value rfl
    simp only [drain, hr, Option.isSome_some, if_true]
    rw [if_pos (by decide), hrest, hvalue]
    exact ⟨rfl, hnone⟩

/-! ## A tick -/

variable [SerialEndpoint ε]

theorem state_poll_ne {ch' : Channel} (h : ch ≠ ch') : (s.poll ch').state ch = s.state ch := by
  unfold poll
  split
  · rfl
  · rw [state_setState_ne _ _ h, state_setBus]

theorem delivered_poll_ne {ch' : Channel} (h : ch ≠ ch') :
    (s.poll ch').delivered ch = s.delivered ch := by
  have hbus : (s.poll ch').bus ch = s.bus ch := by
    unfold poll
    split
    · rfl
    · rw [bus_setState, bus_setBus_ne _ _ h]
  rw [delivered, delivered, hbus]

theorem holds_poll (h : (s.state ch).Holds none) :
    ((s.poll ch).state ch).Holds (s.delivered ch).getLast? := by
  unfold poll delivered
  split
  · exact h
  · rename_i endpoint hbus
    rw [state_setState]
    have h' := h.receiveBytes (SerialEndpoint.poll endpoint).1
    rwa [Option.or_none] at h'

theorem holds_advance (h : (s.state ch).Holds pending) (ch' : Channel) (cycles : Int) :
    ((s.advance ch' cycles).state ch).Holds pending := by
  have hset : ((s.setState ch' (((s.state ch').advanceTransmitter cycles).advanceTimer
      cycles)).state ch).Holds pending := by
    by_cases hch : ch = ch'
    · subst hch
      rw [state_setState]
      exact h.advance cycles
    · rwa [state_setState_ne _ _ hch]
  simp only [advance]
  split
  · unfold transmit
    split
    · exact hset
    · rwa [state_setBus]
  · exact hset

/-- **After a tick the last byte delivered is there to be read.** -/
theorem holds_tick (h : (s.state ch).Holds none) (cycles : Int) :
    ((s.tick cycles).state ch).Holds (s.delivered ch).getLast? := by
  refine holds_advance (holds_advance ?_ .a cycles) .b cycles
  cases ch with
  | a =>
    rw [state_poll_ne (by decide)]
    exact holds_poll h
  | b =>
    have hb : ((s.poll .a).state .b).Holds none := by rwa [state_poll_ne (by decide)]
    have h' := holds_poll hb
    rwa [delivered_poll_ne (by decide)] at h'

end Z8530Scc

/-! ## Rounds -/

namespace Session

variable {ch : Channel} {t : Session ε}

theorem holds_act (h : (t.scc.state ch).Holds none) (fuel : Nat) (action : GuestAction) :
    ((t.act ch fuel action).scc.state ch).Holds none ∧
      (t.act ch fuel action).delivered = t.delivered ∧
      (t.act ch fuel action).received = t.received := by
  cases action with
  | write value => exact ⟨Z8530Scc.holds_writeData h value, rfl, rfl⟩
  | drain =>
    obtain ⟨hr, hd⟩ := Z8530Scc.drain_pending h fuel
    refine ⟨hd, rfl, ?_⟩
    show t.received ++ (t.scc.drain ch (fuel + 1)).1 = t.received
    rw [hr, Option.toList_none, List.append_nil]

/-- As long as nothing is delivered, nothing is read. -/
theorem holds_acts (h : (t.scc.state ch).Holds none) (fuel : Nat) (actions : List GuestAction) :
    ((run (act ch fuel) t actions).scc.state ch).Holds none ∧
      (run (act ch fuel) t actions).delivered = t.delivered ∧
      (run (act ch fuel) t actions).received = t.received := by
  induction actions generalizing t with
  | nil => exact ⟨h, rfl, rfl⟩
  | cons action actions ih =>
    obtain ⟨h1, hd, hr⟩ := holds_act h fuel action
    obtain ⟨h2, hd', hr'⟩ := ih h1
    exact ⟨h2, hd'.trans hd, hr'.trans hr⟩

theorem run_write (writes : List UInt8) :
    run (write ch) t writes =
      { t with scc := writes.foldl (Z8530Scc.writeData · ch ·) t.scc } := by
  induction writes generalizing t with
  | nil => rfl
  | cons value writes ih => exact ih

variable [SerialEndpoint ε]

/-- What is read in a round: of the bytes delivered the last one, or what was written
    over it. -/
def gets (bytes writes : List UInt8) : List UInt8 :=
  (bytes.getLast?.map writes.getLastD).toList

/-- **A round reads at most one byte.** -/
theorem round_spec (h : (t.scc.state ch).Holds none) (fuel : Nat) (r : Round) :
    ((t.round ch fuel r).scc.state ch).Holds none ∧
      (t.round ch fuel r).delivered = t.delivered ++ t.scc.delivered ch ∧
      (t.round ch fuel r).received = t.received ++ gets (t.scc.delivered ch) r.writes := by
  have hpending := Z8530Scc.holds_writes (Z8530Scc.holds_tick h r.cycles) r.writes
  obtain ⟨hr, hd⟩ := Z8530Scc.drain_pending hpending fuel
  rw [round, run_write]
  obtain ⟨h2, hd2, hr2⟩ := @holds_acts ε ch (drain ch fuel
    { t.tick ch r.cycles with
      scc := r.writes.foldl (Z8530Scc.writeData · ch ·) (t.tick ch r.cycles).scc }) hd fuel r.after
  refine ⟨h2, hd2, ?_⟩
  rw [hr2]
  exact congrArg (t.received ++ ·) hr

/-- Nothing is lost in a round: at most one byte is delivered, and the last byte written
    before the drain, if any, is that byte. -/
def Lossless (ch : Channel) (t : Session ε) (r : Round) : Prop :=
  t.scc.delivered ch = [] ∨
    ∃ value, t.scc.delivered ch = [value] ∧ r.writes.getLastD value = value

theorem length_gets_le_one (bytes writes : List UInt8) : (gets bytes writes).length ≤ 1 := by
  unfold gets
  cases bytes.getLast?.map writes.getLastD <;> simp

theorem length_gets (bytes writes : List UInt8) : (gets bytes writes).length ≤ bytes.length := by
  cases bytes with
  | nil => exact Nat.le_refl 0
  | cons _ bytes => exact Nat.le_trans (length_gets_le_one _ writes) (by simp)

theorem gets_eq_iff (bytes writes : List UInt8) :
    gets bytes writes = bytes ↔
      bytes = [] ∨ ∃ value, bytes = [value] ∧ writes.getLastD value = value := by
  match bytes with
  | [] => simp [gets]
  | [value] => simp [gets]
  | first :: second :: bytes =>
    have hne : gets (first :: second :: bytes) writes ≠ first :: second :: bytes := by
      intro h
      have hlen := length_gets_le_one (first :: second :: bytes) writes
      rw [h] at hlen
      simp at hlen
    simp [hne]

/-- The bytes read in a run of rounds are no more than those delivered, and they are the
    bytes delivered exactly if no round loses anything. -/
theorem run_rounds (h : (t.scc.state ch).Holds none) (fuel : Nat) (rounds : List Round) :
    ∃ got bytes, (run (round ch fuel) t rounds).received = t.received ++ got ∧
      (run (round ch fuel) t rounds).delivered = t.delivered ++ bytes ∧
      got.length ≤ bytes.length ∧
      (got = bytes ↔ Guarded (round ch fuel) (Lossless ch) t rounds) := by
  induction rounds generalizing t with
  | nil => exact ⟨[], [], by simp, by simp, Nat.le_refl 0, by simp [Guarded]⟩
  | cons r rounds ih =>
    obtain ⟨h1, hd, hr⟩ := round_spec h fuel r
    obtain ⟨got, bytes, hr', hd', hlen, hiff⟩ := ih h1
    have hle := length_gets (t.scc.delivered ch) r.writes
    refine ⟨gets (t.scc.delivered ch) r.writes ++ got, t.scc.delivered ch ++ bytes, ?_, ?_, ?_, ?_⟩
    · rw [Machine.run_cons, hr', hr, List.append_assoc]
    · rw [Machine.run_cons, hd', hd, List.append_assoc]
    · rw [List.length_append, List.length_append]
      omega
    · -- no round reads more than is delivered, so none can make up for another
      constructor
      · intro heq
        have hlens := congrArg List.length heq
        rw [List.length_append, List.length_append] at hlens
        obtain ⟨h0, h1⟩ := List.append_inj heq (by omega)
        exact ⟨(gets_eq_iff _ _).mp h0, hiff.mp h1⟩
      · rintro ⟨h0, h1⟩
        rw [(gets_eq_iff _ _).mpr h0, hiff.mpr h1]

/-- **The guest reads exactly what is delivered if and only if no round loses anything.** -/
theorem lossless_iff (ch : Channel) (fuel : Nat) (s : Z8530Scc ε) (h : (s.state ch).Holds none)
    (lead : List GuestAction) (rounds : List Round) :
    (run (round ch fuel) (run (act ch fuel) ⟨s, [], []⟩ lead) rounds).received =
        (run (round ch fuel) (run (act ch fuel) ⟨s, [], []⟩ lead) rounds).delivered ↔
      Guarded (round ch fuel) (Lossless ch) (run (act ch fuel) ⟨s, [], []⟩ lead) rounds := by
  obtain ⟨h0, hd, hr⟩ := @holds_acts ε ch ⟨s, [], []⟩ h fuel lead
  obtain ⟨got, bytes, hr', hd', -, hiff⟩ := run_rounds h0 fuel rounds
  rw [hr', hd', hr, hd, ← hiff]
  rfl

/-- An endpoint that delivers one burst of bytes whenever it is polled. -/
instance bursts : SerialEndpoint (List (List UInt8)) where
  reset queue := queue
  poll queue := (queue.headD [], queue.tail)
  receiveByte queue _ := queue

/-- A new controller with such an endpoint at channel A. -/
def attached (queue : List (List UInt8)) : Z8530Scc (List (List UInt8)) where
  busA := some queue

theorem holds_attached (queue : List (List UInt8)) :
    ((attached queue).state .a).Holds none :=
  ⟨rfl, (by decide : (Vector.replicate 16 (0 : UInt8))[14] &&& 0x10 = 0), rfl, by simp⟩

theorem lossless_iff_attached :
    (run (round .a 0) (run (act .a 0) ⟨attached [[0x4f], [0x4b]], [], []⟩ [.drain])
          [⟨16, [], [.write 0x41]⟩, ⟨16, [0x4b], []⟩]).received =
        (run (round .a 0) (run (act .a 0) ⟨attached [[0x4f], [0x4b]], [], []⟩ [.drain])
          [⟨16, [], [.write 0x41]⟩, ⟨16, [0x4b], []⟩]).delivered ↔
      Guarded (round .a 0) (Lossless .a)
        (run (act .a 0) ⟨attached [[0x4f], [0x4b]], [], []⟩ [.drain])
        [⟨16, [], [.write 0x41]⟩, ⟨16, [0x4b], []⟩] :=
  lossless_iff .a 0 (attached [[0x4f], [0x4b]]) (holds_attached _) [.drain] _

/-- Of two bytes delivered in one tick the first is lost; a byte written before the guest
    drains is read in the place of the byte delivered. -/
theorem burst_and_overwrite :
    (round .a 0 ⟨attached [[0x4f, 0x4b]], [], []⟩ ⟨16, [], []⟩).received = [0x4b] ∧
      (round .a 0 ⟨attached [[0x4f, 0x4b]], [], []⟩ ⟨16, [], []⟩).delivered = [0x4f, 0x4b] ∧
      (round .a 0 ⟨attached [[0x4f]], [], []⟩ ⟨16, [0x41], []⟩).received = [0x41] ∧
      (round .a 0 ⟨attached [[0x4f]], [], []⟩ ⟨16, [0x41], []⟩).delivered = [0x4f] := by
  decide

end Session

end CuteMac.Scc
