/-
  The keyboard over the shift register.

  * `Port`: the adapter, the guest's place in its inquiry, and what went in and
    came out; `step`: the host, the clock and the guest in any order;
  * `Inv`: where each of them stands; nothing is lost between the host's queue
    and the guest's responses;
  * `step_inv`, `run_inv`: it is kept while no reception ends between the guest's
    turn of the shift register and its read that starts the reception;
  * `run_delivers`: every transition is delivered, once and in order;
  * `lost_forever`: a reception that ends too early loses its transition, and the
    guest waits for good.
-/
import CuteMac.Lib.Machine
import CuteMac.Via.Slices

namespace CuteMac.Via

open ShiftRegister

/-! ## What moves the shift register -/

/-- The keyboard was asked for a transition, and has not answered. -/
structure Keyboard.Inquiring (k : Keyboard) : Prop where
  pending : k.commandPending = true
  command : k.command = 0x10
  notReady : k.responseReady = false

/-- No command is under way. -/
structure Keyboard.Quiet (k : Keyboard) : Prop where
  notPending : k.commandPending = false
  notReady : k.responseReady = false
  stopped : k.shiftCycles = 0

/-- A transition that left the queue and waits in the shift register. -/
def Keyboard.inFlight (k : Keyboard) : List UInt8 :=
  if k.responseReady = true ∧ k.shiftRegister ≠ 0x7b then [k.shiftRegister] else []

/-- What the guest has not got yet. -/
def Keyboard.undelivered (k : Keyboard) : List UInt8 := k.inFlight ++ k.transitions

namespace Keyboard

variable {k : Keyboard} {acr : UInt8}

theorem encode_ne (keyCode : UInt8) (pressed : Bool) : encode keyCode pressed ≠ 0x7b := by
  revert keyCode
  refine forall_byte ?_
  revert pressed
  decide +kernel

/-- A transition that comes while an inquiry waits for it restarts the shift. -/
theorem queueTransition_waiting (h : k.Inquiring) (hacr : acr &&& 0x10 = 0) (c : UInt8) (b : Bool) :
    k.queueTransition acr c b =
      { k with transitions := k.transitions ++ [encode c b], shiftCycles := keyboardByteCycles } := by
  simp [queueTransition, h.pending, h.command, h.notReady, hacr]

theorem queueTransition_other (h : k.Inquiring → acr &&& 0x10 ≠ 0) (c : UInt8) (b : Bool) :
    k.queueTransition acr c b = { k with transitions := k.transitions ++ [encode c b] } := by
  rw [queueTransition]
  refine if_neg ?_
  simp only [Bool.and_eq_true, beq_iff_eq, Bool.not_eq_true', not_and]
  exact fun hi => h ⟨hi.1.1, hi.1.2, hi.2⟩

theorem Quiet.queueTransition (h : k.Quiet) (c : UInt8) (b : Bool) :
    (k.queueTransition acr c b).Quiet := by
  rw [queueTransition_other fun hi => absurd hi.pending (by simp [h.notPending])]
  exact ⟨h.notPending, h.notReady, h.stopped⟩

theorem Inquiring.queueTransition (h : k.Inquiring) (c : UInt8) (b : Bool) :
    (k.queueTransition acr c b).Inquiring := by
  by_cases hacr : acr &&& 0x10 = 0
  · rw [queueTransition_waiting h hacr]; exact ⟨h.pending, h.command, h.notReady⟩
  · rw [queueTransition_other fun _ => hacr]; exact ⟨h.pending, h.command, h.notReady⟩

theorem undelivered_queueTransition (c : UInt8) (b : Bool) :
    (k.queueTransition acr c b).undelivered = k.undelivered ++ [encode c b] := by
  by_cases h : k.Inquiring ∧ acr &&& 0x10 = 0
  · rw [queueTransition_waiting h.1 h.2]
    simp [undelivered, inFlight]
  · rw [queueTransition_other fun hi => not_and.1 h hi]
    simp [undelivered, inFlight]

theorem finish_out (hacr : acr &&& 0x10 ≠ 0) : k.finish acr = { k with shiftCycles := 0 } := by
  simp [finish, hacr]

/-- The answer to an inquiry is the transition in front of the queue. -/
theorem finish_in (h : k.Inquiring) (hacr : acr &&& 0x10 = 0) (hq : ∀ t ∈ k.transitions, t ≠ 0x7b) :
    (k.finish acr).responseReady = true ∧ (k.finish acr).undelivered = k.undelivered ∧
      (k.finish acr).transitions = k.transitions.tail := by
  have hc : k.command ≠ 0x16 := by rw [h.command]; decide
  cases ht : k.transitions with
  | nil =>
    simp [finish, hacr, h.pending, respond, hc, ht, undelivered, inFlight, h.notReady]
  | cons t ts =>
    have hn : t ≠ 0x7b := hq t (by simp [ht])
    simp [finish, hacr, h.pending, respond, hc, ht, undelivered, inFlight, h.notReady, hn]

/-- The read that starts a reception, or finds it started by a transition. -/
theorem Inquiring.read (h : k.Inquiring) (hacr : acr &&& 0x10 = 0) (h0 : 0 ≤ k.shiftCycles) :
    (k.read acr).Inquiring ∧ 0 < (k.read acr).shiftCycles ∧
      (k.read acr).undelivered = k.undelivered := by
  by_cases hs : k.shiftCycles = 0
  · have hr : k.read acr = { k with
        shiftCycles := if k.command = 0x10 ∧ k.transitions.isEmpty then keyboardInquiryTimeoutCycles
          else keyboardByteCycles } := by
      simp [Keyboard.read, h.notReady, h.pending, hacr, hs]
    rw [hr]
    refine ⟨⟨h.pending, h.command, h.notReady⟩, ?_, rfl⟩
    show 0 < ite _ _ _
    split <;> decide
  · have hr : k.read acr = k := by simp [Keyboard.read, h.notReady, hs]
    rw [hr]
    exact ⟨h, by omega, rfl⟩

/-- The read that takes a response. -/
theorem read_ready (h : k.responseReady = true) (acr : UInt8) :
    k.read acr = { k with responseReady := false, commandPending := false } := by
  rw [Keyboard.read, if_pos h]

theorem inFlight_notReady (h : k.responseReady = false) : k.inFlight = [] := by
  simp [inFlight, h]

end Keyboard

namespace Via6522

def shiftFlag (s : Via6522) : Bool := s.interruptFlag &&& shiftRegisterInterruptBit != 0

variable (s : Via6522) (cycles : Int)

theorem tick_auxiliaryControl : (s.tick cycles).auxiliaryControl = s.auxiliaryControl := by
  by_cases h : 0 < cycles
  · obtain ⟨calls, hc⟩ := tick_eq_ticked s h
    rw [hc]; rfl
  · rw [tick, if_pos (by omega)]

theorem tick_callbacks : (s.tick cycles).callbacks = s.callbacks := by
  by_cases h : 0 < cycles
  · obtain ⟨calls, hc⟩ := tick_eq_ticked s h
    rw [hc]; rfl
  · rw [tick, if_pos (by omega)]

theorem ca1_flag : (s.automaticCa1.tick cycles).2 &&& shiftRegisterInterruptBit = 0 := by
  have hf : (s.automaticCa1.tick cycles).2 = vblInterruptBit ∨ (s.automaticCa1.tick cycles).2 = 0 := by
    unfold AutomaticCa1.tick
    split
    · exact ite_eq_or_eq _ _ _
    · exact .inr rfl
  rcases hf with hf | hf <;> rw [hf] <;> decide

theorem timer1_flag (acr : UInt8) :
    (s.timer1.tick acr cycles).2.1 &&& shiftRegisterInterruptBit = 0 := by
  have hf : (s.timer1.tick acr cycles).2.1 = timer1InterruptBit ∨
      (s.timer1.tick acr cycles).2.1 = 0 := by
    unfold Timer1.tick
    split
    · simp only
      split
      · exact .inl rfl
      · exact .inr rfl
    · exact .inr rfl
  rcases hf with hf | hf <;> rw [hf] <;> decide

theorem timer2_flag (acr : UInt8) :
    (s.timer2.tick acr cycles).2 &&& shiftRegisterInterruptBit = 0 := by
  have hf : (s.timer2.tick acr cycles).2 = timer2InterruptBit ∨
      (s.timer2.tick acr cycles).2 = 0 := by
    unfold Timer2.tick
    split
    · simp only
      split
      · exact .inr rfl
      · exact .inl rfl
    · split <;> exact .inr rfl
  rcases hf with hf | hf <;> rw [hf] <;> decide

/-- The shift register's flag is raised by the shift register alone. -/
theorem ticked_shiftFlag :
    (s.ticked cycles).shiftFlag =
      (s.shiftFlag ||
        (s.keyboard.tick s.auxiliaryControl cycles).2 &&& shiftRegisterInterruptBit != 0) := by
  have hor : ∀ x y : UInt8, (x ||| y) &&& shiftRegisterInterruptBit =
      (x &&& shiftRegisterInterruptBit) ||| (y &&& shiftRegisterInterruptBit) :=
    fun x y => UInt8.toBitVec_inj.1 BitVec.and_or_distrib_right
  have hne : ∀ x y : UInt8, (x ||| y != 0) = ((x != 0) || (y != 0)) := by
    intro x y
    rw [Bool.eq_iff_iff]
    simp only [bne_iff_ne, ne_eq, UInt8.or_eq_zero_iff, Bool.or_eq_true]
    exact not_and_or
  simp only [shiftFlag, ticked, hor, ca1_flag, timer1_flag, timer2_flag, UInt8.or_zero, hne]

/-- **Ticks.**  A tick leaves the shift register alone, shortens the shift, or ends it. -/
theorem tick_keyboard_cases :
    ((s.tick cycles).keyboard = s.keyboard ∧ (s.tick cycles).shiftFlag = s.shiftFlag ∧
        (0 < cycles → s.keyboard.shiftCycles ≤ 0)) ∨
      (0 < cycles ∧ cycles < s.keyboard.shiftCycles ∧
        (s.tick cycles).keyboard =
          { s.keyboard with shiftCycles := s.keyboard.shiftCycles - cycles } ∧
        (s.tick cycles).shiftFlag = s.shiftFlag) ∨
      (0 < s.keyboard.shiftCycles ∧ s.keyboard.shiftCycles ≤ cycles ∧
        (s.tick cycles).keyboard = s.keyboard.finish s.auxiliaryControl ∧
        (s.tick cycles).shiftFlag = true) := by
  by_cases h : 0 < cycles
  · obtain ⟨calls, hc⟩ := tick_eq_ticked s h
    have hk : (s.tick cycles).keyboard = (s.keyboard.tick s.auxiliaryControl cycles).1 := by
      rw [hc]; rfl
    have hf : (s.tick cycles).shiftFlag = (s.ticked cycles).shiftFlag := by rw [hc]; rfl
    rw [ticked_shiftFlag] at hf
    rw [hk, hf]
    by_cases hs : 0 < s.keyboard.shiftCycles
    · by_cases hsc : s.keyboard.shiftCycles ≤ cycles
      · rw [Keyboard.tick_finished hs hsc]
        exact .inr (.inr ⟨hs, hsc, rfl, by simp [shiftRegisterInterruptBit]⟩)
      · rw [Keyboard.tick_counting hs (by omega)]
        exact .inr (.inl ⟨h, by omega, rfl, by simp⟩)
    · rw [Keyboard.tick_idle (by omega)]
      exact .inl ⟨rfl, by simp, fun _ => by omega⟩
  · have ht : s.tick cycles = s := by rw [tick, if_pos (by omega)]
    rw [ht]
    exact .inl ⟨rfl, rfl, fun h' => absurd h' h⟩

end Via6522

/-! ## The guest -/

/-- The guest's next step in an inquiry. -/
inductive Phase where
  | shiftOut
  | inquire
  | waitSent
  | shiftIn
  | startReception
  | waitResponse
  | readResponse
  deriving DecidableEq, Repr

structure Port where
  via : Via6522
  phase : Phase := .shiftOut
  /-- the transitions that the host queued, and the bytes that the guest read as responses -/
  queued : List UInt8 := []
  responses : List UInt8 := []

/-- The host queues a transition, the clock ticks, or the guest takes its next step; `bits`
    are the bits of the control register that belong to the timers. -/
inductive Event where
  | key (keyCode : UInt8) (pressed : Bool)
  | tick (cycles : Int)
  | guest (bits : UInt8)
  deriving DecidableEq, Repr

/-- The event queues nothing. -/
def Event.Keyless : Event → Prop
  | .key _ _ => False
  | _ => True

namespace Port

/-- The guest polls for the flag of the shift register. -/
def poll (p : Port) (next : Phase) : Port :=
  let read := p.via.readRegister 13
  if read.1 &&& shiftRegisterInterruptBit ≠ 0 then { p with via := read.2, phase := next }
  else { p with via := read.2 }

def guestStep (p : Port) (bits : UInt8) : Port :=
  match p.phase with
  | .shiftOut =>
    { p with via := p.via.writeRegister 11 ((bits &&& 0xe3) ||| 0x1c), phase := .inquire }
  | .inquire => { p with via := p.via.writeRegister 10 0x10, phase := .waitSent }
  | .waitSent => p.poll .shiftIn
  | .shiftIn =>
    { p with via := p.via.writeRegister 11 ((bits &&& 0xe3) ||| 0x0c), phase := .startReception }
  | .startReception => { p with via := (p.via.readRegister 10).2, phase := .waitResponse }
  | .waitResponse => p.poll .readResponse
  | .readResponse =>
    let read := p.via.readRegister 10
    { p with via := read.2, phase := .shiftOut, responses := p.responses ++ [read.1] }

def step (p : Port) : Event → Port
  | .key keyCode pressed =>
    { p with
      via := p.via.queueKeyboardTransition keyCode pressed
      queued := p.queued ++ [Keyboard.encode keyCode pressed] }
  | .tick cycles => { p with via := p.via.tick cycles }
  | .guest bits => p.guestStep bits

/-- The responses that carry a transition; 0x7b says that there was none. -/
def delivered (p : Port) : List UInt8 := p.responses.filter (· ≠ 0x7b)

/-- A tick does not end a reception that the guest has not started. -/
def InTime (p : Port) : Event → Prop
  | .tick cycles =>
    p.phase = .startReception → 0 < p.via.keyboard.shiftCycles →
      cycles < p.via.keyboard.shiftCycles
  | _ => True

instance (p : Port) : ∀ e : Event, Decidable (p.InTime e)
  | .tick cycles =>
    inferInstanceAs (Decidable (p.phase = .startReception → 0 < p.via.keyboard.shiftCycles →
      cycles < p.via.keyboard.shiftCycles))
  | .key _ _ | .guest _ => inferInstanceAs (Decidable True)

/-! ## Where everybody stands -/

/-- What the guest's place says about the adapter. -/
def AtPhase (p : Port) : Prop :=
  let k := p.via.keyboard
  let acr := p.via.auxiliaryControl
  match p.phase with
  | .shiftOut => k.Quiet
  | .inquire => k.Quiet ∧ acr &&& 0x1c = 0x1c
  | .waitSent =>
    k.Inquiring ∧ acr &&& 0x10 ≠ 0 ∧
      (0 < k.shiftCycles ∧ p.via.shiftFlag = false ∨ k.shiftCycles = 0 ∧ p.via.shiftFlag = true)
  | .shiftIn => k.Inquiring ∧ acr &&& 0x10 ≠ 0 ∧ k.shiftCycles = 0
  | .startReception => k.Inquiring ∧ acr &&& 0x10 = 0 ∧ 0 ≤ k.shiftCycles
  | .waitResponse =>
    k.Inquiring ∧ acr &&& 0x10 = 0 ∧ 0 < k.shiftCycles ∧ p.via.shiftFlag = false ∨
      k.responseReady = true ∧ k.shiftCycles = 0 ∧ p.via.shiftFlag = true
  | .readResponse => k.responseReady = true ∧ k.shiftCycles = 0

structure Inv (p : Port) : Prop where
  listening : p.via.callbacks.shiftRegisterWrite = false
  atPhase : p.AtPhase
  conserved : p.delivered ++ p.via.keyboard.undelivered = p.queued
  transitions : ∀ t ∈ p.queued, t ≠ 0x7b

/-- The transitions in the keyboard were queued. -/
theorem Inv.queue {p : Port} (h : p.Inv) : ∀ t ∈ p.via.keyboard.transitions, t ≠ 0x7b := by
  intro t ht
  refine h.transitions t ?_
  rw [← h.conserved]
  exact List.mem_append_right _ (List.mem_append_right _ ht)

theorem key_atPhase {p : Port} (h : p.AtPhase) (c : UInt8) (b : Bool) :
    (p.step (.key c b)).AtPhase := by
  unfold AtPhase at h ⊢
  simp only [step, Via6522.queueKeyboardTransition]
  cases hph : p.phase with
  | shiftOut =>
    rw [hph] at h
    exact h.queueTransition c b
  | inquire =>
    rw [hph] at h
    exact ⟨h.1.queueTransition c b, h.2⟩
  | waitSent =>
    rw [hph] at h
    obtain ⟨hi, hacr, hs⟩ := h
    refine ⟨hi.queueTransition c b, hacr, ?_⟩
    rw [Keyboard.queueTransition_other fun _ => hacr]
    exact hs
  | shiftIn =>
    rw [hph] at h
    obtain ⟨hi, hacr, hs⟩ := h
    refine ⟨hi.queueTransition c b, hacr, ?_⟩
    rw [Keyboard.queueTransition_other fun _ => hacr]
    exact hs
  | startReception =>
    rw [hph] at h
    obtain ⟨hi, hacr, -⟩ := h
    refine ⟨hi.queueTransition c b, hacr, ?_⟩
    rw [Keyboard.queueTransition_waiting hi hacr]
    exact (by decide : (0 : Int) ≤ keyboardByteCycles)
  | waitResponse =>
    rw [hph] at h
    rcases h with ⟨hi, hacr, -, hf⟩ | ⟨hr, hs, hf⟩
    · refine .inl ⟨hi.queueTransition c b, hacr, ?_, hf⟩
      rw [Keyboard.queueTransition_waiting hi hacr]
      exact (by decide : (0 : Int) < keyboardByteCycles)
    · refine .inr ?_
      rw [Keyboard.queueTransition_other fun hi => absurd hi.notReady (by simp [hr])]
      exact ⟨hr, hs, hf⟩
  | readResponse =>
    rw [hph] at h
    rw [Keyboard.queueTransition_other fun hi => absurd hi.notReady (by simp [h.1])]
    exact h

theorem key_inv {p : Port} (h : p.Inv) (c : UInt8) (b : Bool) : (p.step (.key c b)).Inv := by
  refine ⟨h.listening, key_atPhase h.atPhase c b, ?_, ?_⟩
  · show p.delivered ++ Keyboard.undelivered (Keyboard.queueTransition _ _ c b) = _
    rw [Keyboard.undelivered_queueTransition, ← List.append_assoc, h.conserved]
    rfl
  · intro t ht
    rcases List.mem_append.1 ht with ht | ht
    · exact h.transitions t ht
    · rw [List.mem_singleton.1 ht]; exact Keyboard.encode_ne c b

/-- A tick that leaves the shift register alone. -/
theorem tick_atPhase {p : Port} {via : Via6522} (h : p.AtPhase)
    (hk : via.keyboard = p.via.keyboard) (hacr : via.auxiliaryControl = p.via.auxiliaryControl)
    (hf : via.shiftFlag = p.via.shiftFlag) : AtPhase { p with via := via } := by
  unfold AtPhase at h ⊢
  simp only [hk, hacr, hf]
  exact h

theorem tick_inv {p : Port} (h : p.Inv) {cycles : Int} (hok : p.InTime (.tick cycles)) :
    (p.step (.tick cycles)).Inv := by
  have hacr := p.via.tick_auxiliaryControl cycles
  have hcb : (p.via.tick cycles).callbacks.shiftRegisterWrite = false := by
    rw [Via6522.tick_callbacks]; exact h.listening
  have hat := h.atPhase
  rcases p.via.tick_keyboard_cases cycles with ⟨hk, hf, -⟩ | ⟨hc, hs, hk, hf⟩ | ⟨hs, hc, hk, hf⟩
  · refine ⟨hcb, tick_atPhase hat hk hacr hf, ?_, h.transitions⟩
    show p.delivered ++ (p.via.tick cycles).keyboard.undelivered = p.queued
    rw [hk]; exact h.conserved
  · refine ⟨hcb, ?_, ?_, h.transitions⟩
    · unfold AtPhase at hat ⊢
      simp only [step, hk, hacr, hf]
      cases hph : p.phase with
      | shiftOut => rw [hph] at hat; have := hat.stopped; omega
      | inquire => rw [hph] at hat; have := hat.1.stopped; omega
      | waitSent =>
        rw [hph] at hat
        obtain ⟨hi, ho, ⟨-, hf0⟩ | ⟨h0, -⟩⟩ := hat
        · exact ⟨⟨hi.pending, hi.command, hi.notReady⟩, ho, .inl ⟨by show 0 < _ - _; omega, hf0⟩⟩
        · omega
      | shiftIn => rw [hph] at hat; have := hat.2.2; omega
      | startReception =>
        rw [hph] at hat
        obtain ⟨hi, hin, -⟩ := hat
        exact ⟨⟨hi.pending, hi.command, hi.notReady⟩, hin, by show _ ≤ _ - _; omega⟩
      | waitResponse =>
        rw [hph] at hat
        rcases hat with ⟨hi, hin, -, hf0⟩ | ⟨-, h0, -⟩
        · exact .inl ⟨⟨hi.pending, hi.command, hi.notReady⟩, hin, by show 0 < _ - _; omega, hf0⟩
        · omega
      | readResponse => rw [hph] at hat; have := hat.2; omega
    · show p.delivered ++ (p.via.tick cycles).keyboard.undelivered = p.queued
      rw [hk]; exact h.conserved
  · -- the shift ends: in the guest's waits only
    have hq := h.queue
    unfold AtPhase at hat
    cases hph : p.phase with
    | shiftOut => rw [hph] at hat; have := hat.stopped; omega
    | inquire => rw [hph] at hat; have := hat.1.stopped; omega
    | waitSent =>
      rw [hph] at hat
      obtain ⟨hi, ho, -⟩ := hat
      rw [Keyboard.finish_out ho] at hk
      refine ⟨hcb, ?_, ?_, h.transitions⟩
      · simp only [AtPhase, step, hph, hk, hacr, hf]
        exact ⟨⟨hi.pending, hi.command, hi.notReady⟩, ho, .inr ⟨trivial, trivial⟩⟩
      · show p.delivered ++ (p.via.tick cycles).keyboard.undelivered = p.queued
        rw [hk]; exact h.conserved
    | shiftIn => rw [hph] at hat; have := hat.2.2; omega
    | startReception => have := hok hph hs; omega
    | waitResponse =>
      rw [hph] at hat
      rcases hat with ⟨hi, hin, -⟩ | ⟨-, h0, -⟩
      · obtain ⟨hr, hu, -⟩ := Keyboard.finish_in hi hin hq
        refine ⟨hcb, ?_, ?_, h.transitions⟩
        · simp only [AtPhase, step, hph, hk, hacr, hf]
          exact .inr ⟨hr, Keyboard.finish_shiftCycles, trivial⟩
        · show p.delivered ++ (p.via.tick cycles).keyboard.undelivered = p.queued
          rw [hk, hu]; exact h.conserved
      · omega
    | readResponse => rw [hph] at hat; have := hat.2; omega

/-! ## The guest's steps -/

theorem poll_eq (p : Port) (next : Phase) :
    p.poll next = if p.via.shiftFlag then { p with phase := next } else p := by
  have hread : p.via.readRegister 13 = (p.via.interruptFlagRegister, p.via) := rfl
  have hbit : p.via.interruptFlagRegister &&& shiftRegisterInterruptBit =
      p.via.interruptFlag &&& shiftRegisterInterruptBit := by
    unfold Via6522.interruptFlagRegister
    split
    · rfl
    · refine UInt8.toBitVec_inj.1 (BitVec.and_or_distrib_right.trans ?_)
      exact BitVec.or_zero
  unfold poll
  simp only [hread, hbit, Via6522.shiftFlag, bne_iff_ne, ne_eq]

theorem poll_inv {p : Port} (h : p.Inv) (next : Phase)
    (hnext : p.via.shiftFlag = true → AtPhase { p with phase := next }) : (p.poll next).Inv := by
  rw [poll_eq]
  split
  · rename_i hf
    exact ⟨h.listening, hnext hf, h.conserved, h.transitions⟩
  · exact h

/-- The guest's command, with nobody else listening to the shift register. -/
theorem inquire_eq {s : Via6522} (hcb : s.callbacks.shiftRegisterWrite = false)
    (hacr : s.auxiliaryControl &&& 0x1c = 0x1c) :
    s.writeRegister 10 0x10 =
      { s.clearFlags shiftRegisterInterruptBit with
        keyboard := { s.keyboard with shiftRegister := 0x10 }.write 0x10 } := by
  have hw : s.writeRegister 10 0x10 = s.writeShiftRegister 0x10 := rfl
  rw [hw, Via6522.writeShiftRegister]
  simp [Via6522.clearFlags, Via6522.call, hacr, hcb]

theorem clearFlags_shiftFlag (s : Via6522) :
    (s.clearFlags shiftRegisterInterruptBit).shiftFlag = false := by
  have hz : ~~~shiftRegisterInterruptBit &&& shiftRegisterInterruptBit = 0 := by decide
  simp only [Via6522.shiftFlag, Via6522.clearFlags, UInt8.and_assoc, hz]
  simp

/-- A read of the shift register. -/
theorem readShiftRegister (s : Via6522) :
    (s.readRegister 10).1 = s.keyboard.shiftRegister ∧
      (s.readRegister 10).2.keyboard = s.keyboard.read s.auxiliaryControl ∧
      (s.readRegister 10).2.auxiliaryControl = s.auxiliaryControl ∧
      (s.readRegister 10).2.callbacks = s.callbacks ∧
      (s.readRegister 10).2.shiftFlag = false := by
  have hr : s.readRegister 10 = (s.keyboard.shiftRegister,
      ({ s.clearFlags shiftRegisterInterruptBit with
        keyboard := s.keyboard.read s.auxiliaryControl } : Via6522).call
          s.callbacks.shiftRegisterRead .shiftRegisterRead) := rfl
  rw [hr, Via6522.call]
  split
  · exact ⟨rfl, rfl, rfl, rfl, clearFlags_shiftFlag s⟩
  · exact ⟨rfl, rfl, rfl, rfl, clearFlags_shiftFlag s⟩

theorem outMode : ∀ bits : UInt8, ((bits &&& 0xe3) ||| 0x1c) &&& 0x1c = 0x1c := by
  refine forall_byte ?_
  decide +kernel

theorem inMode : ∀ bits : UInt8, ((bits &&& 0xe3) ||| 0x0c) &&& 0x10 = 0 := by
  refine forall_byte ?_
  decide +kernel

theorem out_of_mode : ∀ acr : UInt8, acr &&& 0x1c = 0x1c → acr &&& 0x10 ≠ 0 := by
  refine forall_byte ?_
  decide +kernel

theorem guest_inv {p : Port} (h : p.Inv) (bits : UInt8) : (p.step (.guest bits)).Inv := by
  have hat := h.atPhase
  have hcons := h.conserved
  unfold AtPhase at hat
  show (p.guestStep bits).Inv
  unfold guestStep
  cases hph : p.phase with
  | shiftOut =>
    rw [hph] at hat
    exact ⟨h.listening, ⟨hat, outMode bits⟩, hcons, h.transitions⟩
  | inquire =>
    rw [hph] at hat
    obtain ⟨hquiet, hacr⟩ := hat
    simp only [inquire_eq h.listening hacr]
    refine ⟨h.listening, ⟨⟨rfl, rfl, rfl⟩, out_of_mode _ hacr, .inl ⟨?_, ?_⟩⟩, ?_, h.transitions⟩
    · exact (by decide : (0 : Int) < keyboardByteCycles)
    · exact clearFlags_shiftFlag p.via
    · rw [Keyboard.undelivered, Keyboard.inFlight_notReady hquiet.notReady] at hcons
      exact hcons
  | waitSent =>
    refine poll_inv h .shiftIn fun hf => ?_
    rw [hph] at hat
    obtain ⟨hi, ho, ⟨-, hf0⟩ | ⟨h0, -⟩⟩ := hat
    · rw [hf] at hf0; cases hf0
    · exact ⟨hi, ho, h0⟩
  | shiftIn =>
    rw [hph] at hat
    obtain ⟨hi, -, h0⟩ := hat
    exact ⟨h.listening, ⟨hi, inMode bits, Int.le_of_eq h0.symm⟩, hcons, h.transitions⟩
  | startReception =>
    rw [hph] at hat
    obtain ⟨hi, hin, h0⟩ := hat
    obtain ⟨-, hk, hacr, hcb, hf⟩ := readShiftRegister p.via
    obtain ⟨hi', hs, hu⟩ := hi.read hin h0
    rw [← hk] at hi' hs hu
    refine ⟨by simp only [hcb]; exact h.listening, .inl ⟨hi', by simp only [hacr]; exact hin, hs, hf⟩,
      ?_, h.transitions⟩
    show p.delivered ++ (p.via.readRegister 10).2.keyboard.undelivered = p.queued
    rw [hu]; exact hcons
  | waitResponse =>
    refine poll_inv h .readResponse fun hf => ?_
    rw [hph] at hat
    rcases hat with ⟨-, -, -, hf0⟩ | ⟨hr, h0, -⟩
    · rw [hf] at hf0; cases hf0
    · exact ⟨hr, h0⟩
  | readResponse =>
    rw [hph] at hat
    obtain ⟨hr, h0⟩ := hat
    obtain ⟨hv, hk, -, hcb, -⟩ := readShiftRegister p.via
    have hread := Keyboard.read_ready hr p.via.auxiliaryControl
    refine ⟨by simp only [hcb]; exact h.listening, ?_, ?_, h.transitions⟩
    · show (p.via.readRegister 10).2.keyboard.Quiet
      rw [hk, hread]
      exact ⟨rfl, rfl, h0⟩
    · show (p.responses ++ [(p.via.readRegister 10).1]).filter _ ++
        (p.via.readRegister 10).2.keyboard.undelivered = p.queued
      rw [hv, hk, hread, ← hcons]
      by_cases h7b : p.via.keyboard.shiftRegister = 0x7b
      · simp [delivered, Keyboard.undelivered, Keyboard.inFlight, h7b]
      · simp [delivered, Keyboard.undelivered, Keyboard.inFlight, h7b, hr]

theorem step_inv {p : Port} {e : Event} (hok : p.InTime e) (h : p.Inv) : (p.step e).Inv := by
  cases e with
  | key c b => exact key_inv h c b
  | tick cycles => exact tick_inv h hok
  | guest bits => exact guest_inv h bits

/-! ## Whole runs -/

open Machine

/-- An adapter after its reset, and a guest that starts to ask. -/
def start (via : Via6522) : Port := { via := via.reset }

theorem start_inv {via : Via6522} (hcb : via.callbacks.shiftRegisterWrite = false) :
    (start via).Inv := by
  have hk : via.reset.keyboard = {} := by
    simp [Via6522.reset, Via6522.notifyPortAChanged, Via6522.callPortBChanged]
  have hc : via.reset.callbacks = via.callbacks := by
    simp [Via6522.reset, Via6522.notifyPortAChanged, Via6522.callPortBChanged]
  refine ⟨by rw [start, hc]; exact hcb, ?_, ?_, by simp [start]⟩
  · show via.reset.keyboard.Quiet
    rw [hk]; exact ⟨rfl, rfl, rfl⟩
  · show _ ++ via.reset.keyboard.undelivered = []
    rw [hk]; rfl

theorem run_inv {p : Port} (h : p.Inv) {es : List Event} (hg : Guarded step InTime p es) :
    (run step p es).Inv :=
  guarded_run_inv (fun _ _ hok hi => step_inv hok hi) h hg

/-- How far the guest is from the next transition: twelve steps at most. -/
def rank (p : Port) : Nat :=
  12 * p.via.keyboard.transitions.length +
    match p.phase with
    | .waitResponse => if p.via.keyboard.responseReady then 11 else 3
    | .readResponse => 10
    | .shiftOut => 9
    | .inquire => 8
    | .waitSent => if 0 < p.via.keyboard.shiftCycles then 7 else 6
    | .shiftIn => 5
    | .startReception => 4

/-- A tick of all that is left of a shift ends it. -/
theorem tick_rest {s : Via6522} (h : 0 < s.keyboard.shiftCycles) :
    (s.tick s.keyboard.shiftCycles).keyboard = s.keyboard.finish s.auxiliaryControl := by
  rcases s.tick_keyboard_cases s.keyboard.shiftCycles with ⟨-, -, h0⟩ | ⟨-, hlt, -⟩ | ⟨-, -, hk, -⟩
  · have := h0 h; omega
  · omega
  · exact hk

/-- While something is undelivered, the clock or the guest comes closer to it. -/
theorem exists_advance {p : Port} (h : p.Inv) (hu : p.via.keyboard.undelivered ≠ []) :
    ∃ e, e.Keyless ∧ p.InTime e ∧ (p.step e).rank < p.rank := by
  have hat := h.atPhase
  unfold AtPhase at hat
  cases hph : p.phase with
  | shiftOut =>
    refine ⟨.guest 0, trivial, trivial, ?_⟩
    simp only [step, guestStep, rank, hph]
    show 12 * p.via.keyboard.transitions.length + 8 < _
    omega
  | inquire =>
    rw [hph] at hat
    refine ⟨.guest 0, trivial, trivial, ?_⟩
    simp only [step, guestStep, rank, hph, inquire_eq h.listening hat.2]
    show 12 * p.via.keyboard.transitions.length + 7 < _
    omega
  | waitSent =>
    rw [hph] at hat
    obtain ⟨-, ho, ⟨hs, -⟩ | ⟨h0, hf⟩⟩ := hat
    · refine ⟨.tick p.via.keyboard.shiftCycles, trivial, ?_, ?_⟩
      · intro hst; rw [hph] at hst; cases hst
      · simp only [step, rank, hph, tick_rest hs, Keyboard.finish_out ho, if_pos hs]
        simp
    · refine ⟨.guest 0, trivial, trivial, ?_⟩
      simp [step, guestStep, rank, hph, poll_eq, hf, h0]
  | shiftIn =>
    refine ⟨.guest 0, trivial, trivial, ?_⟩
    simp only [step, guestStep, rank, hph]
    show 12 * p.via.keyboard.transitions.length + 4 < _
    omega
  | startReception =>
    rw [hph] at hat
    obtain ⟨hi, hin, h0⟩ := hat
    obtain ⟨-, hk, -, -, -⟩ := readShiftRegister p.via
    obtain ⟨hi', -, hund⟩ := hi.read hin h0
    have hts : (p.via.keyboard.read p.via.auxiliaryControl).transitions =
        p.via.keyboard.transitions := by
      simpa [Keyboard.undelivered, Keyboard.inFlight_notReady hi'.notReady,
        Keyboard.inFlight_notReady hi.notReady] using hund
    refine ⟨.guest 0, trivial, trivial, ?_⟩
    simp [step, guestStep, rank, hph, hk, hts, hi'.notReady]
  | waitResponse =>
    rw [hph] at hat
    rcases hat with ⟨hi, hin, hs, -⟩ | ⟨hr, -, hf⟩
    · obtain ⟨hr, -, hts⟩ := Keyboard.finish_in hi hin h.queue
      have hne : p.via.keyboard.transitions ≠ [] := by
        simpa [Keyboard.undelivered, Keyboard.inFlight_notReady hi.notReady] using hu
      have hlen := List.length_pos_iff.2 hne
      refine ⟨.tick p.via.keyboard.shiftCycles, trivial, ?_, ?_⟩
      · intro hst; rw [hph] at hst; cases hst
      · simp only [step, rank, hph, tick_rest hs, hr, hi.notReady, hts, List.length_tail, if_true]
        simp only [Bool.false_eq_true, if_false]
        omega
    · refine ⟨.guest 0, trivial, trivial, ?_⟩
      simp [step, guestStep, rank, hph, poll_eq, hf, hr]
  | readResponse =>
    rw [hph] at hat
    obtain ⟨-, hk, -, -, -⟩ := readShiftRegister p.via
    refine ⟨.guest 0, trivial, trivial, ?_⟩
    simp [step, guestStep, rank, hph, hk, Keyboard.read_ready hat.1]

theorem queued_step {p : Port} {e : Event} (h : e.Keyless) : (p.step e).queued = p.queued := by
  cases e with
  | key c b => exact h.elim
  | tick cycles => rfl
  | guest bits =>
    show (p.guestStep bits).queued = p.queued
    unfold guestStep poll
    cases p.phase <;> simp only <;> split <;> rfl

/-- From any good state the guest and the clock alone deliver everything. -/
theorem exists_drain : ∀ (n : Nat) {p : Port}, p.rank ≤ n → p.Inv →
    ∃ more, (∀ e ∈ more, e.Keyless) ∧ Guarded step InTime p more ∧
      (run step p more).delivered = p.queued
  | n, p, hn, h => by
    by_cases hu : p.via.keyboard.undelivered = []
    · refine ⟨[], by simp, trivial, ?_⟩
      have hc := h.conserved
      rw [hu, List.append_nil] at hc
      exact hc
    · obtain ⟨e, hkey, hok, hlt⟩ := exists_advance h hu
      match n with
      | 0 => omega
      | n + 1 =>
        obtain ⟨more, hkeys, hg, hd⟩ := exists_drain n (by omega) (step_inv hok h)
        refine ⟨e :: more, ?_, ⟨hok, hg⟩, by rw [run_cons, hd, queued_step hkey]⟩
        intro e' he'
        rcases List.mem_cons.1 he' with rfl | he'
        · exact hkey
        · exact hkeys e' he'

/-- **Keys.**  As long as no reception ends before the guest starts it, what the guest got,
    what is on its way and what the keyboard still holds is what the host queued, in order;
    and the guest gets all of it if it goes on asking. -/
theorem run_delivers (via : Via6522) (hcb : via.callbacks.shiftRegisterWrite = false)
    (es : List Event) (hg : Guarded step InTime (start via) es) :
    (run step (start via) es).delivered ++ (run step (start via) es).via.keyboard.undelivered =
        (run step (start via) es).queued ∧
      ∃ more, (∀ e ∈ more, e.Keyless) ∧ Guarded step InTime (run step (start via) es) more ∧
        (run step (run step (start via) es) more).delivered =
          (run step (start via) es).queued :=
  have hinv := run_inv (start_inv hcb) hg
  ⟨hinv.conserved, exists_drain _ Nat.le.refl hinv⟩

/-- A transition that is queued while the guest waits for it. -/
theorem run_delivers_waiting :
    ∃ more, (∀ e ∈ more, Event.Keyless e) ∧ (run step (start {}) [.guest 0, .guest 0, .tick 100,
      .guest 0, .guest 0, .guest 0, .tick 1000, .key 5 true]).queued = [0x0a] ∧
      (run step (run step (start {}) [.guest 0, .guest 0, .tick 100, .guest 0, .guest 0, .guest 0,
        .tick 1000, .key 5 true]) more).delivered = [0x0a] :=
  have h := run_delivers {} rfl [.guest 0, .guest 0, .tick 100, .guest 0, .guest 0, .guest 0,
    .tick 1000, .key 5 true] (by decide +kernel)
  have ⟨more, hkeys, _, hd⟩ := h.2
  ⟨more, hkeys, by decide +kernel, hd.trans (by decide +kernel)⟩

/-! ## A reception that ends too early -/

/-- The guest waits, and nothing is under way that could end its wait. -/
structure Stuck (p : Port) : Prop where
  waiting : p.phase = .waitResponse
  quiet : p.via.keyboard.Quiet
  unflagged : p.via.shiftFlag = false

theorem lost_forever {p : Port} (h : p.Stuck) (e : Event) :
    (p.step e).Stuck ∧ (p.step e).responses = p.responses := by
  cases e with
  | key c b => exact ⟨⟨h.waiting, h.quiet.queueTransition c b, h.unflagged⟩, rfl⟩
  | tick cycles =>
    rcases p.via.tick_keyboard_cases cycles with ⟨hk, hf, -⟩ | ⟨hc, hs, -⟩ | ⟨hs, -⟩
    · exact ⟨⟨h.waiting, by simp only [step, hk]; exact h.quiet, hf.trans h.unflagged⟩, rfl⟩
    · have := h.quiet.stopped; omega
    · have := h.quiet.stopped; omega
  | guest bits =>
    have hp : p.step (.guest bits) = p := by
      simp [step, guestStep, h.waiting, poll_eq, h.unflagged]
    rw [hp]
    exact ⟨h, rfl⟩

/-- A key goes down after the guest turned the shift register, and 80 cycles pass before the
    guest's read that starts the reception. -/
def early : List Event :=
  [.guest 0, .guest 0, .tick 80, .guest 0, .guest 0, .key 0 true, .tick 80, .guest 0]

theorem early_delivers_nothing :
    (run step (start {}) early).queued = [0x00] ∧
      ∀ more, (run step (start {}) (early ++ more)).delivered = [] := by
  refine ⟨by decide +kernel, fun more => ?_⟩
  have hstuck : (run step (start {}) early).Stuck :=
    ⟨by decide +kernel, ⟨by decide +kernel, by decide +kernel, by decide +kernel⟩, by decide +kernel⟩
  have hnone : (run step (start {}) early).responses = [] := by decide +kernel
  have hinv : ∀ (q : Port) (e : Event), q.Stuck ∧ q.responses = [] →
      (q.step e).Stuck ∧ (q.step e).responses = [] := by
    rintro q e ⟨hq, hr⟩
    obtain ⟨hq', hr'⟩ := lost_forever hq e
    exact ⟨hq', hr'.trans hr⟩
  rw [run_append, delivered, (Machine.run_inv hinv ⟨hstuck, hnone⟩ more).2]
  rfl

end Port

end CuteMac.Via
