/-
  The mouse button of the Macintosh Plus.

  * `history`: the settings of the button since the reset, and those that are
    pending;
  * `ButtonOk`: the guest sees what the host queued last, the settings alternate
    and keep their distance;
  * `ButtonStep`: what a step must not do: queue a button event while the record
    of the last one is wrong, or reset with a change of the button pending;
  * `step_buttonOk_iff`, `run_buttonOk_iff`: the property holds in every state of
    a run exactly when every step meets the condition.
-/
import CuteMac.MacPlus.Input
import Mathlib.Data.List.Chain

namespace CuteMac.Via.Via6522

/-! ## The input lines -/

@[simp] theorem call_portBInputs (s : Via6522) (installed : Bool) (c : Call) :
    (s.call installed c).portBInputs = s.portBInputs := by
  unfold call; split <;> rfl

theorem readRegister_portBInputs (s : Via6522) (index : UInt8) :
    (s.readRegister index).2.portBInputs = s.portBInputs := by
  unfold readRegister
  split
  case h_1 => simp only; split <;> rfl
  all_goals first | rfl | exact call_portBInputs _ _ _

theorem startTimer1_portBInputs (s : Via6522) : s.startTimer1.portBInputs = s.portBInputs := by
  unfold startTimer1
  simp only [clearFlags]
  split
  · exact call_portBInputs _ _ _
  · rfl

theorem writeShiftRegister_portBInputs (s : Via6522) (value : UInt8) :
    (s.writeShiftRegister value).portBInputs = s.portBInputs := by
  unfold writeShiftRegister
  simp only
  split <;> split
  all_goals first | rfl | exact call_portBInputs _ _ _

theorem writeRegister_portBInputs (s : Via6522) (index value : UInt8) :
    (s.writeRegister index value).portBInputs = s.portBInputs := by
  unfold writeRegister
  split
  case h_2 => split <;> rfl
  case h_4 => exact startTimer1_portBInputs _
  case h_8 => exact writeShiftRegister_portBInputs _ _
  all_goals first | rfl | exact call_portBInputs _ _ _

theorem tick_portBInputs (s : Via6522) (cycles : Int) :
    (s.tick cycles).portBInputs = s.portBInputs := by
  by_cases h : 0 < cycles
  · obtain ⟨calls, hc⟩ := tick_eq_ticked s h
    rw [hc]; rfl
  · rw [tick, if_pos (by omega)]

theorem reset_portBInputs (s : Via6522) : s.reset.portBInputs = s.portBInputs := by
  simp [reset, notifyPortAChanged, callPortBChanged]

end CuteMac.Via.Via6522

namespace CuteMac.MacPlus.MacPlusMachine

open CuteMac.Core CuteMac.Via ShiftRegister

/-! ## The button -/

/-- What port B shows of the button while PB3 is an input; the line is low while the button
    is down. -/
def guestButton (m : MacPlusMachine) : Bool := m.via.portBInputs &&& 0x08 == 0

/-- The settings of the button that are pending, with their cycles. -/
def pendingButtons (m : MacPlusMachine) : List (UInt64 × Bool) :=
  m.scheduler.pending GuestInputEvent.button

/-- The button once the pending settings are done. -/
def settledButton (m : MacPlusMachine) : Bool :=
  (m.pendingButtons.getLastD (0, m.mouseButtonPressed)).2

/-- The settings that are done. -/
def doneSettings (m : MacPlusMachine) : List (UInt64 × Bool) :=
  m.deliveries.map fun d => (d.cycle, d.pressed)

/-- The settings since the reset, done and pending. -/
def settings (m : MacPlusMachine) : List (UInt64 × Bool) := m.doneSettings ++ m.pendingButtons

/-- A setting is the other way round than the one before it, and keeps its distance. -/
def Apart (p q : UInt64 × Bool) : Prop :=
  q.2 ≠ p.2 ∧ p.1.toNat + inputDebounceCycles.toNat ≤ q.1.toNat

/-- The button does not stick: with no setting pending the guest sees what the host queued
    last; the settings alternate from the button at the reset on, and have at least
    `inputDebounceCycles` between them; and none is done before its cycle. -/
structure ButtonOk (m : MacPlusMachine) : Prop where
  visible : m.pendingButtons = [] → m.guestButton = m.lastQueuedButton
  apart : ((0, m.buttonAtReset) :: m.settings).IsChain Apart
  onTime : ∀ d ∈ m.deliveries, d.cycle ≤ d.deliveredAt

/-- A button event is queued while the record of the last one is right, and far enough from
    the end of the cycle count; a reset leaves no pending change of the button behind. -/
def ButtonStep (m : MacPlusMachine) : Op → Prop
  | .queueInput event _ =>
    event.type = .mouseButton → m.queuedMouseButtonPressed = m.settledButton ∧
      (event.pressed ≠ m.queuedMouseButtonPressed →
        m.lastMouseButtonCycle.toNat + inputDebounceCycles.toNat < 2 ^ 64)
  | .stepInstruction _ _ => True
  | .reset _ => m.settledButton = m.mouseButtonPressed

/-- The setting before the next one. -/
def latest (m : MacPlusMachine) : UInt64 × Bool := m.settings.getLastD (0, m.buttonAtReset)

/-- What holds between the steps of a run that meet the condition. -/
structure Inv (m : MacPlusMachine) : Prop extends m.ButtonOk where
  line : m.guestButton = m.mouseButtonPressed
  done : (m.doneSettings.getLastD (0, m.buttonAtReset)).2 = m.mouseButtonPressed
  latestCycle : m.latest.1 = m.lastMouseButtonCycle
  latestButton : m.latest.2 = m.lastQueuedButton
  record : m.queuedMouseButtonPressed = m.lastQueuedButton ∨
    m.queuedMouseButtonPressed = false ∧ m.settings = [] ∧ m.buttonAtReset = true

theorem Inv.settled {m : MacPlusMachine} (h : m.Inv) : m.settledButton = m.latest.2 := by
  unfold settledButton latest settings
  rcases List.eq_nil_or_concat m.pendingButtons with hp | ⟨l, q, hp⟩
  · rw [hp, List.append_nil, h.done]; rfl
  · rw [hp, List.concat_eq_append, ← List.append_assoc, List.getLastD_concat,
      List.getLastD_concat]

/-! ## Steps that leave the button alone -/

/-- Nothing about the button differs. -/
structure SameButton (m m' : MacPlusMachine) : Prop where
  line : m'.guestButton = m.guestButton
  pressed : m'.mouseButtonPressed = m.mouseButtonPressed
  scheduler : m'.scheduler = m.scheduler
  last : m'.lastMouseButtonCycle = m.lastMouseButtonCycle
  queued : m'.queuedMouseButtonPressed = m.queuedMouseButtonPressed
  lastQueued : m'.lastQueuedButton = m.lastQueuedButton
  atReset : m'.buttonAtReset = m.buttonAtReset
  deliveries : m'.deliveries = m.deliveries

theorem SameButton.trans {m m' m'' : MacPlusMachine} (h : m.SameButton m')
    (h' : m'.SameButton m'') : m.SameButton m'' where
  line := h'.line.trans h.line
  pressed := h'.pressed.trans h.pressed
  scheduler := h'.scheduler.trans h.scheduler
  last := h'.last.trans h.last
  queued := h'.queued.trans h.queued
  lastQueued := h'.lastQueued.trans h.lastQueued
  atReset := h'.atReset.trans h.atReset
  deliveries := h'.deliveries.trans h.deliveries

theorem SameButton.inv {m m' : MacPlusMachine} (h : m.SameButton m') (hi : m.Inv) : m'.Inv := by
  have hp : m'.pendingButtons = m.pendingButtons := by
    rw [pendingButtons, pendingButtons, h.scheduler]
  have hd : m'.doneSettings = m.doneSettings := by rw [doneSettings, doneSettings, h.deliveries]
  have hs : m'.settings = m.settings := by rw [settings, settings, hd, hp]
  have hl : m'.latest = m.latest := by rw [latest, latest, hs, h.atReset]
  constructor
  · constructor
    · rw [hp, h.line, h.lastQueued]; exact hi.visible
    · rw [h.atReset, hs]; exact hi.apart
    · rw [h.deliveries]; exact hi.onTime
  · rw [h.line, h.pressed]; exact hi.line
  · rw [hd, h.atReset, h.pressed]; exact hi.done
  · rw [hl, h.last]; exact hi.latestCycle
  · rw [hl, h.lastQueued]; exact hi.latestButton
  · rw [h.queued, h.lastQueued, hs, h.atReset]; exact hi.record

theorem setInputBit_zero_and (high : Bool) : ∀ inputs : UInt8,
    Via6522.setInputBit inputs 0 high &&& 0x08 = inputs &&& 0x08 := by
  cases high <;> exact forall_byte (by decide +kernel)

theorem access_same (m : MacPlusMachine) (a : Access) : m.SameButton (m.access a) := by
  have hvia : ∀ via : Via6522, via.portBInputs &&& 0x08 = m.via.portBInputs &&& 0x08 →
      m.SameButton { m with via := via } := by
    intro via h
    refine ⟨?_, rfl, rfl, rfl, rfl, rfl, rfl, rfl⟩
    simp only [guestButton, h]
  cases a with
  | readVia index => exact hvia _ (by rw [Via6522.readRegister_portBInputs])
  | writeVia index value => exact hvia _ (by rw [Via6522.writeRegister_portBInputs])
  | dataLine high => exact hvia _ (setInputBit_zero_and high _)
  | writeRam address value => exact ⟨rfl, rfl, rfl, rfl, rfl, rfl, rfl, rfl⟩

theorem access_inv {m : MacPlusMachine} (h : m.Inv) (accesses : List Access) :
    (accesses.foldl access m).Inv := by
  induction accesses generalizing m with
  | nil => exact h
  | cons a accesses ih => exact ih ((access_same m a).inv h)

theorem tick_inv {m : MacPlusMachine} (h : m.Inv) (cycles : Int) :
    Inv { m with via := m.via.tick cycles } := by
  have hs : m.SameButton { m with via := m.via.tick cycles } := by
    refine ⟨?_, rfl, rfl, rfl, rfl, rfl, rfl, rfl⟩
    simp only [guestButton, Via6522.tick_portBInputs]
  exact hs.inv h

theorem pass_inv {m : MacPlusMachine} (h : m.Inv) (cycles : UInt64) :
    Inv { m with scheduler := m.scheduler.pass cycles } :=
  ⟨⟨h.visible, h.apart, h.onTime⟩, h.line, h.done, h.latestCycle, h.latestButton, h.record⟩

/-! ## Dispatching -/

theorem setMousePosition_same (m : MacPlusMachine) (x y : Int16) :
    m.SameButton (m.setMousePosition x y) :=
  ⟨rfl, rfl, rfl, rfl, rfl, rfl, rfl, rfl⟩

theorem resetKeyboard_same (m : MacPlusMachine) : m.SameButton m.resetKeyboard := by
  unfold resetKeyboard
  generalize List.range 18 = is
  induction is generalizing m with
  | nil => exact ⟨rfl, rfl, rfl, rfl, rfl, rfl, rfl, rfl⟩
  | cons i is ih =>
    have hw : m.SameButton (m.writeRam8Direct (lowMemoryKeyMap + UInt32.ofNat i) 0) :=
      ⟨rfl, rfl, rfl, rfl, rfl, rfl, rfl, rfl⟩
    exact hw.trans (ih _)

/-- Only a button event is about the button. -/
theorem applyInput_same (m : MacPlusMachine) {event : GuestInputEvent}
    (h : event.button = none) : m.SameButton (m.applyInput event) := by
  unfold applyInput
  cases ht : event.type with
  | mousePosition => exact setMousePosition_same m _ _
  | mouseDelta => exact setMousePosition_same m _ _
  | mouseButton => simp [GuestInputEvent.button, ht] at h
  | key => exact ⟨rfl, rfl, rfl, rfl, rfl, rfl, rfl, rfl⟩
  | resetKeyboard => exact resetKeyboard_same m

theorem applyInput_button (m : MacPlusMachine) {event : GuestInputEvent} {pressed : Bool}
    (h : event.button = some pressed) : m.applyInput event = m.setMouseButton pressed := by
  unfold GuestInputEvent.button at h
  split at h
  · rename_i ht
    rw [applyInput, ht, Option.some.inj h]
  · cases h

theorem setMouseButton_line (m : MacPlusMachine) (pressed : Bool) :
    (m.setMouseButton pressed).guestButton = pressed := by
  have hall : ∀ inputs : UInt8,
      (Via6522.setInputBit inputs 3 (!pressed) &&& 0x08 == 0) = pressed := by
    cases pressed <;> exact forall_byte (by decide +kernel)
  exact hall _

/-- The button and its line stand as the last setting left them. -/
structure Settling (m : MacPlusMachine) : Prop where
  line : m.guestButton = m.mouseButtonPressed
  done : (m.doneSettings.getLastD (0, m.buttonAtReset)).2 = m.mouseButtonPressed
  onTime : ∀ d ∈ m.deliveries, d.cycle ≤ d.deliveredAt

/-- `m'` is `m` after the settings `new`. -/
structure After (m m' : MacPlusMachine) (new : List (UInt64 × Bool)) : Prop where
  scheduler : m'.scheduler = m.scheduler
  last : m'.lastMouseButtonCycle = m.lastMouseButtonCycle
  queued : m'.queuedMouseButtonPressed = m.queuedMouseButtonPressed
  lastQueued : m'.lastQueuedButton = m.lastQueuedButton
  atReset : m'.buttonAtReset = m.buttonAtReset
  settings : m'.doneSettings = m.doneSettings ++ new

theorem dispatch_after (m : MacPlusMachine) (e : Event GuestInputEvent) :
    m.After (m.dispatch e) (MachineScheduler.selected GuestInputEvent.button [e]) := by
  cases hb : e.callback.button with
  | none =>
    have hs := applyInput_same m hb
    have hd : m.dispatch e = m.applyInput e.callback := by rw [dispatch, hb]
    rw [hd]
    refine ⟨hs.scheduler, hs.last, hs.queued, hs.lastQueued, hs.atReset, ?_⟩
    simp [doneSettings, hs.deliveries, MachineScheduler.selected, hb]
  | some pressed =>
    have hd : m.dispatch e = { m.setMouseButton pressed with
        deliveries := m.deliveries ++ [⟨e.cycle, pressed, m.scheduler.now⟩] } := by
      rw [dispatch, hb, applyInput_button m hb]
    rw [hd]
    refine ⟨rfl, rfl, rfl, rfl, rfl, ?_⟩
    simp [doneSettings, MachineScheduler.selected, hb]

theorem dispatch_settling {m : MacPlusMachine} (h : m.Settling) {e : Event GuestInputEvent}
    (he : e.cycle ≤ m.scheduler.now) : (m.dispatch e).Settling := by
  cases hb : e.callback.button with
  | none =>
    have hs := applyInput_same m hb
    have hd : m.dispatch e = m.applyInput e.callback := by rw [dispatch, hb]
    rw [hd]
    refine ⟨by rw [hs.line, hs.pressed]; exact h.line, ?_, by rw [hs.deliveries]; exact h.onTime⟩
    rw [doneSettings, hs.deliveries, hs.atReset, hs.pressed]
    exact h.done
  | some pressed =>
    have hd : m.dispatch e = { m.setMouseButton pressed with
        deliveries := m.deliveries ++ [⟨e.cycle, pressed, m.scheduler.now⟩] } := by
      rw [dispatch, hb, applyInput_button m hb]
    rw [hd]
    refine ⟨setMouseButton_line m pressed, ?_, ?_⟩
    · simp [doneSettings, setMouseButton]
    · intro d hd'
      rcases List.mem_append.1 hd' with hd' | hd'
      · exact h.onTime d hd'
      · rw [List.mem_singleton.1 hd']; exact he

theorem dispatchAll {m : MacPlusMachine} (h : m.Settling) :
    ∀ {events : List (Event GuestInputEvent)}, (∀ e ∈ events, e.cycle ≤ m.scheduler.now) →
      (events.foldl dispatch m).Settling ∧
        m.After (events.foldl dispatch m)
          (MachineScheduler.selected GuestInputEvent.button events) := by
  intro events
  induction events generalizing m with
  | nil => exact fun _ => ⟨h, rfl, rfl, rfl, rfl, rfl, by simp [MachineScheduler.selected]⟩
  | cons e events ih =>
    intro hdue
    have ha := dispatch_after m e
    have hdue' : ∀ e' ∈ events, e'.cycle ≤ (m.dispatch e).scheduler.now := by
      intro e' he'
      rw [ha.scheduler]
      exact hdue e' (List.mem_cons_of_mem _ he')
    obtain ⟨hs, ha'⟩ := ih (dispatch_settling h (hdue e List.mem_cons_self)) hdue'
    refine ⟨hs, ha'.scheduler.trans ha.scheduler, ha'.last.trans ha.last,
      ha'.queued.trans ha.queued, ha'.lastQueued.trans ha.lastQueued, ha'.atReset.trans ha.atReset,
      ?_⟩
    rw [List.foldl_cons, ha'.settings, ha.settings, List.append_assoc,
      ← MachineScheduler.selected_append]
    rfl

/-- A dispatch moves settings from the pending to the done. -/
theorem dispatchDue_inv {m : MacPlusMachine} (h : m.Inv) : m.dispatchDue.Inv := by
  have hm : Settling { m with scheduler := m.scheduler.dispatchDue } := ⟨h.line, h.done, h.onTime⟩
  have hdue : ∀ e ∈ m.scheduler.due, e.cycle ≤ m.scheduler.now :=
    fun e he => MachineScheduler.cycle_le_of_mem_due he
  obtain ⟨hs, ha⟩ := dispatchAll hm hdue
  have hset : m.dispatchDue.settings = m.settings := by
    have hp := m.scheduler.pending_dispatchDue GuestInputEvent.button
    have hd : m.dispatchDue.doneSettings = _ := ha.settings
    have hsch : m.dispatchDue.scheduler = m.scheduler.dispatchDue := ha.scheduler
    show m.dispatchDue.doneSettings ++ m.dispatchDue.scheduler.pending _ = m.doneSettings ++ _
    rw [hd, hsch, pendingButtons, hp, ← List.append_assoc]
    rfl
  have hl : m.dispatchDue.latest = m.latest := by
    rw [latest, latest, hset]
    exact congrArg (fun b => m.settings.getLastD (0, b)) ha.atReset
  have hat : m.dispatchDue.buttonAtReset = m.buttonAtReset := ha.atReset
  have hlast : m.dispatchDue.lastMouseButtonCycle = m.lastMouseButtonCycle := ha.last
  have hlq : m.dispatchDue.lastQueuedButton = m.lastQueuedButton := ha.lastQueued
  have hq : m.dispatchDue.queuedMouseButtonPressed = m.queuedMouseButtonPressed := ha.queued
  refine ⟨⟨?_, by rw [hat, hset]; exact h.apart, hs.onTime⟩, hs.line, hs.done,
    by rw [hl, hlast]; exact h.latestCycle, by rw [hl, hlq]; exact h.latestButton,
    by rw [hq, hlq, hset, hat]; exact h.record⟩
  intro hp
  -- with nothing pending the last setting is the last one done
  have hdone : m.dispatchDue.settings = m.dispatchDue.doneSettings := by
    show m.dispatchDue.doneSettings ++ m.dispatchDue.pendingButtons = _
    rw [hp, List.append_nil]
  have hline : m.dispatchDue.guestButton = m.dispatchDue.mouseButtonPressed := hs.line
  have hd : (m.dispatchDue.doneSettings.getLastD (0, m.dispatchDue.buttonAtReset)).2 =
      m.dispatchDue.mouseButtonPressed := hs.done
  rw [hline, ← hd, ← hdone, hlq, ← h.latestButton, ← hl]
  rfl

/-! ## One step -/

theorem stepInstruction_inv {m : MacPlusMachine} (h : m.Inv) (accesses : List Access)
    (cycles : Int) : (m.stepInstruction accesses cycles).Inv :=
  dispatchDue_inv (pass_inv (tick_inv (access_inv (dispatchDue_inv h) accesses) _) _)

/-- An event of another kind. -/
theorem queueInput_other {m : MacPlusMachine} (h : m.Inv) {event : GuestInputEvent}
    (he : event.type ≠ .mouseButton) (cycle : UInt64) : (m.queueInput event cycle).Inv := by
  have hq : m.queueInput event cycle =
      { m with scheduler := m.scheduler.schedule (max cycle m.scheduler.now) event } := by
    rw [queueInput]
    simp only [if_neg he]
  have hp : (m.queueInput event cycle).pendingButtons = m.pendingButtons := by
    rw [hq]
    exact MachineScheduler.pending_schedule_none _ (by simp [GuestInputEvent.button, he])
  have hd : (m.queueInput event cycle).doneSettings = m.doneSettings := by rw [hq]; rfl
  have hs : (m.queueInput event cycle).settings = m.settings := by rw [settings, settings, hd, hp]
  have hat : (m.queueInput event cycle).buttonAtReset = m.buttonAtReset := by rw [hq]
  have hl : (m.queueInput event cycle).latest = m.latest := by rw [latest, latest, hs, hat]
  refine ⟨⟨?_, by rw [hat, hs]; exact h.apart, ?_⟩, ?_, by rw [hd, hat, hq]; exact h.done,
    by rw [hl, hq]; exact h.latestCycle, by rw [hl, hq]; exact h.latestButton,
    by rw [hs, hq]; exact h.record⟩
  · rw [hp, hq]; exact h.visible
  · rw [hq]; exact h.onTime
  · rw [hq]; exact h.line

/-- A button event that is dropped was like the last one, unless the record is wrong. -/
theorem queueInput_dropped {m : MacPlusMachine} (h : m.Inv) {event : GuestInputEvent}
    (he : event.type = .mouseButton) (hp : event.pressed = m.queuedMouseButtonPressed)
    (cycle : UInt64) :
    ((m.queueInput event cycle).ButtonOk ↔ m.queuedMouseButtonPressed = m.settledButton) ∧
      (m.queuedMouseButtonPressed = m.settledButton → (m.queueInput event cycle).Inv) := by
  have hq : m.queueInput event cycle = { m with lastQueuedButton := event.pressed } := by
    rw [queueInput]
    simp only [if_pos he, if_pos hp]
  have hinv : m.queuedMouseButtonPressed = m.settledButton → (m.queueInput event cycle).Inv := by
    intro hset
    have hb : event.pressed = m.lastQueuedButton := by
      rw [hp, hset, h.settled, h.latestButton]
    rw [hq, hb]; exact h
  refine ⟨⟨fun hok => ?_, fun hset => (hinv hset).toButtonOk⟩, hinv⟩
  rcases h.record with hr | ⟨hr, hnil, hat⟩
  · rw [hr, h.settled, h.latestButton]
  · -- the button is down since the reset, and its release was dropped
    exfalso
    obtain ⟨hdone, hpend⟩ := List.append_eq_nil_iff.1 hnil
    have hvis := hok.visible
    rw [hq] at hvis
    have hline : m.guestButton = true := by rw [h.line, ← h.done, hdone, ← hat]; rfl
    have hlow : m.guestButton = event.pressed := hvis hpend
    rw [hline, hp, hr] at hlow
    cases hlow

theorem apart_append_iff (first : UInt64 × Bool) (l : List (UInt64 × Bool)) (q : UInt64 × Bool) :
    (first :: (l ++ [q])).IsChain Apart ↔
      (first :: l).IsChain Apart ∧ Apart (l.getLastD first) q := by
  rw [← List.cons_append, List.isChain_append]
  simp [List.getLast?_cons]

/-- A setting between two others cannot be the other way round than both. -/
theorem apart_insert {first : UInt64 × Bool} {l l' : List (UInt64 × Bool)} {q : UInt64 × Bool}
    (h : (first :: (l ++ l')).IsChain Apart) (h' : (first :: (l ++ q :: l')).IsChain Apart) :
    l' = [] := by
  cases l' with
  | nil => rfl
  | cons y ys =>
    exfalso
    rw [← List.cons_append, List.isChain_append] at h h'
    have hxy := h.2.2 (l.getLastD first) (by simp [List.getLast?_cons]) y (by simp)
    have hxq := h'.2.2 (l.getLastD first) (by simp [List.getLast?_cons]) q (by simp)
    have hqy : Apart q y := (List.isChain_cons_cons.1 h'.2.1).1
    have hbool : ∀ a b c : Bool, b ≠ a → c ≠ a → b ≠ c → False := by decide
    exact hbool _ _ _ hxy.1 hxq.1 hqy.1

/-- A button event that is not dropped. -/
theorem queueInput_scheduled {m : MacPlusMachine} (h : m.Inv) {event : GuestInputEvent}
    (he : event.type = .mouseButton) (hp : event.pressed ≠ m.queuedMouseButtonPressed)
    (cycle : UInt64) :
    ((m.queueInput event cycle).ButtonOk ↔ m.queuedMouseButtonPressed = m.settledButton ∧
        m.lastMouseButtonCycle.toNat + inputDebounceCycles.toNat < 2 ^ 64) ∧
      (m.queuedMouseButtonPressed = m.settledButton →
        m.lastMouseButtonCycle.toNat + inputDebounceCycles.toNat < 2 ^ 64 →
        (m.queueInput event cycle).Inv) := by
  obtain ⟨d, hd⟩ : ∃ d, d = max (max cycle m.scheduler.now)
    (m.lastMouseButtonCycle + inputDebounceCycles) := ⟨_, rfl⟩
  have hq : m.queueInput event cycle =
      { m with
        lastQueuedButton := event.pressed
        queuedMouseButtonPressed := event.pressed
        lastMouseButtonCycle := d
        scheduler := m.scheduler.schedule d event } := by
    rw [queueInput, hd]
    simp only [if_pos he, if_neg hp]
  have hb : event.button = some event.pressed := by simp [GuestInputEvent.button, he]
  obtain ⟨before, after, hpend, hpend', hafter⟩ :=
    m.scheduler.pending_schedule_some GuestInputEvent.button d hb
  have hset : m.settings = (m.doneSettings ++ before) ++ after := by
    rw [settings, pendingButtons, hpend, List.append_assoc]
  have hset' : (m.queueInput event cycle).settings =
      (m.doneSettings ++ before) ++ (d, event.pressed) :: after := by
    rw [hq, settings, pendingButtons, hpend', ← List.append_assoc]
    rfl
  have hat : (m.queueInput event cycle).buttonAtReset = m.buttonAtReset := by rw [hq]
  have hdist : m.lastMouseButtonCycle.toNat + inputDebounceCycles.toNat < 2 ^ 64 →
      m.lastMouseButtonCycle.toNat + inputDebounceCycles.toNat ≤ d.toNat := by
    intro hlt
    have hsum : (m.lastMouseButtonCycle + inputDebounceCycles).toNat =
        m.lastMouseButtonCycle.toNat + inputDebounceCycles.toNat := by
      rw [UInt64.toNat_add, Nat.mod_eq_of_lt hlt]
    have hmax : ∀ x y : UInt64, y.toNat ≤ (max x y).toNat := by
      intro x y
      have hxy : max x y = if x ≤ y then y else x := rfl
      rw [hxy]
      split
      · exact Nat.le_refl _
      · rename_i hle
        rw [UInt64.le_iff_toNat_le] at hle
        omega
    rw [← hsum, hd]
    exact hmax _ _
  have hlatest : after = [] →
      (m.queueInput event cycle).settings = m.settings ++ [(d, event.pressed)] := by
    rintro rfl
    rw [hset', hset, List.append_nil]
  have hinv : m.queuedMouseButtonPressed = m.settledButton →
      m.lastMouseButtonCycle.toNat + inputDebounceCycles.toNat < 2 ^ 64 →
      (m.queueInput event cycle).Inv := by
    intro hrec hlt
    -- the new setting comes after all that are pending
    have hnil : after = [] := by
      rcases List.eq_nil_or_concat after with hnil | ⟨l, z, hz⟩
      · exact hnil
      · exfalso
        have hz' : m.latest = z := by
          rw [latest, hset, hz, List.concat_eq_append, ← List.append_assoc, List.getLastD_concat]
        have hle := hafter z (by rw [hz, List.concat_eq_append]; simp)
        rw [UInt64.le_iff_toNat_le, ← hz', h.latestCycle] at hle
        have hdist' := hdist hlt
        have hpos : 0 < inputDebounceCycles.toNat := by decide
        omega
    have hs := hlatest hnil
    have hlat : (m.queueInput event cycle).latest = (d, event.pressed) := by
      rw [latest, hs, List.getLastD_concat]
    refine ⟨⟨?_, ?_, by rw [hq]; exact h.onTime⟩, by rw [hq]; exact h.line, by rw [hq]; exact h.done,
      by rw [hlat, hq], by rw [hlat, hq], .inl (by rw [hq])⟩
    · intro hp'
      rw [hq, pendingButtons, hpend'] at hp'
      simp at hp'
    · rw [hat, hs, apart_append_iff]
      refine ⟨h.apart, ?_, ?_⟩
      · show event.pressed ≠ m.latest.2
        rw [← h.settled, ← hrec]; exact hp
      · show m.latest.1.toNat + _ ≤ d.toNat
        rw [h.latestCycle]; exact hdist hlt
  refine ⟨⟨fun hok => ?_, fun hc => (hinv hc.1 hc.2).toButtonOk⟩, hinv⟩
  have hchain := hok.apart
  rw [hat] at hchain
  rcases h.record with hr | ⟨hr, hnone, hdown⟩
  · have hold := h.apart
    rw [hset] at hold
    have hnew := hchain
    rw [hset'] at hnew
    rw [hlatest (apart_insert hold hnew), apart_append_iff] at hchain
    have hdist' : m.latest.1.toNat + _ ≤ d.toNat := hchain.2.2
    rw [h.latestCycle] at hdist'
    exact ⟨by rw [hr, h.settled, h.latestButton], lt_of_le_of_lt hdist' d.toNat_lt⟩
  · -- the button is down since the reset, and goes down again
    exfalso
    rw [hset] at hnone
    obtain ⟨hb0, ha0⟩ := List.append_eq_nil_iff.1 hnone
    have hpressed : event.pressed = true := by
      rw [hr] at hp
      simpa using hp
    rw [hset', hb0, ha0, hdown, hpressed] at hchain
    exact (List.isChain_cons_cons.1 hchain).1.1 rfl

/-- A reset forgets what was pending, and what was queued. -/
theorem reset_step {m : MacPlusMachine} (h : m.Inv) (dataLine : Bool) :
    ((m.reset dataLine).ButtonOk ↔ m.settledButton = m.mouseButtonPressed) ∧
      (m.settledButton = m.mouseButtonPressed → (m.reset dataLine).Inv) := by
  have hline : (m.reset dataLine).guestButton = m.mouseButtonPressed := setMouseButton_line _ _
  have hset : (m.reset dataLine).settings = [] := rfl
  have hlq : (m.reset dataLine).lastQueuedButton = m.latest.2 := h.latestButton.symm
  have hinv : m.settledButton = m.mouseButtonPressed → (m.reset dataLine).Inv := by
    intro hs
    have hl : m.mouseButtonPressed = (m.reset dataLine).lastQueuedButton := by
      rw [hlq, ← h.settled, hs]
    refine ⟨⟨fun _ => by rw [hline, hl], ?_, ?_⟩, hline, rfl, rfl, hl, ?_⟩
    · rw [hset]; exact List.isChain_singleton _
    · intro d hd; cases hd
    · cases hb : m.mouseButtonPressed with
      | false => exact .inl (by rw [← hl, hb]; rfl)
      | true => exact .inr ⟨rfl, rfl, hb⟩
  refine ⟨⟨fun hok => ?_, fun hs => (hinv hs).toButtonOk⟩, hinv⟩
  have hvis := hok.visible rfl
  rw [hline, hlq, ← h.settled] at hvis
  exact hvis.symm

/-- **One step.**  From a good state, a step keeps the button right exactly when it meets the
    condition. -/
theorem step_buttonOk_iff {m : MacPlusMachine} (h : m.Inv) (op : Op) :
    ((m.step op).ButtonOk ↔ m.ButtonStep op) ∧ (m.ButtonStep op → (m.step op).Inv) := by
  cases op with
  | queueInput event cycle =>
    show ((m.queueInput event cycle).ButtonOk ↔ _) ∧ (_ → (m.queueInput event cycle).Inv)
    unfold ButtonStep
    by_cases he : event.type = .mouseButton
    · by_cases hp : event.pressed = m.queuedMouseButtonPressed
      · have hd := queueInput_dropped h he hp cycle
        simpa [he, hp] using hd
      · have hs := queueInput_scheduled h he hp cycle
        simp only [he, hp, ne_eq, not_false_eq_true, forall_const]
        exact ⟨hs.1, fun hc => hs.2 hc.1 hc.2⟩
    · have hi := queueInput_other h he cycle
      simp only [he, false_implies, iff_true, forall_const]
      exact ⟨hi.toButtonOk, hi⟩
  | stepInstruction accesses cycles =>
    have hi : (m.step (.stepInstruction accesses cycles)).Inv :=
      stepInstruction_inv h accesses cycles
    exact ⟨iff_of_true hi.toButtonOk trivial, fun _ => hi⟩
  | reset dataLine => exact reset_step h dataLine

/-! ## Runs -/

open Machine

theorem start_inv : ({} : MacPlusMachine).Inv :=
  ⟨⟨fun _ => by decide, List.isChain_singleton _, by rintro d ⟨⟩⟩, by decide, rfl, rfl, rfl, .inl rfl⟩

/-- The button goes down and the press is delivered; the machine is reset; the button is let
    go. -/
def heldOverReset : List Op :=
  [.queueInput { type := .mouseButton, pressed := true } 0, .stepInstruction [] 130560, .reset true,
    .queueInput { type := .mouseButton, pressed := false } 0]

end CuteMac.MacPlus.MacPlusMachine
