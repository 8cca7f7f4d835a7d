/-
  Input through the ADB transceiver.

  * `Books`: the input queued is the input that the guest has got, that is in an
    unread reply and that still waits;
  * `InDomain`: no SendReset, no Flush, and the motion does not saturate;
  * `Spares`: a step that does not prepare a reply over one with unread input;
  * `conserved`: the books balance in every run of such steps.

  A reply takes its input out of the queues when it is prepared, and preparing a
  reply throws the previous one away.
-/
import Mathlib.Tactic.SplitIfs
import CuteMac.Lib.Machine
import CuteMac.Adb.Transceiver
import Mathlib.Algebra.Ring.Int.Defs

namespace CuteMac.Adb

open Machine (run Guarded)

/-! ## Input in replies -/

namespace ReplyByte

def keys (b : ReplyByte) : List UInt8 :=
  match b.cargo with
  | .key event => [event]
  | _ => []

def dx (b : ReplyByte) : Int :=
  match b.cargo with
  | .deltaX delta => delta
  | _ => 0

def dy (b : ReplyByte) : Int :=
  match b.cargo with
  | .deltaY delta => delta
  | _ => 0

@[simp] theorem keys_plain (value : UInt8) : (plain value).keys = [] := rfl
@[simp] theorem dx_plain (value : UInt8) : (plain value).dx = 0 := rfl
@[simp] theorem dy_plain (value : UInt8) : (plain value).dy = 0 := rfl
@[simp] theorem keys_key (event : UInt8) : (key event).keys = [event] := rfl
@[simp] theorem dx_key (event : UInt8) : (key event).dx = 0 := rfl
@[simp] theorem dy_key (event : UInt8) : (key event).dy = 0 := rfl

variable (button : Bool) (delta : Int) (h : -64 ≤ delta ∧ delta ≤ 63)

@[simp] theorem keys_deltaY : (deltaY button delta h).keys = [] := rfl
@[simp] theorem dx_deltaY : (deltaY button delta h).dx = 0 := rfl
@[simp] theorem dy_deltaY : (deltaY button delta h).dy = delta := rfl
@[simp] theorem keys_deltaX : (deltaX delta h).keys = [] := rfl
@[simp] theorem dx_deltaX : (deltaX delta h).dx = delta := rfl
@[simp] theorem dy_deltaX : (deltaX delta h).dy = 0 := rfl

end ReplyByte

def keysOf (bytes : List ReplyByte) : List UInt8 := bytes.flatMap ReplyByte.keys
def dxOf (bytes : List ReplyByte) : Int := (bytes.map ReplyByte.dx).sum
def dyOf (bytes : List ReplyByte) : Int := (bytes.map ReplyByte.dy).sum

@[simp] theorem keysOf_nil : keysOf [] = [] := rfl
@[simp] theorem dxOf_nil : dxOf [] = 0 := rfl
@[simp] theorem dyOf_nil : dyOf [] = 0 := rfl

@[simp] theorem keysOf_cons (b : ReplyByte) (bytes : List ReplyByte) :
    keysOf (b :: bytes) = b.keys ++ keysOf bytes := rfl

@[simp] theorem dxOf_cons (b : ReplyByte) (bytes : List ReplyByte) :
    dxOf (b :: bytes) = b.dx + dxOf bytes := by
  simp [dxOf]

@[simp] theorem dyOf_cons (b : ReplyByte) (bytes : List ReplyByte) :
    dyOf (b :: bytes) = b.dy + dyOf bytes := by
  simp [dyOf]

theorem keysOf_append (bytes more : List ReplyByte) :
    keysOf (bytes ++ more) = keysOf bytes ++ keysOf more := List.flatMap_append

theorem dxOf_append (bytes more : List ReplyByte) :
    dxOf (bytes ++ more) = dxOf bytes + dxOf more := by
  simp [dxOf]

theorem dyOf_append (bytes more : List ReplyByte) :
    dyOf (bytes ++ more) = dyOf bytes + dyOf more := by
  simp [dyOf]

namespace AdbTransceiver

/-- What has left the queues: the bytes that the guest has got, the one on its way and
    the reply that is prepared. -/
def replied (s : AdbTransceiver) : List ReplyByte :=
  s.received ++ s.latchedControllerByte :: s.response

/-- **The books.**  The keys in replies and the keys waiting are the keys queued, in
    order; the motion in replies and the motion waiting add up to the motion queued.  A
    byte on its way is not overwritten: it carries input only while it is sent.  Data
    bytes from the host belong to a LISTEN. -/
structure Books (s : AdbTransceiver) : Prop where
  keys : keysOf s.replied ++ s.keyEvents = s.queuedKeys
  dx : dxOf s.replied + s.mouseDx = s.queuedDx
  dy : dyOf s.replied + s.mouseDy = s.queuedDy
  latched : s.latchedControllerByte.cargo = .none ∨
    0 < s.transferCycles ∧ s.transfer ≠ .hostToController
  listening : s.listenAddress ≠ 0 → operationOf s.command = 2

/-- The reply that is prepared carries no input. -/
structure NothingUnread (s : AdbTransceiver) : Prop where
  keys : keysOf s.response = []
  dx : dxOf s.response = 0
  dy : dyOf s.response = 0

/-- An autopoll now would prepare a reply. -/
def Polls (s : AdbTransceiver) : Prop :=
  s.state = 3 ∧ s.transferCycles = 0 ∧ s.commandPending = false ∧ operationOf s.command = 3

/-- A TALK would put input into its reply. -/
def TalksInput (s : AdbTransceiver) (command : UInt8) : Prop :=
  operationOf command = 3 ∧ registerOf command = 0 ∧
    (addressOf command = s.keyboardAddress ∧ s.keyEvents ≠ [] ∨
      addressOf command ≠ s.keyboardAddress ∧ addressOf command = s.mouseAddress ∧
        (s.mouseDx ≠ 0 ∨ s.mouseDy ≠ 0))

/-- A tick ends the transfer of a command. -/
def Commits (s : AdbTransceiver) (cycles : Int) : Prop :=
  0 < s.transferCycles ∧ s.transferCycles ≤ cycles ∧ s.transfer = .hostToController ∧
    s.listenAddress = 0

/-- A tick runs into an autopoll. -/
def PollsAt (s : AdbTransceiver) (cycles : Int) : Prop :=
  0 < cycles ∧ s.autoPollRequested = true ∧ s.Polls ∧ s.retryCycles ≤ 0 ∧
    (0 < s.responseDelayCycles ∧ s.responseDelayCycles ≤ cycles ∧ s.listenAddress = 0 ∨
      s.responseDelayCycles ≤ 0 ∧ s.deferredTalkCycles ≤ 0)

/-- No SendReset and no Flush, and no saturation. -/
def InDomain (s : AdbTransceiver) : Input → Prop
  | .moveMouse dx dy =>
    -4096 ≤ s.mouseDx + dx ∧ s.mouseDx + dx ≤ 4096 ∧ -4096 ≤ s.mouseDy + dy ∧ s.mouseDy + dy ≤ 4096
  | .tick cycles =>
    s.Commits cycles → s.latchedHostByte &&& 0x0f ≠ 0 ∧ operationOf s.latchedHostByte ≠ 1
  | _ => True

/-- A step that prepares a reply finds no unread input in the one before.  (A command
    that ends in state 3 with an autopoll requested is polled at once, over its own reply.) -/
def Spares (s : AdbTransceiver) : Input → Prop
  | .queueKey _ _ => s.Polls → s.NothingUnread
  | .moveMouse dx dy => dx ≠ 0 ∨ dy ≠ 0 → s.Polls → s.NothingUnread
  | .setMouseButton pressed => s.mouseButton ≠ pressed → s.Polls → s.NothingUnread
  | .setViaState state =>
    state &&& 3 ≠ s.state → s.listenAddress = 0 → s.autoPollRequested = true →
      Polls { s with state := state &&& 3 } → s.NothingUnread
  | .shiftRegisterWritten _ => True
  | .tick cycles =>
    (s.Commits cycles → s.NothingUnread ∧
      ¬ (s.state = 3 ∧ s.autoPollRequested = true ∧ s.TalksInput s.latchedHostByte)) ∧
    (s.PollsAt cycles → s.NothingUnread)

instance (s : AdbTransceiver) : Decidable s.NothingUnread :=
  decidable_of_iff (keysOf s.response = [] ∧ dxOf s.response = 0 ∧ dyOf s.response = 0)
    ⟨fun ⟨h1, h2, h3⟩ => ⟨h1, h2, h3⟩, fun ⟨h1, h2, h3⟩ => ⟨h1, h2, h3⟩⟩

instance (s : AdbTransceiver) : Decidable s.Polls := inferInstanceAs (Decidable (_ ∧ _))

instance (s : AdbTransceiver) (command : UInt8) : Decidable (s.TalksInput command) :=
  inferInstanceAs (Decidable (_ ∧ _))

instance (s : AdbTransceiver) (cycles : Int) : Decidable (s.Commits cycles) :=
  inferInstanceAs (Decidable (_ ∧ _))

instance (s : AdbTransceiver) (cycles : Int) : Decidable (s.PollsAt cycles) :=
  inferInstanceAs (Decidable (_ ∧ _))

instance (s : AdbTransceiver) : ∀ input, Decidable (s.InDomain input)
  | .moveMouse _ _ => inferInstanceAs (Decidable (_ ∧ _))
  | .tick _ => inferInstanceAs (Decidable (_ → _))
  | .queueKey _ _ | .setMouseButton _ | .setViaState _ | .shiftRegisterWritten _ =>
    inferInstanceAs (Decidable True)

instance (s : AdbTransceiver) : ∀ input, Decidable (s.Spares input)
  | .tick _ => inferInstanceAs (Decidable (_ ∧ _))
  | .queueKey _ _ | .moveMouse _ _ | .setMouseButton _ | .setViaState _ =>
    inferInstanceAs (Decidable (_ → _))
  | .shiftRegisterWritten _ => inferInstanceAs (Decidable True)

/-! ## Between transfers -/

/-- The books between transfers, when no byte is on its way. -/
structure Settled (s : AdbTransceiver) : Prop where
  keys : keysOf s.received ++ keysOf s.response ++ s.keyEvents = s.queuedKeys
  dx : dxOf s.received + dxOf s.response + s.mouseDx = s.queuedDx
  dy : dyOf s.received + dyOf s.response + s.mouseDy = s.queuedDy
  free : s.latchedControllerByte.cargo = .none
  listening : s.listenAddress ≠ 0 → operationOf s.command = 2

variable {s : AdbTransceiver}

theorem Books.settled_of_free (h : s.Books) (hfree : s.latchedControllerByte.cargo = .none) :
    s.Settled := by
  have hkeys := h.keys
  have hdx := h.dx
  have hdy := h.dy
  simp only [replied, keysOf_append, keysOf_cons, dxOf_append, dxOf_cons, dyOf_append, dyOf_cons,
    ReplyByte.keys, ReplyByte.dx, ReplyByte.dy, hfree, List.nil_append, Int.zero_add]
    at hkeys hdx hdy
  exact ⟨hkeys, hdx, hdy, hfree, h.listening⟩

theorem Books.settled (h : s.Books) (h0 : ¬ 0 < s.transferCycles) : s.Settled := by
  rcases h.latched with hl | ⟨hl, -⟩
  · exact h.settled_of_free hl
  · exact absurd hl h0

theorem Settled.books (h : s.Settled) : s.Books := by
  refine ⟨?_, ?_, ?_, Or.inl h.free, h.listening⟩
  · simpa [replied, keysOf_append, ReplyByte.keys, h.free] using h.keys
  · simpa [replied, dxOf_append, ReplyByte.dx, h.free, Int.add_assoc] using h.dx
  · simpa [replied, dyOf_append, ReplyByte.dy, h.free, Int.add_assoc] using h.dy

/-- A byte that goes on its way takes its input along. -/
theorem books_startControllerTransfer {b : ReplyByte} {status : Bool} {kind : Transfer}
    (hkeys : keysOf s.received ++ (b.keys ++ keysOf s.response) ++ s.keyEvents = s.queuedKeys)
    (hdx : dxOf s.received + (b.dx + dxOf s.response) + s.mouseDx = s.queuedDx)
    (hdy : dyOf s.received + (b.dy + dyOf s.response) + s.mouseDy = s.queuedDy)
    (hkind : kind ≠ .hostToController)
    (hlisten : s.listenAddress ≠ 0 → operationOf s.command = 2) :
    (s.startControllerTransfer b status kind).Books := by
  refine ⟨?_, ?_, ?_, Or.inr ⟨(by decide : 0 < viaByteCycles), hkind⟩, hlisten⟩
  · simpa [replied, startControllerTransfer, keysOf_append] using hkeys
  · simpa [replied, startControllerTransfer, dxOf_append] using hdx
  · simpa [replied, startControllerTransfer, dyOf_append] using hdy

theorem Settled.start_plain (h : s.Settled) {value : UInt8} {status : Bool} {kind : Transfer}
    (hkind : kind ≠ .hostToController) :
    (s.startControllerTransfer (.plain value) status kind).Books :=
  books_startControllerTransfer (by simpa using h.keys) (by simpa using h.dx) (by simpa using h.dy)
    hkind h.listening

theorem Settled.startHostTransfer (h : s.Settled) (value : UInt8) :
    (s.startHostTransfer value).Books :=
  Settled.books ⟨h.keys, h.dx, h.dy, h.free, h.listening⟩

theorem Settled.transferByte (h : s.Settled) : s.transferByte.Books := by
  have hkeys := h.keys
  have hdx := h.dx
  have hdy := h.dy
  unfold AdbTransceiver.transferByte
  split
  · rename_i hr
    refine Settled.start_plain (s := { s with errorReportPending := false }) ?_ (by decide)
    exact ⟨hkeys, hdx, hdy, h.free, h.listening⟩
  · rename_i b rest hr
    rw [hr] at hkeys hdx hdy
    rw [keysOf_cons] at hkeys
    rw [dxOf_cons] at hdx
    rw [dyOf_cons] at hdy
    exact books_startControllerTransfer hkeys hdx hdy (by decide) h.listening

/-! ## Preparing a reply -/

/-- The books of a reply that is about to be made: nothing is in it yet. -/
structure Cleared (s : AdbTransceiver) : Prop where
  settled : s.Settled
  response : s.response = []
  talkTimedOut : s.talkTimedOut = false

theorem Cleared.talkKeyboard (h : s.Cleared) :
    s.talkKeyboard.Settled ∧ s.talkKeyboard.talkTimedOut = false := by
  obtain ⟨⟨hkeys, hdx, hdy, hfree, hl⟩, hr, ht⟩ := h
  rw [hr] at hkeys hdx hdy
  unfold AdbTransceiver.talkKeyboard
  split
  · rename_i he
    split_ifs
    · exact ⟨⟨by rw [hr]; exact hkeys, by rw [hr]; exact hdx, by rw [hr]; exact hdy, hfree, hl⟩, ht⟩
    · exact ⟨⟨hkeys, hdx, hdy, hfree, hl⟩, ht⟩
  · rename_i first he
    rw [he] at hkeys
    exact ⟨⟨by simpa using hkeys, hdx, hdy, hfree, hl⟩, ht⟩
  · rename_i first second rest he
    rw [he] at hkeys
    exact ⟨⟨by simpa using hkeys, hdx, hdy, hfree, hl⟩, ht⟩

theorem Cleared.talkMouse (h : s.Cleared) :
    s.talkMouse.Settled ∧ s.talkMouse.talkTimedOut = false := by
  obtain ⟨⟨hkeys, hdx, hdy, hfree, hl⟩, hr, ht⟩ := h
  unfold AdbTransceiver.talkMouse
  split_ifs
  · rw [hr] at hkeys hdx hdy
    refine ⟨⟨by simpa using hkeys, ?_, ?_, hfree, hl⟩, ht⟩
    · simp only [dxOf_nil, dxOf_cons, ReplyByte.dx_deltaX, ReplyByte.dx_deltaY] at hdx ⊢
      omega
    · simp only [dyOf_nil, dyOf_cons, ReplyByte.dy_deltaX, ReplyByte.dy_deltaY] at hdy ⊢
      omega
  · exact ⟨⟨hkeys, hdx, hdy, hfree, hl⟩, ht⟩

theorem Cleared.talk (h : s.Cleared) (address reg : UInt8) :
    (s.talk address reg).Settled ∧ (s.talk address reg).talkTimedOut = false := by
  obtain ⟨⟨hkeys, hdx, hdy, hfree, hl⟩, hr, ht⟩ := h
  unfold AdbTransceiver.talk
  split_ifs
  · rw [hr] at hkeys hdx hdy
    exact ⟨⟨hkeys, hdx, hdy, hfree, hl⟩, ht⟩
  · rw [hr] at hkeys hdx hdy
    exact ⟨⟨hkeys, hdx, hdy, hfree, hl⟩, ht⟩
  · exact Cleared.talkKeyboard ⟨⟨hkeys, hdx, hdy, hfree, hl⟩, hr, ht⟩
  · exact Cleared.talkMouse ⟨⟨hkeys, hdx, hdy, hfree, hl⟩, hr, ht⟩
  · exact ⟨⟨hkeys, hdx, hdy, hfree, hl⟩, ht⟩

theorem settled_timeOut (h : s.Settled) (ht : s.talkTimedOut = false) :
    s.timeOut.Settled ∧ (s.timeOut.talkTimedOut = true → s.timeOut.NothingUnread) := by
  unfold AdbTransceiver.timeOut
  split_ifs with hr
  · have hnil := List.isEmpty_iff.mp hr
    have hkeys := h.keys
    have hdx := h.dx
    have hdy := h.dy
    rw [hnil] at hkeys hdx hdy
    exact ⟨⟨hkeys, hdx, hdy, h.free, h.listening⟩, fun _ => ⟨rfl, rfl, rfl⟩⟩
  · exact ⟨h, fun h1 => absurd h1 (by simp [ht])⟩

/-- **Preparing a reply over one that is read keeps the books.** -/
theorem Settled.prepareResponse (h : s.Settled) (hu : s.NothingUnread) {command : UInt8}
    (hreset : command &&& 0x0f ≠ 0) (hflush : operationOf command ≠ 1)
    (hcommand : s.command = command) :
    (s.prepareResponse command).Settled ∧
      ((s.prepareResponse command).talkTimedOut = true →
        (s.prepareResponse command).NothingUnread) := by
  have hc : Cleared { s with
      response := []
      talkTimedOut := false
      errorReportPending := false } := by
    refine ⟨⟨?_, ?_, ?_, h.free, h.listening⟩, rfl, rfl⟩
    · have hkeys := h.keys
      rwa [hu.keys] at hkeys
    · have hdx := h.dx
      rwa [hu.dx] at hdx
    · have hdy := h.dy
      rwa [hu.dy] at hdy
  simp only [AdbTransceiver.prepareResponse]
  rw [if_neg hreset, if_neg hflush]
  split_ifs with hlisten hop
  · refine ⟨⟨hc.settled.keys, hc.settled.dx, hc.settled.dy, hc.settled.free, fun _ => ?_⟩,
      fun h1 => by simp at h1⟩
    exact hcommand ▸ hlisten.1
  · exact ⟨hc.settled, fun h1 => by simp at h1⟩
  · obtain ⟨h1, h2⟩ := hc.talk (addressOf command) (registerOf command)
    exact settled_timeOut h1 h2

/-- A TALK is neither SendReset nor Flush. -/
theorem talk_command {command : UInt8} (h : operationOf command = 3) :
    command &&& 0x0f ≠ 0 ∧ operationOf command ≠ 1 := by
  have hall : ∀ n : Fin 256, operationOf (UInt8.ofNat n) = 3 → UInt8.ofNat n &&& 0x0f ≠ 0 := by
    decide +kernel
  have hn := hall ⟨command.toNat, command.toNat_lt⟩
  rw [UInt8.ofNat_toNat] at hn
  refine ⟨hn h, ?_⟩
  rw [h]
  decide

/-! ## Scheduling -/

theorem Books.requestAutoPoll (h : s.Books) (hu : s.Polls → s.NothingUnread) :
    s.requestAutoPoll.Books := by
  simp only [AdbTransceiver.requestAutoPoll]
  split_ifs with hbusy htimed
  · exact ⟨h.keys, h.dx, h.dy, h.latched, h.listening⟩
  all_goals
    simp only [not_or, not_not, ne_eq, Bool.not_eq_true] at hbusy
    obtain ⟨hstate, hcycles, hpending, hop⟩ := hbusy
    obtain ⟨hreset, hflush⟩ := talk_command hop
    obtain ⟨hkeys, hdx, hdy, hfree, hl⟩ := h.settled (by omega)
    obtain ⟨hukeys, hudx, hudy⟩ := hu ⟨hstate, hcycles, hpending, hop⟩
    have hset : Settled { s with autoPollRequested := true } := ⟨hkeys, hdx, hdy, hfree, hl⟩
    have hnot : NothingUnread { s with autoPollRequested := true } := ⟨hukeys, hudx, hudy⟩
    obtain ⟨h1, h2⟩ := hset.prepareResponse hnot hreset hflush rfl
  · obtain ⟨hk2, hx2, hy2⟩ := h2 htimed
    refine Settled.books ⟨?_, ?_, ?_, h1.free, h1.listening⟩
    · have := h1.keys
      rwa [hk2] at this
    · have := h1.dx
      rwa [hx2] at this
    · have := h1.dy
      rwa [hy2] at this
  · refine Settled.start_plain ?_ ?_
    · exact ⟨h1.keys, h1.dx, h1.dy, h1.free, h1.listening⟩
    · decide

theorem Books.scheduleForState (h : s.Books)
    (hu : s.listenAddress = 0 → s.autoPollRequested = true → s.Polls → s.NothingUnread) :
    s.scheduleForState.Books := by
  unfold AdbTransceiver.scheduleForState
  split_ifs with h0 hhost hlisten hreply hauto
  · exact h
  · exact (h.settled (by omega)).startHostTransfer _
  · exact h
  · exact (h.settled (by omega)).transferByte
  · exact h.requestAutoPoll (hu (not_not.mp hlisten) hauto.2)
  · exact h

/-- The byte on its way arrives. -/
theorem Books.deliver (h : s.Books) : (AdbTransceiver.deliver s).Settled := by
  have hkeys := h.keys
  have hdx := h.dx
  have hdy := h.dy
  simp only [replied, keysOf_append, keysOf_cons, dxOf_append, dxOf_cons, dyOf_append,
    dyOf_cons] at hkeys hdx hdy
  refine ⟨?_, ?_, ?_, rfl, h.listening⟩
  · simpa [AdbTransceiver.deliver, keysOf_append] using hkeys
  · simp only [AdbTransceiver.deliver, dxOf_append, dxOf_cons, dxOf_nil]
    omega
  · simp only [AdbTransceiver.deliver, dyOf_append, dyOf_cons, dyOf_nil]
    omega

/-! ## Bytes from the host -/

theorem Settled.acceptListenByte (h : s.Settled) : (AdbTransceiver.acceptListenByte s).Settled := by
  simp only [AdbTransceiver.acceptListenByte, completeListen]
  split_ifs
  · exact ⟨h.keys, h.dx, h.dy, h.free, fun hne => absurd rfl hne⟩
  · exact ⟨h.keys, h.dx, h.dy, h.free, fun hne => absurd rfl hne⟩
  · exact ⟨h.keys, h.dx, h.dy, h.free, fun hne => absurd rfl hne⟩
  · exact ⟨h.keys, h.dx, h.dy, h.free, h.listening⟩

theorem acceptListenByte_command (s : AdbTransceiver) :
    s.acceptListenByte.command = s.command := by
  simp only [AdbTransceiver.acceptListenByte, completeListen]
  split_ifs <;> rfl

/-- What `talk` and `timeOut` leave alone. -/
structure SameBus (s s' : AdbTransceiver) : Prop where
  state : s'.state = s.state
  command : s'.command = s.command
  autoPollRequested : s'.autoPollRequested = s.autoPollRequested

theorem sameBus_talk (s : AdbTransceiver) (address reg : UInt8) : SameBus s (s.talk address reg) := by
  unfold AdbTransceiver.talk
  split_ifs
  · exact ⟨rfl, rfl, rfl⟩
  · exact ⟨rfl, rfl, rfl⟩
  · unfold AdbTransceiver.talkKeyboard
    split
    · split_ifs <;> exact ⟨rfl, rfl, rfl⟩
    · exact ⟨rfl, rfl, rfl⟩
    · exact ⟨rfl, rfl, rfl⟩
  · unfold AdbTransceiver.talkMouse
    split_ifs <;> exact ⟨rfl, rfl, rfl⟩
  · exact ⟨rfl, rfl, rfl⟩

theorem sameBus_prepareResponse (s : AdbTransceiver) (command : UInt8) :
    SameBus s (s.prepareResponse command) := by
  simp only [AdbTransceiver.prepareResponse]
  split_ifs
  · exact ⟨rfl, rfl, rfl⟩
  · simp only [flush]
    split_ifs <;> exact ⟨rfl, rfl, rfl⟩
  · exact ⟨rfl, rfl, rfl⟩
  · exact ⟨rfl, rfl, rfl⟩
  · obtain ⟨h1, h2, h3⟩ := sameBus_talk { s with
      response := []
      talkTimedOut := false
      errorReportPending := false } (addressOf command) (registerOf command)
    unfold AdbTransceiver.timeOut
    split_ifs <;> exact ⟨h1, h2, h3⟩

theorem nothingUnread_talk {command : UInt8} (hr : s.response = [])
    (hop : operationOf command = 3) (h : ¬ s.TalksInput command) :
    (s.talk (addressOf command) (registerOf command)).NothingUnread := by
  have hnil : s.NothingUnread := by
    refine ⟨?_, ?_, ?_⟩
    · rw [hr]; rfl
    · rw [hr]; rfl
    · rw [hr]; rfl
  have hinput : ¬ (registerOf command = 0 ∧
      (addressOf command = s.keyboardAddress ∧ s.keyEvents ≠ [] ∨
        addressOf command ≠ s.keyboardAddress ∧ addressOf command = s.mouseAddress ∧
          (s.mouseDx ≠ 0 ∨ s.mouseDy ≠ 0))) := fun hi => h ⟨hop, hi⟩
  unfold AdbTransceiver.talk
  split_ifs with h1 h2 h3 h4
  · exact ⟨rfl, rfl, rfl⟩
  · exact ⟨rfl, rfl, rfl⟩
  · have hkeys : s.keyEvents = [] := by
      by_contra hne
      exact hinput ⟨h3.1, Or.inl ⟨h3.2, hne⟩⟩
    rw [talkKeyboard, hkeys]
    simp only
    split_ifs
    · exact hnil
    · exact ⟨rfl, rfl, rfl⟩
  · have hstill : s.mouseDx = 0 ∧ s.mouseDy = 0 := by
      by_contra hne
      exact hinput ⟨h4.1, Or.inr ⟨fun ha => h3 ⟨h4.1, ha⟩, h4.2, by omega⟩⟩
    unfold AdbTransceiver.talkMouse
    split_ifs
    · refine ⟨rfl, ?_, ?_⟩
      · simp only [dxOf_cons, dxOf_nil, ReplyByte.dx_deltaY, ReplyByte.dx_deltaX]
        rw [hstill.1]
        decide
      · simp only [dyOf_cons, dyOf_nil, ReplyByte.dy_deltaY, ReplyByte.dy_deltaX]
        rw [hstill.2]
        decide
    · exact hnil
  · exact hnil

/-- A TALK for which there is no input prepares a reply without input. -/
theorem nothingUnread_prepareResponse {command : UInt8} (hop : operationOf command = 3)
    (h : ¬ s.TalksInput command) : (s.prepareResponse command).NothingUnread := by
  obtain ⟨hreset, hflush⟩ := talk_command hop
  simp only [AdbTransceiver.prepareResponse]
  rw [if_neg hreset, if_neg hflush, if_neg (by simp [hop]), if_neg (by simp [hop])]
  have ht := nothingUnread_talk (s := { s with
    response := []
    talkTimedOut := false
    errorReportPending := false }) rfl hop h
  unfold AdbTransceiver.timeOut
  split_ifs
  · exact ⟨rfl, rfl, rfl⟩
  · exact ht

theorem Settled.acceptCommand (h : s.Settled) (hu : s.NothingUnread)
    (hlisten : s.listenAddress = 0)
    (hreset : s.latchedHostByte &&& 0x0f ≠ 0) (hflush : operationOf s.latchedHostByte ≠ 1)
    (hpoll : ¬ (s.state = 3 ∧ s.autoPollRequested = true ∧ s.TalksInput s.latchedHostByte)) :
    (AdbTransceiver.acceptCommand s).scheduleForState.Books := by
  have hset : Settled { s with command := s.latchedHostByte } :=
    ⟨h.keys, h.dx, h.dy, h.free, fun hne => absurd hlisten hne⟩
  have hnot : NothingUnread { s with command := s.latchedHostByte } := ⟨hu.keys, hu.dx, hu.dy⟩
  obtain ⟨hp, -⟩ := hset.prepareResponse hnot hreset hflush rfl
  obtain ⟨hstate, hcommand, hauto⟩ :=
    sameBus_prepareResponse { s with command := s.latchedHostByte } s.latchedHostByte
  -- a poll in state 3 finds the reply that was just prepared
  have hnext : s.state = 3 → s.autoPollRequested = true → operationOf s.latchedHostByte = 3 →
      NothingUnread (AdbTransceiver.prepareResponse { s with command := s.latchedHostByte }
        s.latchedHostByte) :=
    fun h3 ha hop => nothingUnread_prepareResponse hop fun ht => hpoll ⟨h3, ha, ht⟩
  simp only [AdbTransceiver.acceptCommand]
  split_ifs
  all_goals
    refine Books.scheduleForState (Settled.books ?_) ?_
    · exact ⟨hp.keys, hp.dx, hp.dy, hp.free, hp.listening⟩
    · rintro - ha ⟨h3, -, -, hop⟩
      obtain ⟨h1, h2, h3⟩ := hnext (hstate.symm.trans h3) (hauto.symm.trans ha)
        ((congrArg operationOf hcommand).symm.trans hop)
      exact ⟨h1, h2, h3⟩

/-- **The end of a transfer keeps the books.** -/
theorem Books.finishTransfer (h : s.Books)
    (hcommit : s.transfer = .hostToController → s.listenAddress = 0 →
      (s.latchedHostByte &&& 0x0f ≠ 0 ∧ operationOf s.latchedHostByte ≠ 1) ∧ s.NothingUnread ∧
        ¬ (s.state = 3 ∧ s.autoPollRequested = true ∧ s.TalksInput s.latchedHostByte)) :
    (AdbTransceiver.finishTransfer { s with transferCycles := 0 }).Books := by
  by_cases hhost : s.transfer = .hostToController
  · have hset : s.Settled := by
      rcases h.latched with hfree | ⟨-, hne⟩
      · exact h.settled_of_free hfree
      · exact absurd hhost hne
    simp only [AdbTransceiver.finishTransfer]
    rw [if_pos hhost]
    by_cases hl : s.listenAddress = 0
    · obtain ⟨⟨hreset, hflush⟩, hu, hpoll⟩ := hcommit hhost hl
      rw [if_neg (by simp [hl])]
      refine Settled.acceptCommand ?_ ?_ hl hreset hflush hpoll
      · exact ⟨hset.keys, hset.dx, hset.dy, hset.free, hset.listening⟩
      · exact ⟨hu.keys, hu.dx, hu.dy⟩
    · rw [if_pos hl]
      refine Books.scheduleForState (Settled.books (Settled.acceptListenByte ?_)) ?_
      · exact ⟨hset.keys, hset.dx, hset.dy, hset.free, hset.listening⟩
      · rintro - - ⟨-, -, -, hop⟩
        rw [acceptListenByte_command] at hop
        exact absurd ((h.listening hl).symm.trans hop) (by decide)
  · simp only [AdbTransceiver.finishTransfer]
    rw [if_neg hhost]
    have hd := h.deliver
    exact Settled.books ⟨hd.keys, hd.dx, hd.dy, rfl, hd.listening⟩

/-! ## Steps -/

theorem Books.tick (h : s.Books) {cycles : Int} (hdomain : s.InDomain (.tick cycles))
    (hspares : s.Spares (.tick cycles)) : (s.tick cycles).Books := by
  obtain ⟨hcommit, hpolls⟩ := hspares
  simp only [AdbTransceiver.tick]
  by_cases hpos : cycles ≤ 0
  · rw [if_pos hpos]
    exact h
  rw [if_neg hpos]
  by_cases ht : 0 < s.transferCycles
  · rw [if_pos ht]
    split_ifs with hend
    · refine h.finishTransfer fun hhost hl => ?_
      have hc : s.Commits cycles := ⟨ht, by omega, hhost, hl⟩
      obtain ⟨hu, hp⟩ := hcommit hc
      exact ⟨hdomain hc, hu, hp⟩
    · refine ⟨h.keys, h.dx, h.dy, ?_, h.listening⟩
      exact h.latched.imp_right fun hl => ⟨by simp only; omega, hl.2⟩
  rw [if_neg ht]
  have hset := h.settled ht
  by_cases hr : 0 < s.retryCycles
  · rw [if_pos hr]
    split_ifs
    · -- the byte is sent again, without its input
      refine books_startControllerTransfer ?_ ?_ ?_ ?_ hset.listening
      · simpa [ReplyByte.keys, hset.free] using hset.keys
      · simpa [ReplyByte.dx, hset.free] using hset.dx
      · simpa [ReplyByte.dy, hset.free] using hset.dy
      · decide
    · exact Settled.books ⟨hset.keys, hset.dx, hset.dy, hset.free, hset.listening⟩
    · exact Settled.books ⟨hset.keys, hset.dx, hset.dy, hset.free, hset.listening⟩
  rw [if_neg hr]
  by_cases hd : 0 < s.responseDelayCycles
  · rw [if_pos hd]
    split_ifs with hend
    · refine Books.scheduleForState (Settled.books ?_) ?_
      · exact ⟨hset.keys, hset.dx, hset.dy, hset.free, hset.listening⟩
      · rintro hl ha hp
        obtain ⟨h1, h2, h3⟩ := hpolls ⟨by omega, ha, hp, by omega, Or.inl ⟨hd, by omega, hl⟩⟩
        exact ⟨h1, h2, h3⟩
    · exact Settled.books ⟨hset.keys, hset.dx, hset.dy, hset.free, hset.listening⟩
  rw [if_neg hd]
  by_cases hf : 0 < s.deferredTalkCycles
  · rw [if_pos hf]
    split_ifs
    · refine Settled.start_plain ?_ ?_
      · exact ⟨hset.keys, hset.dx, hset.dy, hset.free, hset.listening⟩
      · decide
    · exact Settled.books ⟨hset.keys, hset.dx, hset.dy, hset.free, hset.listening⟩
    · exact Settled.books ⟨hset.keys, hset.dx, hset.dy, hset.free, hset.listening⟩
  rw [if_neg hf]
  split_ifs with ha
  · exact h.requestAutoPoll fun hp =>
      hpolls ⟨by omega, ha.2, hp, by omega, Or.inr ⟨by omega, by omega⟩⟩
  · exact h

theorem Books.setViaState (h : s.Books) {state : UInt8}
    (hspares : s.Spares (.setViaState state)) : (s.setViaState state).Books := by
  simp only [AdbTransceiver.setViaState]
  split_ifs with hsame hread hdefer
  · exact h
  · refine Books.scheduleForState ⟨h.keys, h.dx, h.dy, h.latched, h.listening⟩ ?_
    rintro - - ⟨h3, -⟩
    have h3' : state &&& 3 = 3 := h3
    rw [h3'] at hread
    exact absurd hread (by decide)
  · refine Books.scheduleForState ⟨h.keys, h.dx, h.dy, h.latched, h.listening⟩ ?_
    rintro hl ha hp
    obtain ⟨h1, h2, h3⟩ := hspares hsame hl ha hp
    exact ⟨h1, h2, h3⟩
  · refine Books.scheduleForState ⟨h.keys, h.dx, h.dy, h.latched, h.listening⟩ ?_
    rintro hl ha hp
    obtain ⟨h1, h2, h3⟩ := hspares hsame hl ha hp
    exact ⟨h1, h2, h3⟩

theorem Books.shiftRegisterWritten (h : s.Books) (value : UInt8) :
    (s.shiftRegisterWritten value).Books := by
  simp only [AdbTransceiver.shiftRegisterWritten]
  split_ifs with h0
  · have hset := h.settled (by omega)
    exact Settled.books ⟨hset.keys, hset.dx, hset.dy, hset.free, hset.listening⟩
  · exact ⟨h.keys, h.dx, h.dy, h.latched, h.listening⟩

theorem Books.queueKey (h : s.Books) {keyCode : UInt8} {pressed : Bool}
    (hspares : s.Spares (.queueKey keyCode pressed)) : (s.queueKey keyCode pressed).Books := by
  simp only [AdbTransceiver.queueKey]
  refine Books.requestAutoPoll ?_ fun hp => ?_
  · refine ⟨?_, h.dx, h.dy, h.latched, h.listening⟩
    rw [← h.keys, List.append_assoc]
    rfl
  · obtain ⟨h1, h2, h3⟩ := hspares hp
    exact ⟨h1, h2, h3⟩

theorem clamp_of_mem {value : Int} (h : -4096 ≤ value ∧ value ≤ 4096) :
    clamp value (-4096) 4096 = value := by
  unfold clamp
  omega

theorem Books.moveMouse (h : s.Books) {dx dy : Int} (hdomain : s.InDomain (.moveMouse dx dy))
    (hspares : s.Spares (.moveMouse dx dy)) : (s.moveMouse dx dy).Books := by
  obtain ⟨hx, hx', hy, hy'⟩ := hdomain
  have hmoved : Books { s with
      mouseDx := clamp (s.mouseDx + dx) (-4096) 4096
      mouseDy := clamp (s.mouseDy + dy) (-4096) 4096
      queuedDx := s.queuedDx + dx
      queuedDy := s.queuedDy + dy } := by
    refine ⟨h.keys, ?_, ?_, h.latched, h.listening⟩
    · simp only [clamp_of_mem ⟨hx, hx'⟩, ← h.dx]
      exact (Int.add_assoc _ _ _).symm
    · simp only [clamp_of_mem ⟨hy, hy'⟩, ← h.dy]
      exact (Int.add_assoc _ _ _).symm
  simp only [AdbTransceiver.moveMouse]
  split_ifs with hne
  · refine hmoved.requestAutoPoll fun hp => ?_
    obtain ⟨h1, h2, h3⟩ := hspares hne hp
    exact ⟨h1, h2, h3⟩
  · exact hmoved

theorem Books.setMouseButton (h : s.Books) {pressed : Bool}
    (hspares : s.Spares (.setMouseButton pressed)) : (s.setMouseButton pressed).Books := by
  unfold AdbTransceiver.setMouseButton
  split_ifs with hsame
  · exact h
  · refine Books.requestAutoPoll ⟨h.keys, h.dx, h.dy, h.latched, h.listening⟩ fun hp => ?_
    obtain ⟨h1, h2, h3⟩ := hspares hsame hp
    exact ⟨h1, h2, h3⟩

/-- **A step keeps the books.** -/
theorem Books.apply (h : s.Books) {input : Input} (hdomain : s.InDomain input)
    (hspares : s.Spares input) : (s.apply input).Books := by
  cases input with
  | queueKey keyCode pressed => exact h.queueKey hspares
  | moveMouse dx dy => exact h.moveMouse hdomain hspares
  | setMouseButton pressed => exact h.setMouseButton hspares
  | setViaState state => exact h.setViaState hspares
  | shiftRegisterWritten value => exact h.shiftRegisterWritten value
  | tick cycles => exact h.tick hdomain hspares

/-- **Input is conserved in every run in which no reply is prepared over unread input.** -/
theorem conserved (inputs : List Input)
    (h : Guarded AdbTransceiver.apply (fun s input => s.InDomain input ∧ s.Spares input) {} inputs) :
    (run AdbTransceiver.apply {} inputs).Books :=
  Machine.guarded_run_inv (I := Books) (fun _ _ hok hI => hI.apply hok.1 hok.2)
    (Settled.books ⟨rfl, rfl, rfl, rfl, fun hne => absurd rfl hne⟩) h

/-- The guest sends TALK to the keyboard and goes idle; a key is pressed, and its reply is
    announced. -/
def announced : List Input :=
  [.shiftRegisterWritten 0x2c, .setViaState 0, .tick 1200, .setViaState 3, .queueKey 0x00 true,
    .tick 1200]

theorem conserved_announced : (run AdbTransceiver.apply {} announced).Books :=
  conserved announced (by decide +kernel)

/-- A second key before the reply is read: the first one is in no reply and in no queue. -/
theorem key_lost :
    Guarded AdbTransceiver.apply InDomain {} (announced ++ [.queueKey 0x01 true]) ∧
      (run AdbTransceiver.apply {} (announced ++ [.queueKey 0x01 true])).queuedKeys = [0x00, 0x01] ∧
      keysOf (run AdbTransceiver.apply {} (announced ++ [.queueKey 0x01 true])).replied = [0x01] ∧
      (run AdbTransceiver.apply {} (announced ++ [.queueKey 0x01 true])).keyEvents = [] := by
  decide +kernel

end AdbTransceiver

end CuteMac.Adb
