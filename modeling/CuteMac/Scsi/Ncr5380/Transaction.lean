/-
  NCR5380 transactions are well formed, exactly as long as the guest does not
  release SEL in the middle of one.

  * `Coherent`: the invariant that ties phase, REQ, command buffer and the
    pending and ready flags together (`AckHeld`: and the ACK history);
  * `access_coherent`: every access but a `Reselection` keeps it and extends
    the log by a word of the bus automaton;
  * `transaction_wellFormed_iff`: the log of a run is a word of the bus
    automaton iff the run has no reselection.
-/
import CuteMac.Scsi.Bus
import CuteMac.Scsi.Ncr5380.Steps

namespace CuteMac.Scsi

namespace Ncr5380

open Machine

variable {ι ω : Type}

/-! ## The invariant -/

/-- What the registers say about the transaction, the ACK history apart. -/
structure Coherent (s : Ncr5380 ι ω) : Prop where
  free : s.phase = .busFree → s.command = []
  selected : s.phase ≠ .busFree → s.selected
  target : s.selected → s.activeTarget.isSome
  pending : s.dataOutCompletionPending → s.phase = .dataOut
  dma : s.dataOutCompletionPending → s.registers 2 &&& modeDma ≠ 0
  reassert : s.requestReassertPending → s.phase = .dataIn ∨ s.phase = .dataOut
  ready : s.commandReady → s.phase = .command ∧ !s.request ∧ Complete s.command
  short : s.phase = .command → !s.commandReady →
    s.command = [] ∨ s.command.length < expectedCommandLength (byteAt s.command 0)
  full : s.phase ≠ .busFree → s.phase ≠ .command → Complete s.command

/-- A complete command waits for ACK to be dropped. -/
def AckHeld (s : Ncr5380 ι ω) : Prop := s.commandReady → s.previousAck

/-- The transaction as the bus automaton sees it. -/
def abs (s : Ncr5380 ι ω) : Bus where
  phase := s.phase
  selected := s.selected
  cdb := s.command
  executed := s.phase = .dataIn ∨ s.phase = .status ∨ s.phase = .messageIn

/-- The log of `s'` extends that of `s` by a well-formed piece of transaction. -/
abbrev Follows (s s' : Ncr5380 ι ω) : Prop := Extends Bus.step log abs s s'

theorem initial_coherent (targets : Fin 8 → Option ι) (world : ω) :
    Coherent (initial targets world) ∧ AckHeld (initial targets world) := by
  refine ⟨?_, ?_⟩
  · constructor <;> simp [initial]
  · simp [AckHeld, initial]

theorem reset_coherent (s : Ncr5380 ι ω) : Coherent s.reset ∧ AckHeld s.reset ∧ Follows s s.reset := by
  refine ⟨?_, ?_, Extends.one (e := .reset) rfl ?_⟩
  · constructor <;> simp [reset]
  · simp [AckHeld, reset]
  · simp [Bus.step, abs, reset, Bus.free]

theorem Coherent.idle {s : Ncr5380 ι ω} (h : Coherent s) (hp : s.phase ≠ .command) :
    !s.commandReady := by
  by_contra hr
  exact hp (h.ready (by simpa using hr)).1

/-- `s'` continues the transaction of `s`, with no command waiting for ACK. -/
structure Advances (s s' : Ncr5380 ι ω) : Prop where
  coherent : Coherent s'
  idle : !s'.commandReady
  follows : Follows s s'

/-- Only the fields that the automaton and the log show matter for the past. -/
theorem Advances.of_eq {s u v : Ncr5380 ι ω} (h : Advances u v) (hl : u.log = s.log)
    (ha : abs u = abs s) : Advances s v :=
  ⟨h.1, h.2, (Extends.refl hl ha).trans h.3⟩

/-! ## What each function does to a transaction -/

/-- A complete command is about to be executed. -/
structure Executable (s : Ncr5380 ι ω) (target : ι) : Prop where
  selected : s.selected
  target : s.activeTarget = some target
  pending : !s.dataOutCompletionPending
  ready : !s.commandReady
  complete : Complete s.command

theorem beginDataOut_advances {s : Ncr5380 ι ω} {target : ι} (h : Executable s target)
    (hp : s.phase = .command) (n : Nat) : Advances s (s.beginDataOut n) := by
  have hsel := h.selected
  have hpend := h.pending
  have hready := h.ready
  rw [beginDataOut, setPhase_ne (by decide)]
  refine ⟨?_, hready, .one (e := .phase .dataOut) rfl ?_⟩
  · constructor <;> simp_all [h.target, h.complete]
  · simp [Bus.step, Bus.move, abs, hp]

section
variable [ScsiTarget ι ω]

theorem runCommand_advances {s : Ncr5380 ι ω} {target : ι} (h : Executable s target)
    (hp : s.phase = .command) : Advances s (s.runCommand target) := by
  obtain ⟨h1, h2, h3, h4, h5, h6, h7, h8⟩ := runCommand_fields s target
  have hsel := h.selected
  have hpend := h.pending
  have hready := h.ready
  set result := (ScsiTarget.executeCommand s.world target s.command []).1
  set s' := s.runCommand target
  have hph : s'.phase = .status ∨ s'.phase = .dataIn := by rw [h1]; split_ifs <;> simp
  have hfull := h.complete
  refine ⟨?_, by rw [h6]; exact hready, _, h8, ?_⟩
  · constructor <;> rcases hph with hph | hph <;> simp_all [h.target]
  · have hne := h.complete.ne_nil
    have hc : s.command.length = _ := h.complete
    rcases hph with hph | hph <;> simp [Bus.step, Bus.move, abs, hp, hph, h2, h7, hne, hc]

theorem executeCommand_advances {s : Ncr5380 ι ω} {target : ι} (h : Executable s target)
    (hp : s.phase = .command) : Advances s s.executeCommand := by
  rcases executeCommand_eq h.target with ⟨n, -, he⟩ | ⟨-, m, he⟩
  · have hE : Executable { s with dataOut := [] } target := ⟨h.1, h.2, h.3, h.4, h.5⟩
    rw [he]; exact (beginDataOut_advances hE hp n).of_eq rfl rfl
  · have hE : Executable { s with dataOut := [], expectedDataOut := m } target :=
      ⟨h.1, h.2, h.3, h.4, h.5⟩
    rw [he]; exact (runCommand_advances hE hp).of_eq rfl rfl

theorem completeDataOutCommand_advances {s : Ncr5380 ι ω} {target : ι} (h : Executable s target)
    (hp : s.phase = .dataOut) : Advances s s.completeDataOutCommand := by
  obtain ⟨h1, h2, h3, h4, h5, h6, h7, h8⟩ := completeDataOutCommand_fields h.target
  have hsel := h.selected
  have hpend := h.pending
  have hready := h.ready
  have hfull := h.complete
  set s' := s.completeDataOutCommand
  refine ⟨?_, by rw [h6]; exact hready, _, h8, ?_⟩
  · constructor <;> simp_all [h.target]
  · have hne := h.complete.ne_nil
    have hc : s.command.length = _ := h.complete
    simp [Bus.step, Bus.move, abs, hp, h1, h2, h7, hne, hc]

omit [ScsiTarget ι ω] in
/-- In the data-out phase the command is complete and its target is there. -/
theorem Coherent.executable {s : Ncr5380 ι ω} (h : Coherent s) (hp : s.phase = .dataOut) :
    ∃ target, Executable { s with dataOutCompletionPending := false } target := by
  have hsel := h.selected (by simp [hp])
  obtain ⟨target, ht⟩ := Option.isSome_iff_exists.1 (h.target hsel)
  exact ⟨target, hsel, ht, rfl, h.idle (by simp [hp]), h.full (by simp [hp]) (by simp [hp])⟩

theorem dataOutArrived_advances {s : Ncr5380 ι ω} (h : Coherent s) (hp : s.phase = .dataOut) :
    Advances s s.dataOutArrived := by
  have hidle := h.idle (by simp [hp])
  unfold dataOutArrived
  split_ifs with hdma
  · refine ⟨?_, hidle, .refl rfl rfl⟩
    have := h.selected; have := h.target; have := h.full
    constructor <;> simp_all
  · have hpend : s.dataOutCompletionPending = false := by
      by_contra hc
      exact hdma (h.dma (by simpa using hc))
    obtain ⟨target, he⟩ := h.executable hp
    have hs : { s with dataOutCompletionPending := false } = s := by rw [← hpend]
    rw [hs] at he
    exact completeDataOutCommand_advances he hp

omit [ScsiTarget ι ω] in
/-- A coherent state in which no command waits, as a step that changes nothing. -/
theorem Coherent.advances {s : Ncr5380 ι ω} (h : Coherent s) (hp : s.phase ≠ .command) :
    Advances s s :=
  ⟨h, h.idle hp, .refl rfl rfl⟩

theorem finishDataPhaseIfDone_advances {s : Ncr5380 ι ω} (h : Coherent s)
    (hp : s.phase = .dataOut) : Advances s s.finishDataPhaseIfDone := by
  rcases finishDataPhaseIfDone_dataOut hp with ⟨m, he, -⟩ | ⟨he, -⟩
  · have hc : Coherent { s with expectedDataOut := m } :=
      ⟨h.1, h.2, h.3, h.4, h.5, h.6, h.7, h.8, h.9⟩
    rw [he]; exact (hc.advances (by simp [hp])).of_eq rfl rfl
  · rw [he]; exact dataOutArrived_advances h hp

omit [ScsiTarget ι ω] in
/-- The data-in phase ends in the status phase. -/
theorem setPhase_status_advances {s : Ncr5380 ι ω} (h : Coherent s) (hp : s.phase = .dataIn) :
    Advances s (s.setPhase .status) := by
  have hidle := h.idle (by simp [hp])
  have hsel := h.selected (by simp [hp])
  have hpend := h.pending
  have ht := h.target
  have hfull := h.full
  rw [setPhase_ne (by decide)]
  refine ⟨?_, hidle, .one (e := .phase .status) rfl ?_⟩
  · constructor <;> simp_all
  · simp [Bus.step, Bus.move, abs, hp]

/-! ## The initiator command register -/

omit [ScsiTarget ι ω] in
/-- REQ may change at any time, unless a complete command waits. -/
theorem Coherent.setRequest {s : Ncr5380 ι ω} (h : Coherent s) (r : Bool)
    (hr : r → !s.commandReady) : Coherent { s with request := r } := by
  refine ⟨h.1, h.2, h.3, h.4, h.5, h.6, fun hc => ?_, h.8, h.9⟩
  obtain ⟨h1, -, h3⟩ := h.ready hc
  refine ⟨h1, ?_, h3⟩
  cases r with
  | false => rfl
  | true => exact absurd hc (by simpa using hr rfl)

omit [ScsiTarget ι ω] in
theorem acceptCommandByte_spec {s : Ncr5380 ι ω} (h : Coherent s) (hp : s.phase = .command)
    (hr : !s.commandReady) (value : UInt8) :
    Coherent (s.acceptCommandByte value) ∧ Follows s (s.acceptCommandByte value) ∧
      (s.acceptCommandByte value).phase = .command ∧
      (s.acceptCommandByte value).previousAck = s.previousAck := by
  have hsel := h.selected (by simp [hp])
  have hpend := h.pending
  have ht := h.target
  have hre := h.reassert
  -- the first byte fixes the length, later bytes approach it
  have hlen : (s.command ++ [value]).length ≤
      expectedCommandLength (byteAt (s.command ++ [value]) 0) := by
    rcases hb : s.command with _ | ⟨b, bs⟩
    · have := expectedCommandLength_pos (byteAt [value] 0)
      simpa [Nat.succ_le_iff] using this
    · have hc := h.short hp hr
      simp only [hb, byteAt] at hc ⊢
      simpa [Nat.succ_le_iff] using hc
  unfold acceptCommandByte record
  simp only
  split_ifs with hfull
  · refine ⟨?_, .one (e := .accept value) rfl ?_, hp, rfl⟩
    · constructor <;> simp_all [Complete]; omega
    · simp [Bus.step, abs, hp]
  · refine ⟨?_, .one (e := .accept value) rfl ?_, hp, rfl⟩
    · constructor <;> simp_all
    · simp [Bus.step, abs, hp]

theorem assertSelect_spec {s : Ncr5380 ι ω} (h : Coherent s) (hsel : !s.selected) :
    Coherent s.assertSelect ∧ Follows s s.assertSelect ∧
      s.assertSelect.commandReady = s.commandReady ∧
      s.assertSelect.previousAck = s.previousAck := by
  have hp : s.phase = .busFree := by
    by_contra hp
    have := h.selected hp
    simp [this] at hsel
  have hpend := h.pending
  have hre := h.reassert
  have hfree := h.free hp
  have hidle := h.idle (by simp [hp])
  unfold assertSelect
  split
  · exact ⟨h, .refl rfl rfl, rfl, rfl⟩
  · rename_i id hfind
    have hid := List.find?_some hfind
    simp only [hasTarget] at hid
    obtain ⟨target, ht⟩ : ∃ target, s.targets id = some target := by
      cases ht : s.targets id with
      | none => simp [ht] at hid
      | some target => exact ⟨target, rfl⟩
    simp only [ht, record]
    refine ⟨?_, .one (e := .select target) rfl ?_, trivial, trivial⟩
    · constructor <;> simp_all
    · have hsel' : s.selected = false := by simpa using hsel
      simp [Bus.step, abs, hp, hfree, Bus.free, hsel']

omit [ScsiTarget ι ω] in
/-- Releasing SEL before the first command byte. -/
theorem release_spec {s : Ncr5380 ι ω} (h : Coherent s) (hsel : s.selected)
    (hcmd : s.command = []) :
    Coherent (s.setPhase .command) ∧ Follows s (s.setPhase .command) ∧
      (s.setPhase .command).commandReady = s.commandReady ∧
      (s.setPhase .command).previousAck = s.previousAck := by
  have ht := h.target
  have hr : s.commandReady = false := by
    by_contra hc
    exact (h.ready (by simpa using hc)).2.2.ne_nil hcmd
  have hp : s.phase = .busFree ∨ s.phase = .command := by
    by_contra hp
    push Not at hp
    exact (h.full hp.1 hp.2).ne_nil hcmd
  have hpend : s.dataOutCompletionPending = false := by
    by_contra hc
    have := h.pending (by simpa using hc)
    rcases hp with hp | hp <;> simp [hp] at this
  rw [setPhase_ne (by decide)]
  refine ⟨?_, .one (e := .phase .command) rfl ?_, rfl, rfl⟩
  · constructor <;> simp_all
  · rcases hp with hp | hp <;> simp [Bus.step, Bus.move, abs, hp, hsel, hcmd]

omit [ScsiTarget ι ω] in
theorem raiseAck_spec {s : Ncr5380 ι ω} (h : Coherent s) (hr : !s.commandReady) (value : UInt8) :
    Coherent (s.raiseAck value) ∧ Follows s (s.raiseAck value) := by
  unfold raiseAck
  split_ifs with h1 h2
  · obtain ⟨hc, hf, -, -⟩ := acceptCommandByte_spec h h1.1 hr s.outputData
    exact ⟨hc, hf⟩
  · exact ⟨h.setRequest false (by simp), .refl rfl rfl⟩
  · exact ⟨h, .refl rfl rfl⟩

omit [ScsiTarget ι ω] in
/-- The status and message phases are left on the ACK handshake alone. -/
theorem setPhase_messageIn_advances {s : Ncr5380 ι ω} (h : Coherent s) (hp : s.phase = .status) :
    Advances s (s.setPhase .messageIn) := by
  have hidle := h.idle (by simp [hp])
  have hsel := h.selected (by simp [hp])
  have hpend := h.pending
  have ht := h.target
  have hfull := h.full
  rw [setPhase_ne (by decide)]
  refine ⟨?_, hidle, .one (e := .phase .messageIn) rfl ?_⟩
  · constructor <;> simp_all
  · simp [Bus.step, Bus.move, abs, hp]

omit [ScsiTarget ι ω] in
theorem setPhase_busFree_advances {s : Ncr5380 ι ω} (hp : s.phase = .messageIn) :
    Advances s (s.setPhase .busFree false) := by
  refine ⟨?_, rfl, .one (e := .phase .busFree) rfl ?_⟩
  · constructor <;> simp [setPhase, record]
  · simp [Bus.step, Bus.move, abs, hp, setPhase, record, Bus.free]

omit [ScsiTarget ι ω] in
theorem Advances.setRequest {s s' : Ncr5380 ι ω} (h : Advances s s') (r : Bool) :
    Advances s { s' with request := r } :=
  ⟨h.1.setRequest r fun _ => h.2, h.2, h.3.trans (.refl rfl rfl)⟩

theorem dropAck_advances {s : Ncr5380 ι ω} (h : Coherent s) : Advances s s.dropAck := by
  unfold dropAck
  split_ifs with h1 h2 h3 h4 h5 h6 h7 h8
  · -- the complete command is executed when ACK is dropped
    obtain ⟨-, -, hfull⟩ := h.ready h2
    obtain ⟨target, ht⟩ := Option.isSome_iff_exists.1 (h.target h1.2.1)
    have hpend : !s.dataOutCompletionPending := by
      by_contra hc
      have := h.pending (by simpa using hc)
      simp [h1.1] at this
    have hE : Executable { s with commandReady := false } target := ⟨h1.2.1, ht, hpend, rfl, hfull⟩
    exact (executeCommand_advances hE h1.1).of_eq rfl rfl
  · exact ⟨h.setRequest true fun _ => by simpa using h2, by simpa using h2, .refl rfl rfl⟩
  · exact ⟨h, by simpa using h2, .refl rfl rfl⟩
  · exact setPhase_status_advances h h4
  · exact (h.advances (by simp [h4])).setRequest true
  · have hf := finishDataPhaseIfDone_advances h h6
    simp only
    split_ifs
    · exact hf.setRequest true
    · exact hf
  · exact setPhase_messageIn_advances h h7
  · exact setPhase_busFree_advances h8
  · refine ⟨h, ?_, .refl rfl rfl⟩
    by_contra hc
    obtain ⟨hp, -, hfull⟩ := h.ready (by simpa using hc)
    exact h1 ⟨hp, h.selected (by simp [hp]), hfull.ne_nil⟩

omit [ScsiTarget ι ω] in
/-- A register write that no transaction depends on. -/
theorem Coherent.setRegister {s : Ncr5380 ι ω} (h : Coherent s) (index : Fin 8) (hi : index ≠ 2)
    (value : UInt8) : Coherent (s.setRegister index value) :=
  ⟨h.1, h.2, h.3, h.4, fun hc => by
    simp only [Ncr5380.setRegister, Function.update_of_ne hi.symm]; exact h.5 hc,
    h.6, h.7, h.8, h.9⟩

omit [ScsiTarget ι ω] in
theorem Coherent.setPreviousAck {s : Ncr5380 ι ω} (h : Coherent s) (ack : Bool) :
    Coherent { s with previousAck := ack } :=
  ⟨h.1, h.2, h.3, h.4, h.5, h.6, h.7, h.8, h.9⟩

theorem driveSelect_spec {s : Ncr5380 ι ω} (h : Coherent s) (previous value : UInt8)
    (hok : previous &&& icrAssertSelect ≠ 0 → value &&& icrAssertSelect = 0 → s.selected →
      s.command = []) :
    Coherent (s.driveSelect previous value) ∧ Follows s (s.driveSelect previous value) ∧
      (s.driveSelect previous value).commandReady = s.commandReady ∧
      (s.driveSelect previous value).previousAck = s.previousAck := by
  unfold driveSelect
  by_cases hv : value &&& icrAssertSelect = 0
  · simp only [hv, ne_eq, not_true_eq_false, false_and, if_false, true_and]
    split_ifs with h2
    · exact release_spec h h2.2 (hok h2.1 hv h2.2)
    · exact ⟨h, .refl rfl rfl, rfl, rfl⟩
  · simp only [hv, ne_eq, not_false_eq_true, true_and, false_and, and_false, if_false]
    split_ifs with h1
    · exact assertSelect_spec h h1
    · exact ⟨h, .refl rfl rfl, rfl, rfl⟩

theorem driveAck_spec {s : Ncr5380 ι ω} (h : Coherent s) (ha : AckHeld s) (value : UInt8) :
    Coherent (s.driveAck value) ∧ AckHeld (s.driveAck value) ∧ Follows s (s.driveAck value) := by
  unfold driveAck
  generalize (value &&& icrAssertAck != 0) = ack
  simp only
  split_ifs with h1 h2
  · -- a rising edge: no command was waiting
    simp only [Bool.and_eq_true, Bool.not_eq_true'] at h1
    have hr : !s.commandReady := by
      by_contra hc
      have := ha (by simpa using hc)
      simp [h1.2] at this
    obtain ⟨hc, hf⟩ := raiseAck_spec h hr value
    exact ⟨hc.setPreviousAck _, fun _ => h1.1, hf.trans (.refl rfl rfl)⟩
  · have hd := dropAck_advances h
    refine ⟨hd.1.setPreviousAck _, fun hc => ?_, hd.3.trans (.refl rfl rfl)⟩
    have := hd.2
    simp_all
  · refine ⟨h.setPreviousAck _, fun hc => ?_, .refl rfl rfl⟩
    have := ha hc
    simp_all

/-- SEL is released in the middle of a transaction: a target is selected and
    command bytes have been accepted. -/
def Reselection (s : Ncr5380 ι ω) : Access → Prop
  | .write registerIndex dack value =>
    !dack ∧ (registerIndex &&& 0x07).toNat = 1 ∧ value &&& icrAssertReset = 0 ∧
      s.registers 1 &&& icrAssertSelect ≠ 0 ∧ value &&& icrAssertSelect = 0 ∧ s.selected ∧
      s.command ≠ []
  | .read _ _ => False

theorem writeInitiatorCommand_coherent {s : Ncr5380 ι ω} (h : Coherent s) (ha : AckHeld s)
    {value : UInt8}
    (hok : value &&& icrAssertReset = 0 → s.registers 1 &&& icrAssertSelect ≠ 0 →
      value &&& icrAssertSelect = 0 → s.selected → s.command = []) :
    Coherent (s.writeInitiatorCommand value) ∧ AckHeld (s.writeInitiatorCommand value) ∧
      Follows s (s.writeInitiatorCommand value) := by
  have h0 := h.setRegister 1 (by decide) value
  unfold writeInitiatorCommand
  simp only
  split_ifs with hr
  · obtain ⟨h1, h2, h3⟩ := reset_coherent (s.setRegister 1 value)
    exact ⟨h1, h2, (Extends.refl rfl rfl).trans h3⟩
  · obtain ⟨h1, h2, h3, h4⟩ := driveSelect_spec h0 (s.registers 1) value
      (hok (by simpa using hr))
    have ha' : AckHeld ((s.setRegister 1 value).driveSelect (s.registers 1) value) := fun hc => by
      rw [h4]; exact ha (by rw [h3] at hc; exact hc)
    obtain ⟨h5, h6, h7⟩ := driveAck_spec h1 ha' value
    exact ⟨h5, h6, ((Extends.refl rfl rfl).trans h2).trans h7⟩

/-! ## The other accesses -/

omit [ScsiTarget ι ω] in
theorem Advances.setReassert {s s' : Ncr5380 ι ω} (h : Advances s s')
    (hp : s'.phase = .dataIn ∨ s'.phase = .dataOut) :
    Advances s { s' with requestReassertPending := true } := by
  obtain ⟨hc, hi, hf⟩ := h
  exact ⟨⟨hc.1, hc.2, hc.3, hc.4, hc.5, fun _ => hp, hc.7, hc.8, hc.9⟩, hi,
    hf.trans (.refl rfl rfl)⟩

omit [ScsiTarget ι ω] in
/-- A status read reasserts REQ in a data phase only, where no command waits. -/
theorem reassertRequest_spec {s : Ncr5380 ι ω} (h : Coherent s) :
    Coherent s.reassertRequest ∧ s.reassertRequest.commandReady = s.commandReady ∧
      s.reassertRequest.previousAck = s.previousAck ∧ Follows s s.reassertRequest := by
  unfold reassertRequest
  split_ifs with hr
  · have hp := h.reassert hr
    have hc := h.setRequest true fun _ => h.idle (by rcases hp with hp | hp <;> simp [hp])
    exact ⟨⟨hc.1, hc.2, hc.3, hc.4, hc.5, fun h => by simp at h, hc.7, hc.8, hc.9⟩, rfl, rfl,
      .refl rfl rfl⟩
  · exact ⟨h, rfl, rfl, .refl rfl rfl⟩

omit [ScsiTarget ι ω] in
/-- Reading a data byte moves the data position and nothing else. -/
theorem readDataByte_eq (s : Ncr5380 ι ω) :
    ∃ i, s.readDataByte.2 = { s with dataIndex := i } := by
  unfold readDataByte
  split
  · split_ifs
    · exact ⟨_, rfl⟩
    · exact ⟨s.dataIndex, rfl⟩
  all_goals exact ⟨s.dataIndex, rfl⟩

omit [ScsiTarget ι ω] in
theorem readRegister_coherent {s : Ncr5380 ι ω} (h : Coherent s) (ha : AckHeld s)
    (registerIndex : UInt8) (dack : Bool) :
    let s' := (s.readRegister registerIndex dack).2
    Coherent s' ∧ AckHeld s' ∧ Follows s s' := by
  have hread : Coherent s.readDataByte.2 ∧ AckHeld s.readDataByte.2 ∧ Follows s s.readDataByte.2 := by
    obtain ⟨i, hi⟩ := readDataByte_eq s
    rw [hi]
    exact ⟨⟨h.1, h.2, h.3, h.4, h.5, h.6, h.7, h.8, h.9⟩, ha, .refl rfl rfl⟩
  have hsame : Coherent s ∧ AckHeld s ∧ Follows s s := ⟨h, ha, .refl rfl rfl⟩
  have hstatus : Coherent s.reassertRequest ∧ AckHeld s.reassertRequest ∧
      Follows s s.reassertRequest := by
    obtain ⟨h1, h2, h3, h4⟩ := reassertRequest_spec h
    exact ⟨h1, fun hc => by rw [h3]; exact ha (by rw [h2] at hc; exact hc), h4⟩
  intro s'
  obtain ⟨h3, h4, h5⟩ := hread
  cases dack with
  | false =>
    simp only [s', readRegister, Bool.false_eq_true, if_false]
    split
    · exact ⟨h3, h4, h5⟩
    · exact hsame
    · exact hsame
    · exact hsame
    · exact hstatus
    · exact hstatus
    · exact hsame
    · exact hsame
  | true =>
    simp only [s', readRegister, if_true]
    split_ifs with h2 hp hlast
    · exact hsame
    · -- the last DACK byte ends the phase, an earlier one only releases REQ
      have hd := setPhase_status_advances (h3.setRequest false (by simp)) hp.1
      exact ⟨hd.1, fun hc => absurd hc (by simpa using hd.2),
        (h5.trans (.refl rfl rfl)).trans hd.3⟩
    · have hd := ((h3.setRequest false (by simp)).advances (by simp [hp.1])).setReassert
        (Or.inl hp.1)
      exact ⟨hd.1, fun hc => absurd hc (by simpa using hd.2),
        (h5.trans (.refl rfl rfl)).trans hd.3⟩
    · exact ⟨h3, h4, h5⟩

omit [ScsiTarget ι ω] in
theorem Advances.coherent_ackHeld {s s' : Ncr5380 ι ω} (h : Advances s s') :
    Coherent s' ∧ AckHeld s' ∧ Follows s s' :=
  ⟨h.1, fun hc => absurd hc (by simpa using h.2), h.3⟩

theorem writeDack_coherent {s : Ncr5380 ι ω} (h : Coherent s) (ha : AckHeld s) (value : UInt8) :
    Coherent (s.writeDack value) ∧ AckHeld (s.writeDack value) ∧ Follows s (s.writeDack value) := by
  unfold writeDack
  split_ifs with hreq hp
  · exact ⟨h, ha, .refl rfl rfl⟩
  · -- a command byte: the CDB is executed as soon as it is complete
    have hr : !s.commandReady := by
      by_contra hc
      have := (h.ready (by simpa using hc)).2.1
      simp_all
    obtain ⟨h1, h2, h3, -⟩ := acceptCommandByte_spec h hp hr value
    generalize s.acceptCommandByte value = u at h1 h2 h3
    simp only
    split_ifs with hready
    · have hd := dropAck_advances h1
      obtain ⟨-, -, hfull⟩ := h1.ready hready
      have he : u.dropAck = { u with commandReady := false }.executeCommand := by
        unfold dropAck
        rw [if_pos ⟨h3, h1.selected (by simp [h3]), hfull.ne_nil⟩, if_pos hready]
      rw [he] at hd
      exact ⟨hd.1, hd.coherent_ackHeld.2.1, h2.trans hd.3⟩
    · exact ⟨h1.setRequest true fun _ => by simpa using hready,
        fun hc => absurd hc hready, h2.trans (.refl rfl rfl)⟩
  · have hw : Coherent (s.writeDataByte value) ∧ AckHeld (s.writeDataByte value) ∧
        Follows s (s.writeDataByte value) := by
      unfold writeDataByte
      split_ifs
      · exact ⟨h, ha, .refl rfl rfl⟩
      · exact ⟨⟨h.1, h.2, h.3, h.4, h.5, h.6, h.7, h.8, h.9⟩, ha, .refl rfl rfl⟩
    obtain ⟨h1, h2, h3⟩ := hw
    generalize s.writeDataByte value = u at h1 h2 h3
    simp only
    split_ifs with hd hn
    · have hf := finishDataPhaseIfDone_advances (h1.setRequest false (by simp)) hd.1
      have hf' := (hf.setReassert (Or.inr hn.1)).coherent_ackHeld
      exact ⟨hf'.1, hf'.2.1, (h3.trans (.refl rfl rfl)).trans hf'.2.2⟩
    · have hf := (finishDataPhaseIfDone_advances (h1.setRequest false (by simp)) hd.1).coherent_ackHeld
      exact ⟨hf.1, hf.2.1, (h3.trans (.refl rfl rfl)).trans hf.2.2⟩
    · exact ⟨h1, h2, h3⟩

theorem writeMode_coherent {s : Ncr5380 ι ω} (h : Coherent s) (ha : AckHeld s) (value : UInt8) :
    Coherent (s.writeMode value) ∧ AckHeld (s.writeMode value) ∧ Follows s (s.writeMode value) := by
  unfold writeMode
  simp only
  split_ifs with hdone
  · -- clearing DMA mode completes the command; nothing stays pending
    have hp := h.pending hdone.2.2
    obtain ⟨target, he⟩ := h.executable hp
    have hd := completeDataOutCommand_advances he hp
    obtain ⟨-, -, -, h4, -⟩ := completeDataOutCommand_fields he.target
    obtain ⟨hc, hi, hf⟩ := hd
    generalize completeDataOutCommand { s with dataOutCompletionPending := false } = u at *
    refine ⟨⟨hc.1, hc.2, hc.3, hc.4, fun hpend => ?_, hc.6, hc.7, hc.8, hc.9⟩,
      fun hr => absurd hr (by simpa [setRegister] using hi),
      (Extends.refl rfl rfl).trans (hf.trans (.refl rfl rfl))⟩
    exact absurd (h4.symm.trans hpend) (by simp)
  · refine ⟨⟨h.1, h.2, h.3, h.4, fun hpend => ?_, h.6, h.7, h.8, h.9⟩, ha, .refl rfl rfl⟩
    have hdma := h.dma hpend
    by_contra hv
    simp only [setRegister, Function.update_self] at hv
    exact hdone ⟨hdma, hv, hpend⟩

theorem writeRegister_coherent {s : Ncr5380 ι ω} (h : Coherent s) (ha : AckHeld s)
    {registerIndex : UInt8} {dack : Bool} {value : UInt8}
    (hok : ¬ Reselection s (.write registerIndex dack value)) :
    let s' := s.writeRegister registerIndex dack value
    Coherent s' ∧ AckHeld s' ∧ Follows s s' := by
  have hset (index : Fin 8) (hi : index ≠ 2) : Coherent (s.setRegister index value) ∧
      AckHeld (s.setRegister index value) ∧ Follows s (s.setRegister index value) :=
    ⟨h.setRegister index hi value, ha, .refl rfl rfl⟩
  intro s'
  cases dack with
  | true => simp only [s', writeRegister, if_true]; exact writeDack_coherent h ha value
  | false =>
    simp only [s', writeRegister, Bool.false_eq_true, if_false]
    split
    · have hout : Coherent { s with outputData := value } :=
        ⟨h.1, h.2, h.3, h.4, h.5, h.6, h.7, h.8, h.9⟩
      exact ⟨hout.setRegister 0 (by decide) value, ha, .refl rfl rfl⟩
    · rename_i hindex
      refine writeInitiatorCommand_coherent h ha fun h1 h2 h3 h4 => ?_
      by_contra hne
      exact hok ⟨rfl, hindex, h1, h2, h3, h4, hne⟩
    · exact writeMode_coherent h ha value
    · have hout : Coherent { s with targetCommand := value } :=
        ⟨h.1, h.2, h.3, h.4, h.5, h.6, h.7, h.8, h.9⟩
      exact ⟨hout.setRegister 3 (by decide) value, ha, .refl rfl rfl⟩
    · exact hset 4 (by decide)
    · exact hset 5 (by decide)
    · exact hset 6 (by decide)
    · exact hset 7 (by decide)

theorem access_coherent (s : Ncr5380 ι ω) (a : Access) (hok : ¬ Reselection s a)
    (h : Coherent s ∧ AckHeld s) :
    (Coherent (access s a) ∧ AckHeld (access s a)) ∧ Follows s (access s a) := by
  cases a with
  | read registerIndex dack =>
    obtain ⟨h1, h2, h3⟩ := readRegister_coherent h.1 h.2 registerIndex dack
    exact ⟨⟨h1, h2⟩, h3⟩
  | write registerIndex dack value =>
    obtain ⟨h1, h2, h3⟩ := writeRegister_coherent h.1 h.2 hok
    exact ⟨⟨h1, h2⟩, h3⟩

/-! ## The log only grows -/

omit [ScsiTarget ι ω] in
theorem setPhase_log (s : Ncr5380 ι ω) (p : Phase) (r : Bool) :
    (s.setPhase p r).log = s.log ++ [.phase p] := by
  unfold setPhase; simp only; split_ifs <;> rfl

omit [ScsiTarget ι ω] in
theorem acceptCommandByte_log (s : Ncr5380 ι ω) (value : UInt8) :
    (s.acceptCommandByte value).log = s.log ++ [.accept value] := by
  unfold acceptCommandByte; simp only; split_ifs <;> rfl

theorem executeCommand_log (s : Ncr5380 ι ω) : s.log <+: s.executeCommand.log := by
  cases ht : s.activeTarget with
  | none => simp [executeCommand, ht, setPhase_log]
  | some target =>
    rcases executeCommand_eq ht with ⟨n, -, he⟩ | ⟨-, m, he⟩
    · simp [he, beginDataOut, setPhase_log]
    · obtain ⟨-, -, -, -, -, -, -, hl⟩ :=
        runCommand_fields { s with dataOut := [], expectedDataOut := m } target
      rw [he, hl]; exact List.prefix_append _ _

theorem completeDataOutCommand_log (s : Ncr5380 ι ω) : s.log <+: s.completeDataOutCommand.log := by
  cases ht : s.activeTarget with
  | none => simp [completeDataOutCommand, ht, setPhase_log, finishCommand, trace]
  | some target =>
    obtain ⟨-, -, -, -, -, -, -, hl⟩ := completeDataOutCommand_fields ht
    rw [hl]; exact List.prefix_append _ _

theorem finishDataPhaseIfDone_log (s : Ncr5380 ι ω) : s.log <+: s.finishDataPhaseIfDone.log := by
  have harr : s.log <+: s.dataOutArrived.log := by
    unfold dataOutArrived
    split_ifs
    · exact List.prefix_rfl
    · exact completeDataOutCommand_log s
  unfold finishDataPhaseIfDone
  split_ifs
  · rw [setPhase_log]; exact List.prefix_append _ _
  · exact List.prefix_rfl
  · exact List.prefix_rfl
  · exact harr
  · exact harr
  · exact List.prefix_rfl

theorem driveAck_log (s : Ncr5380 ι ω) (value : UInt8) : s.log <+: (s.driveAck value).log := by
  have hraise : s.log <+: (s.raiseAck value).log := by
    unfold raiseAck
    split_ifs
    · rw [acceptCommandByte_log]; exact List.prefix_append _ _
    · exact List.prefix_rfl
    · exact List.prefix_rfl
  have hdrop : s.log <+: s.dropAck.log := by
    unfold dropAck
    split_ifs with h1 h2 h3 h4 h5 h6 h7 h8
    · exact executeCommand_log { s with commandReady := false }
    · exact List.prefix_rfl
    · exact List.prefix_rfl
    · rw [setPhase_log]; exact List.prefix_append _ _
    · exact List.prefix_rfl
    · simp only
      split_ifs <;> exact finishDataPhaseIfDone_log s
    · rw [setPhase_log]; exact List.prefix_append _ _
    · rw [setPhase_log]; exact List.prefix_append _ _
    · exact List.prefix_rfl
  unfold driveAck
  simp only
  split_ifs
  · exact hraise
  · exact hdrop
  · exact List.prefix_rfl

theorem driveSelect_log (s : Ncr5380 ι ω) (previous value : UInt8) :
    s.log <+: (s.driveSelect previous value).log := by
  have hselect : s.log <+: s.assertSelect.log := by
    unfold assertSelect
    split
    · exact List.prefix_rfl
    · simp only
      split
      · exact List.prefix_append _ _
      · exact List.prefix_rfl
  unfold driveSelect
  simp only
  split_ifs
  · rw [setPhase_log]; exact hselect.trans (List.prefix_append _ _)
  · exact hselect
  · rw [setPhase_log]; exact List.prefix_append _ _
  · exact List.prefix_rfl

theorem writeInitiatorCommand_log (s : Ncr5380 ι ω) (value : UInt8) :
    s.log <+: (s.writeInitiatorCommand value).log := by
  unfold writeInitiatorCommand
  simp only
  split_ifs
  · exact List.prefix_append s.log [.reset]
  · exact (driveSelect_log (s.setRegister 1 value) _ value).trans (driveAck_log _ value)

theorem writeDack_log (s : Ncr5380 ι ω) (value : UInt8) : s.log <+: (s.writeDack value).log := by
  have haccept : s.log <+: (s.acceptCommandByte value).log := by
    rw [acceptCommandByte_log]; exact List.prefix_append _ _
  have hwrite : (s.writeDataByte value).log = s.log := by
    unfold writeDataByte; split_ifs <;> rfl
  unfold writeDack
  simp only
  split_ifs
  · exact List.prefix_rfl
  · exact haccept.trans
      (executeCommand_log { s.acceptCommandByte value with commandReady := false })
  · exact haccept
  · rw [← hwrite]
    exact finishDataPhaseIfDone_log { s.writeDataByte value with request := false }
  · rw [← hwrite]
    exact finishDataPhaseIfDone_log { s.writeDataByte value with request := false }
  · exact ⟨[], by simp [hwrite]⟩

theorem access_log (s : Ncr5380 ι ω) (a : Access) : s.log <+: (access s a).log := by
  have hread : s.log <+: s.readDataByte.2.log := by
    obtain ⟨i, hi⟩ := readDataByte_eq s
    exact ⟨[], by simp [hi]⟩
  have hreassert : s.log <+: s.reassertRequest.log := by
    unfold reassertRequest; split_ifs <;> exact List.prefix_rfl
  rcases a with ⟨registerIndex, dack⟩ | ⟨registerIndex, dack, value⟩
  · cases dack with
    | false =>
      simp only [access, readRegister, Bool.false_eq_true, if_false]
      split
      · exact hread
      · exact List.prefix_rfl
      · exact List.prefix_rfl
      · exact List.prefix_rfl
      · exact hreassert
      · exact hreassert
      · exact List.prefix_rfl
      · exact List.prefix_rfl
    | true =>
      simp only [access, readRegister, if_true]
      split_ifs
      · exact List.prefix_rfl
      · rw [setPhase_log]; exact hread.trans (List.prefix_append _ _)
      · exact hread
      · exact hread
  · cases dack with
    | false =>
      simp only [access, writeRegister, Bool.false_eq_true, if_false]
      split
      · exact List.prefix_rfl
      · exact writeInitiatorCommand_log s value
      · unfold writeMode
        simp only
        split_ifs
        · exact completeDataOutCommand_log { s with dataOutCompletionPending := false }
        · exact List.prefix_rfl
      all_goals exact List.prefix_rfl
    | true =>
      simp only [access, writeRegister, if_true]
      exact writeDack_log s value

theorem run_log (s : Ncr5380 ι ω) (as : List Access) : s.log <+: (run access s as).log :=
  run_inv (I := fun u => s.log <+: u.log) (fun u a h => h.trans (access_log u a))
    List.prefix_rfl as

/-! ## Well-formed transactions -/

/-- The log of the chip so far is a word of the bus automaton, and no completion
    is left over from an earlier data-out phase when a command is collected. -/
def WellFormed (s : Ncr5380 ι ω) : Prop :=
  (read Bus.step Bus.free s.log).isSome ∧ (s.phase = .command → !s.dataOutCompletionPending)

omit [ScsiTarget ι ω] in
theorem Coherent.wellFormed {s : Ncr5380 ι ω} (h : Coherent s)
    (hr : read Bus.step Bus.free s.log = some (abs s)) : WellFormed s := by
  refine ⟨by simp [hr], fun hp => ?_⟩
  by_contra hc
  have := h.pending (by simpa using hc)
  simp [hp] at this

/-- A reselection enters the command phase with the command bytes of the
    transaction it interrupts, which the bus automaton refuses. -/
theorem reselection_refused {s : Ncr5380 ι ω} {a : Access} (ha : Reselection s a) :
    s.log ++ [.phase .command] <+: (access s a).log ∧
      Bus.step (abs s) (.phase .command : BusEvent ι) = none := by
  rcases a with ⟨registerIndex, dack⟩ | ⟨registerIndex, dack, value⟩
  · exact absurd ha (by simp [Reselection])
  · obtain ⟨h1, h2, h3, h4, h5, h6, h7⟩ := ha
    have hdack : dack = false := by simpa using h1
    have hsel : (s.setRegister 1 value).driveSelect (s.registers 1) value =
        (s.setRegister 1 value).setPhase .command := by
      simp only [driveSelect, h5, ne_eq, not_true_eq_false, false_and, if_false]
      exact if_pos ⟨h4, trivial, h6⟩
    refine ⟨?_, by simp [Bus.step, Bus.move, abs, h7]⟩
    simp only [access, writeRegister, hdack, Bool.false_eq_true, if_false, h2,
      writeInitiatorCommand, h3, ne_eq, not_true_eq_false, hsel]
    have := driveAck_log ((s.setRegister 1 value).setPhase .command) value
    rwa [setPhase_log] at this

/-- A well-formed run from a coherent state has no reselection. -/
theorem guarded_of_read {s : Ncr5380 ι ω} {as : List Access} (h : Coherent s ∧ AckHeld s)
    (hs : read Bus.step Bus.free s.log = some (abs s))
    (hr : (read Bus.step Bus.free (run access s as).log).isSome) :
    Guarded access (fun s a => ¬ Reselection s a) s as := by
  induction as generalizing s with
  | nil => trivial
  | cons a as ih =>
    have hok : ¬ Reselection s a := by
      intro ha
      obtain ⟨hlog, href⟩ := reselection_refused ha
      obtain ⟨es, hes⟩ := hlog.trans (run_log (access s a) as)
      rw [run_cons, ← hes, List.append_assoc, read_append, hs] at hr
      simp [href] at hr
    obtain ⟨h', es, hl, he⟩ := access_coherent s a hok h
    refine ⟨hok, ih h' ?_ hr⟩
    rw [hl, read_append, hs]; exact he

/-- **Well-formed transactions.**  From reset, the transactions on the bus are
    well formed after every access iff no access of the run is a reselection. -/
theorem transaction_wellFormed_iff (targets : Fin 8 → Option ι) (world : ω) (as : List Access) :
    (∀ before, before <+: as → WellFormed (run access (initial targets world) before)) ↔
      Guarded access (fun s a => ¬ Reselection s a) (initial targets world) as := by
  have h := initial_coherent targets world
  have hs : read Bus.step Bus.free (initial targets world).log = some (abs (initial targets world)) := by
    simp [initial, abs, Bus.free]
  constructor
  · intro hw
    exact guarded_of_read h hs (hw as List.prefix_rfl).1
  · rintro hg before ⟨after, rfl⟩
    have hb := ((guarded_append access _ _ before after).1 hg).1
    obtain ⟨⟨hc, -⟩, es, hl, he⟩ := guarded_run_extends (fun s a => access_coherent s a) h hb
    refine hc.wellFormed ?_
    rw [hl, read_append, hs]; exact he

end

/-- A host that selects target 0, sends one command byte and toggles SEL. -/
def toggleSelect : List Access :=
  [.write 0 false 0x01, .write 1 false 0x04, .write 1 false 0x00,
   .write 0 false 0x08, .write 1 false 0x11, .write 1 false 0x01,
   .write 1 false 0x04, .write 1 false 0x00]

theorem toggleSelect_not_wellFormed :
    ¬ WellFormed (run access (initial (fun _ => some (FixedTarget.mk {})) ()) toggleSelect) := by
  rintro ⟨hr, -⟩
  revert hr
  decide

end Ncr5380

end CuteMac.Scsi
