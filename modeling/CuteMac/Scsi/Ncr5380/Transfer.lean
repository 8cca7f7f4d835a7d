/-
  Programmed I/O against pseudo-DMA on the NCR5380.

  A host selects a target, sends a CDB and carries the data phase either with
  REQ/ACK handshakes (`pioTransfer`) or with DACK accesses (`dmaTransfer`).

  * `issue_executed`: the CDB reaches `executeCommand`;
  * `pioTransfer_dataIn`, `dmaTransfer_dataIn`: both deliver the target's data;
  * `dmaTransfer_dataOut`: DACK bytes reach the target;
  * `pioTransfer_dataOut`: bytes sent by handshake never do;
  * `sameTransfer_iff`: the two agree exactly on commands without a data-out phase.
-/
import Mathlib.Data.Fintype.Basic
import Mathlib.Tactic.FinCases
import CuteMac.Scsi.Ncr5380.Transaction

namespace CuteMac.Scsi

namespace Ncr5380

open Machine

variable {ι ω : Type}

/-! ## The host -/

/-- The calls of targets in a log. -/
def eventCall : BusEvent ι → Option (ι × List UInt8 × List UInt8)
  | .execute target cdb dataOut _ => some (target, cdb, dataOut)
  | _ => none

def calls (s : Ncr5380 ι ω) : List (ι × List UInt8 × List UInt8) := s.log.filterMap eventCall

/-- Register 0 holds the id bit, then SEL is pulsed. -/
def selection (id : Fin 8) : List Access :=
  [.write 0 false (1 <<< UInt8.ofNat id.val), .write 1 false icrAssertSelect, .write 1 false 0x00]

/-- Every command byte is put on the data bus and clocked by ACK. -/
def commandBytes (cdb : List UInt8) : List Access :=
  cdb.flatMap fun value =>
    [.write 0 false value, .write 1 false (icrAssertDataBus ||| icrAssertAck),
     .write 1 false icrAssertDataBus]

section
variable [ScsiTarget ι ω]

/-- Selects a target and sends it a CDB. -/
def issue (s : Ncr5380 ι ω) (id : Fin 8) (cdb : List UInt8) : Ncr5380 ι ω :=
  run access s (selection id ++ commandBytes cdb)

/-- A data-in byte by handshake: register 0 is read, ACK raised and dropped. -/
def handshakeIn (s : Ncr5380 ι ω) : UInt8 × Ncr5380 ι ω :=
  let (value, s) := s.readRegister 0 false
  (value, (s.writeRegister 1 false icrAssertAck).writeRegister 1 false 0x00)

/-- A data-out byte by handshake: register 0 is written with the data bus
    asserted, ACK raised and dropped. -/
def handshakeOut (s : Ncr5380 ι ω) (value : UInt8) : Ncr5380 ι ω :=
  ((s.writeRegister 0 false value).writeRegister 1 false (icrAssertDataBus ||| icrAssertAck)
    ).writeRegister 1 false icrAssertDataBus

/-- A data-in byte by DACK, after a look at the bus and status register. -/
def dackIn (s : Ncr5380 ι ω) : UInt8 × Ncr5380 ι ω := (s.readRegister 5 false).2.readRegister 0 true

/-- A data-out byte by DACK, after a look at the bus and status register. -/
def dackOut (s : Ncr5380 ι ω) (value : UInt8) : Ncr5380 ι ω :=
  (s.readRegister 5 false).2.writeRegister 0 true value

omit [ScsiTarget ι ω] in
/-- Receives `n` bytes. -/
def receive (byteIn : Ncr5380 ι ω → UInt8 × Ncr5380 ι ω) :
    Nat → Ncr5380 ι ω → List UInt8 × Ncr5380 ι ω
  | 0, s => ([], s)
  | n + 1, s =>
    let (value, s) := byteIn s
    let (values, s) := receive byteIn n s
    (value :: values, s)

omit [ScsiTarget ι ω] in
/-- The host follows the phase: it takes what the target has, or sends the payload. -/
def dataPhase (byteIn : Ncr5380 ι ω → UInt8 × Ncr5380 ι ω)
    (byteOut : Ncr5380 ι ω → UInt8 → Ncr5380 ι ω) (s : Ncr5380 ι ω) (payload : List UInt8) :
    List UInt8 × Ncr5380 ι ω :=
  match s.phase with
  | .dataIn => receive byteIn s.dataBuffer.length s
  | .dataOut => ([], payload.foldl byteOut s)
  | _ => ([], s)

/-- The data phase by handshakes, with DMA mode off. -/
def pioTransfer (s : Ncr5380 ι ω) (payload : List UInt8) : List UInt8 × Ncr5380 ι ω :=
  dataPhase handshakeIn handshakeOut (s.writeRegister 2 false 0x00) payload

/-- The data phase by DACK accesses, with DMA mode on. -/
def dmaTransfer (s : Ncr5380 ι ω) (payload : List UInt8) : List UInt8 × Ncr5380 ι ω :=
  let (values, s) := dataPhase dackIn dackOut (s.writeRegister 2 false modeDma) payload
  (values, s.writeRegister 2 false 0x00)

theorem writeRegister_zero (s : Ncr5380 ι ω) (value : UInt8) :
    s.writeRegister 0 false value = { s with outputData := value }.setRegister 0 value := rfl

theorem writeRegister_one (s : Ncr5380 ι ω) (value : UInt8) :
    s.writeRegister 1 false value = s.writeInitiatorCommand value := rfl

theorem writeRegister_two (s : Ncr5380 ι ω) (value : UInt8) :
    s.writeRegister 2 false value = s.writeMode value := rfl

/-! ## ACK pulses -/

omit [ScsiTarget ι ω] in
theorem raiseAck_registers (s : Ncr5380 ι ω) (value : UInt8) :
    (s.raiseAck value).registers = s.registers := by
  unfold raiseAck acceptCommandByte; simp only; split_ifs <;> rfl

/-- Without SEL and RST, a write of the initiator command register drives ACK only. -/
theorem writeInitiatorCommand_ack {s : Ncr5380 ι ω} (hs : s.registers 1 &&& icrAssertSelect = 0)
    {value : UInt8} (hv : value &&& icrAssertSelect = 0) (hr : value &&& icrAssertReset = 0) :
    s.writeInitiatorCommand value = (s.setRegister 1 value).driveAck value := by
  simp [writeInitiatorCommand, driveSelect, hs, hv, hr]

/-- ACK is raised with the value `up` and dropped with `down`. -/
theorem pulseAck_eq {s : Ncr5380 ι ω} (hs : s.registers 1 &&& icrAssertSelect = 0)
    (ha : s.previousAck = false) (up down : UInt8) (hu : up &&& icrAssertSelect = 0)
    (hur : up &&& icrAssertReset = 0) (hua : up &&& icrAssertAck ≠ 0)
    (hd : down &&& icrAssertSelect = 0) (hdr : down &&& icrAssertReset = 0)
    (hda : down &&& icrAssertAck = 0) :
    (s.writeRegister 1 false up).writeRegister 1 false down =
      { ({ (s.setRegister 1 up).raiseAck up with previousAck := true }.setRegister 1 down).dropAck with
        previousAck := false } := by
  have hup : s.writeRegister 1 false up =
      { (s.setRegister 1 up).raiseAck up with previousAck := true } := by
    show s.writeInitiatorCommand up = _
    rw [writeInitiatorCommand_ack hs hu hur]
    simp [driveAck, hua, setRegister, ha]
  have hsel : (s.writeRegister 1 false up).registers 1 &&& icrAssertSelect = 0 := by
    rw [hup]
    simp only [raiseAck_registers, setRegister, Function.update_self]
    exact hu
  have hdown : (s.writeRegister 1 false up).writeRegister 1 false down =
      ((s.writeRegister 1 false up).setRegister 1 down).driveAck down :=
    writeInitiatorCommand_ack hsel hd hdr
  rw [hdown, hup]
  simp [driveAck, hda, setRegister]

/-! ## Issuing a command -/

/-- The bus is free, and the chip is in a state that its runs reach. -/
structure Idle (s : Ncr5380 ι ω) : Prop where
  coherent : Coherent s
  phase : s.phase = .busFree
  selected : s.selected = false

/-- The target is selected and has asked for the command; `cdb` has been sent,
    nothing called. -/
structure Collecting (s₀ s : Ncr5380 ι ω) (target : ι) (cdb : List UInt8) : Prop where
  phase : s.phase = .command
  selected : s.selected = true
  target : s.activeTarget = some target
  command : s.command = cdb
  ready : s.commandReady = false
  select : s.registers 1 &&& icrAssertSelect = 0
  pending : s.dataOutCompletionPending = false
  world : s.world = s₀.world
  calls : s.calls = s₀.calls

omit [ScsiTarget ι ω] in
theorem idBit_and (id k : Fin 8) :
    ((1 : UInt8) <<< UInt8.ofNat id.val &&& 1 <<< UInt8.ofNat k.val ≠ 0) ↔ k = id := by
  revert id k; decide

/-- With only the bit of `id` on the data bus, `id` is selected. -/
theorem assertSelect_eq {s : Ncr5380 ι ω} {id : Fin 8} (hid : id ≠ 7)
    (hout : s.outputData = 1 <<< UInt8.ofNat id.val) {target : ι} (ht : s.targets id = some target)
    (hsel : ScsiTarget.selectable s.world target) :
    s.assertSelect = { s with activeTarget := some target, activeTargetId := UInt8.ofNat id.val,
                              selected := true, log := s.log ++ [.select target] } := by
  have hhas : s.hasTarget id = true := by simp [hasTarget, ht, hsel]
  have hfind : ([0, 1, 2, 3, 4, 5, 6] : List (Fin 8)).find? (fun k =>
      s.outputData &&& (1 <<< UInt8.ofNat k.val) ≠ 0 ∧ s.hasTarget k) = some id := by
    simp only [hout, idBit_and]
    fin_cases id <;> simp_all [List.find?]
  unfold assertSelect
  rw [hfind]
  simp [ht, record]

/-- ACK stays low, or drops where the phase does not care. -/
theorem driveAck_low {s : Ncr5380 ι ω} {value : UInt8} (hv : value &&& icrAssertAck = 0)
    (hs : s.previousAck → s.dropAck = s) : s.driveAck value = { s with previousAck := false } := by
  by_cases ha : s.previousAck
  · simp [driveAck, hv, ha, hs ha]
  · simp [driveAck, hv, ha]

theorem select_collecting {s : Ncr5380 ι ω} (h : Idle s) {id : Fin 8} (hid : id ≠ 7) {target : ι}
    (ht : s.targets id = some target) (hsel : ScsiTarget.selectable s.world target) :
    Collecting s (run access s (selection id)) target [] ∧
      (run access s (selection id)).previousAck = false := by
  have hfree := h.coherent.free h.phase
  have hready : s.commandReady = false := by
    simpa using h.coherent.idle (by rw [h.phase]; decide)
  have hpend : s.dataOutCompletionPending = false := by
    by_contra hc
    have := h.coherent.pending (by simpa using hc)
    rw [h.phase] at this
    exact absurd this (by decide)
  set bit : UInt8 := 1 <<< UInt8.ofNat id.val with hbit
  set s1 : Ncr5380 ι ω := { s with outputData := bit }.setRegister 0 bit with hs1
  have he := assertSelect_eq (s := s1.setRegister 1 icrAssertSelect) hid rfl ht hsel
  -- SEL selects the target, whatever ACK was
  have h2 : s1.writeInitiatorCommand icrAssertSelect =
      { (s1.setRegister 1 icrAssertSelect).assertSelect with previousAck := false } := by
    have hn : (s1.setRegister 1 icrAssertSelect).selected = false := h.selected
    have hd : (s1.setRegister 1 icrAssertSelect).driveSelect (s1.registers 1) icrAssertSelect =
        (s1.setRegister 1 icrAssertSelect).assertSelect := by
      simp [driveSelect, hn, show icrAssertSelect ≠ 0 by decide]
    unfold writeInitiatorCommand
    simp only [show icrAssertSelect &&& icrAssertReset = 0 by decide, ne_eq, not_true_eq_false,
      if_false, hd]
    refine driveAck_low (by decide) fun _ => ?_
    rw [he]; simp [dropAck, hs1, setRegister, h.phase]
  -- releasing it enters the command phase
  have h3 (u : Ncr5380 ι ω) (hu : u.registers 1 = icrAssertSelect) (hus : u.selected = true)
      (hua : u.previousAck = false) :
      u.writeInitiatorCommand 0 = { (u.setRegister 1 0).setPhase .command with previousAck := false } := by
    have hd : (u.setRegister 1 0).driveSelect (u.registers 1) 0 = (u.setRegister 1 0).setPhase .command := by
      have hus' : (u.setRegister 1 0).selected = true := hus
      simp [driveSelect, hu, hus', show icrAssertSelect ≠ 0 by decide]
    unfold writeInitiatorCommand
    simp only [UInt8.zero_and, ne_eq, not_true_eq_false, if_false, hd]
    refine driveAck_low (by decide) fun hc => ?_
    rw [setPhase_ne (by decide)] at hc
    exact absurd (hua.symm.trans hc) (by decide)
  have hrun : run access s (selection id) =
      (s1.writeInitiatorCommand icrAssertSelect).writeInitiatorCommand 0 := by
    rw [selection, run_cons, run_cons, run_cons, run_nil]
    simp only [access, writeRegister_zero, writeRegister_one, hs1, hbit]
  rw [he] at h2
  generalize s1.writeInitiatorCommand icrAssertSelect = u at hrun h2
  have hu1 : u.registers 1 = icrAssertSelect := by rw [h2]; simp [setRegister]
  have hu2 : u.selected = true := by rw [h2]
  have hu3 : u.previousAck = false := by rw [h2]
  rw [hrun, h3 u hu1 hu2 hu3, setPhase_ne (by decide), h2]
  clear_value s1
  subst hs1
  refine ⟨?_, rfl⟩
  constructor
  · rfl
  · rfl
  · rfl
  · exact hfree
  · exact hready
  · simp [setRegister]
  · exact hpend
  · rfl
  · simp [setRegister, calls, eventCall]

theorem dropAck_command {s : Ncr5380 ι ω} (hp : s.phase = .command) (hs : s.selected)
    (hc : s.command ≠ []) : s.dropAck =
      if s.commandReady then { s with commandReady := false }.executeCommand
      else if s.command.length < expectedCommandLength (byteAt s.command 0) then
        { s with request := true }
      else s :=
  if_pos ⟨hp, hs, hc⟩

omit [ScsiTarget ι ω] in
theorem acceptCommandByte_eq (s : Ncr5380 ι ω) (value : UInt8) :
    s.acceptCommandByte value =
      { s with
        command := s.command ++ [value], request := false, log := s.log ++ [.accept value],
        commandReady := decide (expectedCommandLength (byteAt (s.command ++ [value]) 0) ≤
          (s.command ++ [value]).length) || s.commandReady } := by
  unfold acceptCommandByte record
  by_cases h : expectedCommandLength (byteAt (s.command ++ [value]) 0) ≤ (s.command ++ [value]).length
  · refine (if_pos h).trans ?_
    rw [decide_eq_true h, Bool.true_or]
  · refine (if_neg h).trans ?_
    rw [decide_eq_false h, Bool.false_or]

/-- The accesses that send one command byte. -/
theorem commandBytes_cons (value : UInt8) (rest : List UInt8) :
    commandBytes (value :: rest) =
      [.write 0 false value, .write 1 false (icrAssertDataBus ||| icrAssertAck),
       .write 1 false icrAssertDataBus] ++ commandBytes rest := rfl

/-- What an ACK pulse does in the command phase: the byte is accepted, and a
    complete command executed. -/
theorem commandByte_eq {s₀ s : Ncr5380 ι ω} {target : ι} {cdb : List UInt8}
    (h : Collecting s₀ s target cdb) (ha : s.previousAck = false) (value : UInt8) :
    ∃ t, Collecting s₀ t target (cdb ++ [value]) ∧
      run access s [.write 0 false value, .write 1 false (icrAssertDataBus ||| icrAssertAck),
        .write 1 false icrAssertDataBus] =
      { (if expectedCommandLength (byteAt (cdb ++ [value]) 0) ≤ (cdb ++ [value]).length then
          t.executeCommand else { t with request := true }) with previousAck := false } := by
  set s1 : Ncr5380 ι ω := { s with outputData := value }.setRegister 0 value with hs1
  have hsel : s1.registers 1 &&& icrAssertSelect = 0 := by
    simpa [hs1, setRegister, Function.update_of_ne] using h.select
  have hpulse := pulseAck_eq hsel (show s1.previousAck = false from ha)
    (icrAssertDataBus ||| icrAssertAck) icrAssertDataBus
    (by decide) (by decide) (by decide) (by decide) (by decide) (by decide)
  have hraise : (s1.setRegister 1 (icrAssertDataBus ||| icrAssertAck)).raiseAck
      (icrAssertDataBus ||| icrAssertAck) =
      (s1.setRegister 1 (icrAssertDataBus ||| icrAssertAck)).acceptCommandByte value := by
    have hp : (s1.setRegister 1 (icrAssertDataBus ||| icrAssertAck)).phase = .command := h.phase
    unfold raiseAck
    rw [if_pos ⟨hp, by decide⟩]; rfl
  have hrun : run access s [.write 0 false value,
      .write 1 false (icrAssertDataBus ||| icrAssertAck), .write 1 false icrAssertDataBus] =
      (s1.writeRegister 1 false (icrAssertDataBus ||| icrAssertAck)).writeRegister 1 false
        icrAssertDataBus := rfl
  rw [hrun, hpulse, hraise]
  have hlog : (s.log ++ [(BusEvent.accept value : BusEvent ι)]).filterMap eventCall = s₀.calls := by
    have := h.calls
    simp_all [calls, eventCall]
  obtain ⟨u, hu⟩ : ∃ u, u = { (s1.setRegister 1 (icrAssertDataBus ||| icrAssertAck)).acceptCommandByte
      value with previousAck := true }.setRegister 1 icrAssertDataBus := ⟨_, rfl⟩
  rw [← hu]
  rw [acceptCommandByte_eq] at hu
  have hcmd : u.command = cdb ++ [value] := by rw [hu, ← h.command]; rfl
  have hready : u.commandReady = (decide (expectedCommandLength (byteAt (s.command ++ [value]) 0) ≤
      (s.command ++ [value]).length) || s.commandReady) := by rw [hu]; rfl
  rw [h.ready, Bool.or_false, h.command] at hready
  have hc (r : Bool) (hr : r = false) :
      Collecting s₀ { u with commandReady := r } target (cdb ++ [value]) := by
    refine ⟨?_, ?_, ?_, hcmd, hr, ?_, ?_, ?_, ?_⟩
    · rw [hu]; exact h.phase
    · rw [hu]; exact h.selected
    · rw [hu]; exact h.target
    · rw [hu]; simp only [setRegister, Function.update_self]; decide
    · rw [hu]; exact h.pending
    · rw [hu]; exact h.world
    · rw [hu]; exact hlog
  have hup : u.phase = .command := (hc false rfl).phase
  have hus : u.selected = true := (hc false rfl).selected
  have hdrop := dropAck_command hup hus (by rw [hcmd]; simp)
  by_cases hfull : expectedCommandLength (byteAt (cdb ++ [value]) 0) ≤ (cdb ++ [value]).length
  · rw [decide_eq_true hfull] at hready
    refine ⟨_, hc false rfl, ?_⟩
    rw [if_pos hfull, hdrop, if_pos hready]
  · rw [decide_eq_false hfull] at hready
    refine ⟨_, hc _ hready, ?_⟩
    rw [if_neg hfull, hdrop, if_neg (by rw [hready]; simp), if_pos (by rw [hcmd]; omega)]

/-- **The command reaches `executeCommand`.** -/
theorem commandBytes_executed {s₀ : Ncr5380 ι ω} {target : ι} (rest : List UInt8) :
    ∀ (s : Ncr5380 ι ω) (cdb : List UInt8), Collecting s₀ s target cdb → s.previousAck = false →
      rest ≠ [] → Complete (cdb ++ rest) →
      ∃ t, Collecting s₀ t target (cdb ++ rest) ∧
        run access s (commandBytes rest) = { t.executeCommand with previousAck := false } := by
  induction rest with
  | nil => intro s cdb _ _ hne; exact absurd rfl hne
  | cons value rest ih =>
    intro s cdb h ha _ hfull
    obtain ⟨t, ht, hrun⟩ := commandByte_eq h ha value
    have h0 : byteAt (cdb ++ [value]) 0 = byteAt (cdb ++ value :: rest) 0 := by
      rw [List.append_cons cdb value rest]; exact (byteAt_append (by simp) rest).symm
    have hlen : (cdb ++ value :: rest).length = expectedCommandLength (byteAt (cdb ++ [value]) 0) := by
      rw [h0]; exact hfull
    rw [commandBytes_cons, run_append, hrun]
    rcases rest with _ | ⟨next, rest⟩
    · rw [if_pos (by rw [hlen])]
      exact ⟨t, ht, rfl⟩
    · rw [if_neg (by rw [← hlen]; simp)]
      have ht' : Collecting s₀ { t with request := true, previousAck := false } target (cdb ++ [value]) :=
        ⟨ht.1, ht.2, ht.3, ht.4, ht.5, ht.6, ht.7, ht.8, ht.9⟩
      have hfull' : Complete ((cdb ++ [value]) ++ next :: rest) := by
        rw [List.append_assoc]; exact hfull
      obtain ⟨t', ht'', hrun'⟩ := ih _ _ ht' rfl (by simp) hfull'
      rw [List.append_assoc] at ht''
      exact ⟨t', ht'', hrun'⟩

/-! ## The data-in phase -/

omit [ScsiTarget ι ω] in
/-- The data-in phase that began in `s₁`, with `i` bytes delivered. -/
structure Reading (s₁ s : Ncr5380 ι ω) (i : Nat) : Prop where
  phase : s.phase = .dataIn
  buffer : s.dataBuffer = s₁.dataBuffer
  index : s.dataIndex = i
  request : s.request ∨ s.requestReassertPending
  ack : s.previousAck = false
  select : s.registers 1 &&& icrAssertSelect = 0
  pending : s.dataOutCompletionPending = false
  status : s.status = s₁.status
  calls : s.calls = s₁.calls

omit [ScsiTarget ι ω] in
/-- The data phase that began in `s₁` is over. -/
structure Finished (s₁ s : Ncr5380 ι ω) : Prop where
  phase : s.phase = .status
  pending : s.dataOutCompletionPending = false
  status : s.status = s₁.status
  calls : s.calls = s₁.calls

omit [ScsiTarget ι ω] in
/-- `byteIn` delivers the next byte, and ends the phase after the last one. -/
def Delivers (byteIn : Ncr5380 ι ω → UInt8 × Ncr5380 ι ω) : Prop :=
  ∀ s₁ s i, Reading s₁ s i → i < s₁.dataBuffer.length →
    (byteIn s).1 = byteAt s₁.dataBuffer i ∧
      if i + 1 < s₁.dataBuffer.length then Reading s₁ (byteIn s).2 (i + 1)
      else Finished s₁ (byteIn s).2

omit [ScsiTarget ι ω] in
theorem receive_finished {byteIn : Ncr5380 ι ω → UInt8 × Ncr5380 ι ω} (hb : Delivers byteIn)
    {s₁ : Ncr5380 ι ω} (n : Nat) :
    ∀ (s : Ncr5380 ι ω) (i : Nat), Reading s₁ s i → i + n + 1 = s₁.dataBuffer.length →
      (receive byteIn (n + 1) s).1 = s₁.dataBuffer.drop i ∧
        Finished s₁ (receive byteIn (n + 1) s).2 := by
  induction n with
  | zero =>
    intro s i h hi
    obtain ⟨h1, h2⟩ := hb s₁ s i h (by omega)
    rw [if_neg (by omega)] at h2
    refine ⟨?_, h2⟩
    rw [List.drop_eq_getElem_cons (by omega), List.drop_eq_nil_of_le (by omega)]
    simp [receive, h1, byteAt, List.getElem?_eq_getElem (show i < s₁.dataBuffer.length by omega)]
  | succ n ih =>
    intro s i h hi
    obtain ⟨h1, h2⟩ := hb s₁ s i h (by omega)
    rw [if_pos (by omega)] at h2
    obtain ⟨h3, h4⟩ := ih _ _ h2 (by omega)
    have hr : receive byteIn (n + 1 + 1) s =
        ((byteIn s).1 :: (receive byteIn (n + 1) (byteIn s).2).1,
          (receive byteIn (n + 1) (byteIn s).2).2) := rfl
    rw [hr]
    refine ⟨?_, h4⟩
    rw [List.drop_eq_getElem_cons (by omega), h3, h1]
    simp [byteAt, List.getElem?_eq_getElem (show i < s₁.dataBuffer.length by omega)]

omit [ScsiTarget ι ω] in
theorem setPhase_status_finished {s₁ s : Ncr5380 ι ω} {i : Nat} (h : Reading s₁ s i) :
    Finished s₁ (s.setPhase .status) := by
  rw [setPhase_ne (by decide)]
  refine ⟨rfl, h.pending, h.status, ?_⟩
  have := h.calls
  simp_all [Ncr5380.calls, eventCall]

omit [ScsiTarget ι ω] in
/-- Reading a byte of the data-in phase moves the data position. -/
theorem readDataByte_reading {s₁ s : Ncr5380 ι ω} {i : Nat} (h : Reading s₁ s i)
    (hi : i < s₁.dataBuffer.length) :
    s.readDataByte = (byteAt s₁.dataBuffer i, { s with dataIndex := i + 1 }) := by
  unfold readDataByte
  rw [h.phase]
  simp only [h.index, h.buffer, if_pos hi]

omit [ScsiTarget ι ω] in
theorem raiseAck_data {s : Ncr5380 ι ω} (value : UInt8) (hp : s.phase = .dataIn ∨ s.phase = .dataOut) :
    s.raiseAck value = { s with request := false } := by
  rcases hp with hp | hp <;> simp [raiseAck, hp]

theorem dropAck_dataIn {s : Ncr5380 ι ω} (hp : s.phase = .dataIn) :
    s.dropAck = if s.dataBuffer.length ≤ s.dataIndex then s.setPhase .status
      else { s with request := true } := by
  simp [dropAck, hp]

/-- The byte is latched when register 0 is read; ACK ends it. -/
theorem handshakeIn_delivers : Delivers (handshakeIn (ι := ι) (ω := ω)) := by
  intro s₁ s i h hi
  have hread : s.readRegister 0 false = (byteAt s₁.dataBuffer i, { s with dataIndex := i + 1 }) :=
    readDataByte_reading h hi
  have hpulse := pulseAck_eq (s := { s with dataIndex := i + 1 }) h.select h.ack icrAssertAck 0x00
    (by decide) (by decide) (by decide) (by decide) (by decide) (by decide)
  have hraise := raiseAck_data (s := { s with dataIndex := i + 1 }.setRegister 1 icrAssertAck)
    icrAssertAck (Or.inl h.phase)
  rw [hraise] at hpulse
  obtain ⟨u, hu⟩ : ∃ u, u = { ({ s with dataIndex := i + 1 }.setRegister 1 icrAssertAck) with
      request := false, previousAck := true }.setRegister 1 0x00 := ⟨_, rfl⟩
  have hR : Reading s₁ { u with request := true, previousAck := false } (i + 1) := by
    rw [hu]
    exact ⟨h.phase, h.buffer, rfl, Or.inl rfl, rfl, by simp [setRegister], h.pending, h.status, h.calls⟩
  have hs : (handshakeIn s).2 = { u.dropAck with previousAck := false } := by
    unfold handshakeIn
    rw [hread, hu]
    exact hpulse
  refine ⟨by unfold handshakeIn; rw [hread], ?_⟩
  have hlen : u.dataBuffer.length = s₁.dataBuffer.length := congrArg List.length hR.buffer
  have hindex : u.dataIndex = i + 1 := hR.index
  rw [hs, dropAck_dataIn (show u.phase = .dataIn from hR.phase), hlen, hindex]
  by_cases h1 : i + 1 < s₁.dataBuffer.length
  · rw [if_pos h1, if_neg (by omega)]
    exact ⟨hR.1, hR.2, rfl, hR.4, hR.5, hR.6, hR.7, hR.8, hR.9⟩
  · have hf := setPhase_status_finished hR
    rw [if_neg h1, if_pos (by omega)]
    rw [setPhase_ne (by decide)] at hf ⊢
    exact ⟨hf.1, hf.2, hf.3, hf.4⟩

omit [ScsiTarget ι ω] in
/-- The status read before a DACK access finds REQ asserted. -/
theorem reassertRequest_eq {s : Ncr5380 ι ω} (h : s.request ∨ s.requestReassertPending) :
    s.reassertRequest = { s with request := true, requestReassertPending := false } ∨
      s.reassertRequest = { s with request := true } := by
  unfold reassertRequest
  by_cases hr : s.requestReassertPending
  · exact Or.inl (by rw [if_pos hr])
  · have hreq : s.request = true := by
      rcases h with h | h
      · exact h
      · exact absurd h hr
    exact Or.inr (by rw [if_neg hr, ← hreq])

omit [ScsiTarget ι ω] in
theorem dackIn_delivers : Delivers (dackIn (ι := ι) (ω := ω)) := by
  intro s₁ s i h hi
  obtain ⟨u, hu, hR, hreq⟩ : ∃ u, (s.readRegister 5 false).2 = u ∧ Reading s₁ u i ∧
      u.request = true := by
    rcases reassertRequest_eq h.request with he | he
    · exact ⟨_, he, ⟨h.1, h.2, h.3, Or.inl rfl, h.5, h.6, h.7, h.8, h.9⟩, rfl⟩
    · exact ⟨_, he, ⟨h.1, h.2, h.3, Or.inl rfl, h.5, h.6, h.7, h.8, h.9⟩, rfl⟩
  have hp := hR.phase
  have hlen : u.dataBuffer.length = s₁.dataBuffer.length := congrArg List.length hR.buffer
  have hdack : dackIn s = (byteAt s₁.dataBuffer i,
      if s₁.dataBuffer.length ≤ i + 1 then
        { u with dataIndex := i + 1, request := false }.setPhase .status
      else { u with dataIndex := i + 1, request := false, requestReassertPending := true }) := by
    unfold dackIn
    rw [hu]
    simp only [readRegister, hreq, readDataByte_reading hR hi, hp, hlen, Bool.not_true,
      Bool.false_eq_true, if_true, if_false, and_self]
  rw [hdack]
  refine ⟨rfl, ?_⟩
  by_cases h1 : i + 1 < s₁.dataBuffer.length
  · simp only [if_pos h1, if_neg (show ¬ s₁.dataBuffer.length ≤ i + 1 by omega)]
    exact ⟨hR.1, hR.2, rfl, Or.inr rfl, hR.5, hR.6, hR.7, hR.8, hR.9⟩
  · have hR' : Reading s₁ { u with dataIndex := i + 1, request := true } (i + 1) :=
      ⟨hR.1, hR.2, rfl, Or.inl rfl, hR.5, hR.6, hR.7, hR.8, hR.9⟩
    have hf := setPhase_status_finished hR'
    simp only [if_neg h1, if_pos (show s₁.dataBuffer.length ≤ i + 1 by omega)]
    rw [setPhase_ne (by decide)] at hf ⊢
    exact ⟨hf.1, hf.2, hf.3, hf.4⟩

/-- The state in which a command without a data-out phase leaves the host. -/
def AtData (s : Ncr5380 ι ω) : Prop :=
  s.dataBuffer ≠ [] ∧ Reading s s 0 ∨ s.dataBuffer = [] ∧ Finished s s

theorem writeMode_idle {s : Ncr5380 ι ω} (h : s.dataOutCompletionPending = false) (value : UInt8) :
    s.writeRegister 2 false value = s.setRegister 2 value := by
  rw [writeRegister_two]; simp [writeMode, h]

/-- **The data-in phase.**  Either way of carrying it delivers the data of the
    target and leaves the status of the command. -/
theorem dataPhase_finished {byteIn : Ncr5380 ι ω → UInt8 × Ncr5380 ι ω} (hb : Delivers byteIn)
    (byteOut : Ncr5380 ι ω → UInt8 → Ncr5380 ι ω) {s : Ncr5380 ι ω} (h : AtData s) (mode : UInt8)
    (payload : List UInt8) :
    let r := dataPhase byteIn byteOut (s.writeRegister 2 false mode) payload
    r.1 = s.dataBuffer ∧ Finished s r.2 := by
  rcases h with ⟨hne, h⟩ | ⟨hnil, h⟩
  · have hR : Reading s (s.setRegister 2 mode) 0 :=
      ⟨h.1, h.2, h.3, h.4, h.5, by simpa [setRegister] using h.6, h.7, h.8, h.9⟩
    obtain ⟨n, hn⟩ : ∃ n, s.dataBuffer.length = n + 1 :=
      ⟨_, (Nat.succ_pred_eq_of_pos (List.length_pos_iff.2 hne)).symm⟩
    have hlen : (s.setRegister 2 mode).dataBuffer.length = n + 1 := hn
    rw [writeMode_idle h.pending, dataPhase]
    simp only [hR.phase, hlen]
    have := receive_finished hb n _ 0 hR (by omega)
    simpa using this
  · rw [writeMode_idle h.pending, dataPhase]
    have hp : (s.setRegister 2 mode).phase = .status := h.phase
    simp only [hp]
    exact ⟨hnil.symm, h.1, h.2, h.3, h.4⟩

theorem pioTransfer_dataIn {s : Ncr5380 ι ω} (h : AtData s) (payload : List UInt8) :
    (pioTransfer s payload).1 = s.dataBuffer ∧ Finished s (pioTransfer s payload).2 :=
  dataPhase_finished handshakeIn_delivers handshakeOut h 0x00 payload

theorem dmaTransfer_dataIn {s : Ncr5380 ι ω} (h : AtData s) (payload : List UInt8) :
    (dmaTransfer s payload).1 = s.dataBuffer ∧ Finished s (dmaTransfer s payload).2 := by
  obtain ⟨h1, h2⟩ := dataPhase_finished dackIn_delivers dackOut h modeDma payload
  have he : dmaTransfer s payload =
      ((dataPhase dackIn dackOut (s.writeRegister 2 false modeDma) payload).1,
        (dataPhase dackIn dackOut (s.writeRegister 2 false modeDma) payload).2.writeRegister 2
          false 0x00) := rfl
  rw [he, writeMode_idle h2.pending]
  exact ⟨h1, h2.1, h2.2, h2.3, h2.4⟩

/-- After the command is issued, a command without a data-out phase offers the
    data of its target. -/
theorem executed_atData {s₀ t : Ncr5380 ι ω} {target : ι} {cdb : List UInt8}
    (h : Collecting s₀ t target cdb) (hn : dataOutLength cdb = none) :
    AtData { t.executeCommand with previousAck := false } := by
  rcases executeCommand_eq h.target with ⟨n, hn', -⟩ | ⟨-, m, he⟩
  · rw [h.command, hn] at hn'; exact absurd hn' (by simp)
  · obtain ⟨h1, -, -, h4, -, -, -, -⟩ :=
      runCommand_fields { t with dataOut := [], expectedDataOut := m } target
    obtain ⟨k1, k2, -, k4, k5⟩ := runCommand_data { t with dataOut := [], expectedDataOut := m } target
    rw [← he] at h1 h4 k1 k2 k4 k5
    generalize t.executeCommand = u at *
    have hpend : u.dataOutCompletionPending = false := h4.trans h.pending
    by_cases hd : u.dataBuffer = []
    · rw [k1] at hd
      rw [if_pos hd] at h1
      exact Or.inr ⟨k1.trans hd, h1, hpend, rfl, rfl⟩
    · have hd' := hd
      rw [k1] at hd'
      rw [if_neg hd'] at h1
      refine Or.inl ⟨hd, h1, rfl, k2, Or.inl k4, rfl, ?_, hpend, rfl, rfl⟩
      show u.registers 1 &&& icrAssertSelect = 0
      rw [k5]; exact h.select

/-! ## The data-out phase -/

omit [ScsiTarget ι ω] in
/-- A data-out phase in which no byte has arrived. -/
structure Waiting (s : Ncr5380 ι ω) : Prop where
  phase : s.phase = .dataOut
  dataOut : s.dataOut = []
  expected : 0 < s.expectedDataOut
  ack : s.previousAck = false
  select : s.registers 1 &&& icrAssertSelect = 0
  pending : s.dataOutCompletionPending = false

theorem executed_waiting {s₀ t : Ncr5380 ι ω} {target : ι} {cdb : List UInt8}
    (h : Collecting s₀ t target cdb) {n : Nat} (hn : dataOutLength cdb = some n) :
    Waiting { t.executeCommand with previousAck := false } := by
  rcases executeCommand_eq h.target with ⟨m, hm, he⟩ | ⟨hn', -⟩
  · rw [he, beginDataOut, setPhase_ne (by decide)]
    exact ⟨rfl, rfl, dataOutLength_pos hm, rfl, h.select, h.pending⟩
  · rw [h.command, hn] at hn'; exact absurd hn' (by simp)

/-- The value on the data bus is never latched: after a handshake the phase
    waits for its first byte as before. -/
theorem handshakeOut_waiting {s : Ncr5380 ι ω} (h : Waiting s) (value : UInt8) :
    Waiting (handshakeOut s value) := by
  set s1 : Ncr5380 ι ω := { s with outputData := value }.setRegister 0 value with hs1
  have hsel : s1.registers 1 &&& icrAssertSelect = 0 := by
    simpa [hs1, setRegister, Function.update_of_ne] using h.select
  have hpulse := pulseAck_eq hsel (show s1.previousAck = false from h.ack)
    (icrAssertDataBus ||| icrAssertAck) icrAssertDataBus
    (by decide) (by decide) (by decide) (by decide) (by decide) (by decide)
  have hraise := raiseAck_data (s := s1.setRegister 1 (icrAssertDataBus ||| icrAssertAck))
    (icrAssertDataBus ||| icrAssertAck) (Or.inr h.phase)
  rw [hraise] at hpulse
  obtain ⟨u, hu⟩ : ∃ u, u = { s1.setRegister 1 (icrAssertDataBus ||| icrAssertAck) with
      request := false, previousAck := true }.setRegister 1 icrAssertDataBus := ⟨_, rfl⟩
  have hp : u.phase = .dataOut := by rw [hu]; exact h.phase
  have hd : u.dataOut = [] := by rw [hu]; exact h.dataOut
  have he : 0 < u.expectedDataOut := by rw [hu]; exact h.expected
  have hfinish : u.finishDataPhaseIfDone = u := by
    simp [finishDataPhaseIfDone, hp, hd, Nat.ne_of_gt he]
  have hdrop : u.dropAck = { u with request := true } := by
    simp [dropAck, hp, hfinish]
  have hs : handshakeOut s value = { u with request := true, previousAck := false } := by
    have h1 : handshakeOut s value = { u.dropAck with previousAck := false } := by
      rw [hu]; exact hpulse
    rw [h1, hdrop]
  rw [hs]
  refine ⟨hp, hd, he, rfl, ?_, ?_⟩
  · rw [hu]; simp only [setRegister, Function.update_self]; decide
  · rw [hu]; exact h.pending

/-- However many bytes are sent by handshake, the data-out phase does not end. -/
theorem pioTransfer_waiting {s : Ncr5380 ι ω} (h : Waiting s) (payload : List UInt8) :
    Waiting (pioTransfer s payload).2 := by
  have h0 : Waiting (s.setRegister 2 0x00) :=
    ⟨h.1, h.2, h.3, h.4, by simpa [setRegister] using h.5, h.6⟩
  have hp : (s.setRegister 2 0x00).phase = .dataOut := h.phase
  rw [pioTransfer, writeMode_idle h.pending, dataPhase]
  simp only [hp]
  exact run_inv (I := Waiting) (fun u value hu => handshakeOut_waiting hu value) h0 payload

omit [ScsiTarget ι ω] in
/-- A data-out phase of `expected` bytes by DACK that began in `s₁`. -/
structure Filling (s₁ s : Ncr5380 ι ω) (target : ι) (received : List UInt8) : Prop where
  phase : s.phase = .dataOut
  target : s.activeTarget = some target
  command : s.command = s₁.command
  format : byteAt s₁.command 0 ≠ 0x04
  dataOut : s.dataOut = received
  expected : s.expectedDataOut = s₁.expectedDataOut
  request : s.request ∨ s.requestReassertPending
  dma : s.registers 2 &&& modeDma ≠ 0
  world : s.world = s₁.world
  calls : s.calls = s₁.calls

omit [ScsiTarget ι ω] in
/-- The status read that precedes a DACK byte. -/
theorem Filling.requested {s₁ s : Ncr5380 ι ω} {target : ι} {received : List UInt8}
    (h : Filling s₁ s target received) :
    Filling s₁ s.reassertRequest target received ∧ s.reassertRequest.request = true ∧
      s.reassertRequest.dataOutCompletionPending = s.dataOutCompletionPending := by
  rcases reassertRequest_eq h.request with he | he
  · rw [he]
    exact ⟨⟨h.1, h.2, h.3, h.4, h.5, h.6, Or.inl rfl, h.8, h.9, h.10⟩, rfl, rfl⟩
  · rw [he]
    exact ⟨⟨h.1, h.2, h.3, h.4, h.5, h.6, Or.inl rfl, h.8, h.9, h.10⟩, rfl, rfl⟩

theorem writeDack_dataOut {s : Ncr5380 ι ω} (hr : s.request = true) (hp : s.phase = .dataOut)
    (hop : byteAt s.command 0 ≠ 0x04) (hdma : s.registers 2 &&& modeDma ≠ 0)
    (hpend : s.dataOutCompletionPending = false) (value : UInt8) :
    s.writeDack value =
      if s.expectedDataOut ≤ (s.dataOut ++ [value]).length then
        { s with dataOut := s.dataOut ++ [value], dataOutCompletionPending := true }
      else
        { s with dataOut := s.dataOut ++ [value], request := false, requestReassertPending := true } := by
  have hw : s.writeDataByte value = { s with dataOut := s.dataOut ++ [value] } := by
    simp [writeDataByte, hp]
  by_cases hlen : s.expectedDataOut ≤ (s.dataOut ++ [value]).length
  · have hlen' : s.expectedDataOut ≤ s.dataOut.length + 1 := by simpa using hlen
    rw [if_pos hlen]
    simp [writeDack, hr, hp, hw, finishDataPhaseIfDone, hop, hlen', dataOutArrived, hdma]
  · have hlen' : ¬ s.expectedDataOut ≤ s.dataOut.length + 1 := by simpa using hlen
    rw [if_neg hlen]
    simp [writeDack, hr, hp, hw, finishDataPhaseIfDone, hop, hlen', hpend]

/-- A DACK byte arrives; the last one leaves the completion pending. -/
theorem dackOut_filling {s₁ s : Ncr5380 ι ω} {target : ι} {received : List UInt8}
    (h : Filling s₁ s target received) (hpend : s.dataOutCompletionPending = false) (value : UInt8) :
    Filling s₁ (dackOut s value) target (received ++ [value]) ∧
      (dackOut s value).dataOutCompletionPending =
        decide (s₁.expectedDataOut ≤ (received ++ [value]).length) := by
  obtain ⟨hF, hreq, hpend'⟩ := h.requested
  have hd : dackOut s value = s.reassertRequest.writeDack value := rfl
  rw [hpend] at hpend'
  generalize s.reassertRequest = u at *
  have hop : byteAt u.command 0 ≠ 0x04 := by rw [hF.command]; exact hF.format
  rw [hd, writeDack_dataOut hreq hF.phase hop hF.dma hpend' value, hF.expected, hF.dataOut]
  split_ifs with hlen
  · rw [decide_eq_true hlen]
    exact ⟨⟨hF.1, hF.2, hF.3, hF.4, rfl, rfl, Or.inl hreq, hF.8, hF.9, hF.10⟩, rfl⟩
  · rw [decide_eq_false hlen]
    exact ⟨⟨hF.1, hF.2, hF.3, hF.4, rfl, rfl, Or.inr rfl, hF.8, hF.9, hF.10⟩, hpend'⟩

theorem foldl_dackOut {s₁ : Ncr5380 ι ω} {target : ι} (payload : List UInt8) :
    ∀ (s : Ncr5380 ι ω) (received : List UInt8), Filling s₁ s target received →
      s.dataOutCompletionPending = false → payload ≠ [] →
      received.length + payload.length = s₁.expectedDataOut →
      Filling s₁ (payload.foldl dackOut s) target (received ++ payload) ∧
        (payload.foldl dackOut s).dataOutCompletionPending = true := by
  induction payload with
  | nil => intro s received _ _ hne; exact absurd rfl hne
  | cons value rest ih =>
    intro s received h hpend _ hlen
    obtain ⟨h1, h2⟩ := dackOut_filling h hpend value
    rw [List.append_cons, List.foldl_cons]
    simp only [List.length_cons] at hlen
    rcases rest with _ | ⟨next, rest⟩
    · simp only [List.length_nil] at hlen
      rw [decide_eq_true (by simp; omega)] at h2
      simpa using ⟨h1, h2⟩
    · simp only [List.length_cons] at hlen
      rw [decide_eq_false (by simp; omega)] at h2
      refine ih _ _ h1 h2 (by simp) ?_
      simp only [List.length_append, List.length_cons, List.length_nil]
      omega

/-- **The data-out phase by DACK.**  The target gets the payload in one call
    when DMA mode is cleared, and its status is the status of the command. -/
theorem dmaTransfer_dataOut {s : Ncr5380 ι ω} (h : Waiting s) {target : ι}
    (ht : s.activeTarget = some target) (hr : s.request) (hop : byteAt s.command 0 ≠ 0x04)
    {payload : List UInt8} (hlen : payload.length = s.expectedDataOut) :
    let s' := (dmaTransfer s payload).2
    s'.phase = .status ∧ s'.calls = s.calls ++ [(target, s.command, payload)] ∧
      s'.status = (ScsiTarget.executeCommand s.world target s.command payload).1.status := by
  have h0 : Filling s (s.setRegister 2 modeDma) target [] :=
    ⟨h.phase, ht, rfl, hop, h.dataOut, rfl, Or.inl hr, by simp [setRegister]; decide, rfl, rfl⟩
  have hne : payload ≠ [] := by
    intro hnil
    have := h.expected
    rw [hnil] at hlen
    exact absurd hlen (Nat.ne_of_lt this)
  obtain ⟨hF, hpend⟩ := foldl_dackOut payload _ _ h0 h.pending hne (by simpa using hlen)
  have hp : (s.setRegister 2 modeDma).phase = .dataOut := h.phase
  have hd : (dmaTransfer s payload).2 =
      (payload.foldl dackOut (s.setRegister 2 modeDma)).writeMode 0x00 := by
    rw [dmaTransfer, writeMode_idle h.pending, dataPhase]
    simp only [hp]
    rw [writeRegister_two]
  intro s'
  have hs' : s' = (payload.foldl dackOut (s.setRegister 2 modeDma)).writeMode 0x00 := hd
  generalize payload.foldl dackOut (s.setRegister 2 modeDma) = u at hF hpend hs'
  have hdone : s' = { u with dataOutCompletionPending := false }.completeDataOutCommand.setRegister 2
      0x00 := by
    rw [hs', writeMode, if_pos ⟨hF.dma, by simp, hpend⟩]
  have ht' : { u with dataOutCompletionPending := false }.activeTarget = some target := hF.target
  obtain ⟨h1, -, -, -, -, -, -, h8⟩ := completeDataOutCommand_fields ht'
  have h9 := completeDataOutCommand_status ht'
  have hcommand : u.command = s.command := hF.command
  have hpayload : u.dataOut = payload := hF.dataOut
  rw [hdone]
  refine ⟨h1, ?_, h9.trans ?_⟩
  · have hcalls : u.log.filterMap eventCall = s.calls := hF.calls
    unfold calls setRegister
    rw [h8, List.filterMap_append, hcalls, hcommand, hpayload]
    rfl
  · show (ScsiTarget.executeCommand u.world target u.command u.dataOut).1.status = _
    rw [hcommand, hpayload, hF.world]

/-! ## Agreement -/

/-- Two ways of carrying the data phase did the same: the bytes received, the
    calls of targets, the Status phase and the status byte. -/
def SameTransfer (a b : List UInt8 × Ncr5380 ι ω) : Prop :=
  a.1 = b.1 ∧ a.2.calls = b.2.calls ∧ a.2.phase = .status ∧ b.2.phase = .status ∧
    a.2.status = b.2.status

/-- **Programmed I/O and pseudo-DMA.**  On a free bus, for every target that
    answers, every complete CDB and every payload, the two ways of carrying the
    data phase do the same iff the CDB starts no data-out phase. -/
theorem sameTransfer_iff {s : Ncr5380 ι ω} (h : Idle s) {id : Fin 8} (hid : id ≠ 7)
    (ht : s.hasTarget id) {cdb : List UInt8} (hc : Complete cdb) (payload : List UInt8) :
    SameTransfer (pioTransfer (issue s id cdb) payload) (dmaTransfer (issue s id cdb) payload) ↔
      dataOutLength cdb = none := by
  obtain ⟨target, htarget, hsel⟩ : ∃ target, s.targets id = some target ∧
      ScsiTarget.selectable s.world target := by
    unfold hasTarget at ht
    split at ht
    · exact ⟨_, ‹_›, ht⟩
    · exact absurd ht (by simp)
  obtain ⟨h1, h2⟩ := select_collecting h hid htarget hsel
  obtain ⟨t, h3, h4⟩ := commandBytes_executed cdb _ [] h1 h2 hc.ne_nil hc
  rw [issue, run_append, h4]
  cases hn : dataOutLength cdb with
  | none =>
    have hd := executed_atData h3 hn
    obtain ⟨p1, p2⟩ := pioTransfer_dataIn hd payload
    obtain ⟨d1, d2⟩ := dmaTransfer_dataIn hd payload
    exact ⟨fun _ => rfl, fun _ => ⟨p1.trans d1.symm, p2.calls.trans d2.calls.symm, p2.phase,
      d2.phase, p2.status.trans d2.status.symm⟩⟩
  | some n =>
    have hw := pioTransfer_waiting (executed_waiting h3 hn) payload
    refine ⟨fun hsame => ?_, fun hc => absurd hc (by simp)⟩
    exact absurd (hw.phase.symm.trans hsame.2.2.1) (by decide)

omit [ScsiTarget ι ω] in
theorem initial_idle (targets : Fin 8 → Option ι) (world : ω) : Idle (initial targets world) :=
  ⟨(initial_coherent targets world).1, rfl, rfl⟩

end

/-- A chip with an attached target that answers with one byte. -/
def sampleChip : Ncr5380 FixedTarget Unit :=
  initial (fun _ => some ⟨{ data := [0x2a] }⟩) ()

theorem sameTransfer_iff_inquiry :
    SameTransfer (pioTransfer (issue sampleChip 0 [0x12, 0, 0, 0, 1, 0]) [])
        (dmaTransfer (issue sampleChip 0 [0x12, 0, 0, 0, 1, 0]) []) ↔
      dataOutLength [0x12, 0, 0, 0, 1, 0] = none :=
  sameTransfer_iff (initial_idle _ _) (by decide) (by decide) (by unfold Complete; decide) []

theorem modeSelect_not_sameTransfer :
    ¬ SameTransfer (pioTransfer (issue sampleChip 0 [0x15, 0, 0, 0, 1, 0]) [0x00])
        (dmaTransfer (issue sampleChip 0 [0x15, 0, 0, 0, 1, 0]) [0x00]) := by
  intro h
  have hp := h.2.2.1
  revert hp
  decide +kernel

end Ncr5380

end CuteMac.Scsi
