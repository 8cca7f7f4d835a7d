/-
  Commands delivered through the NCR53C94.

  A host names the target, selects it with a CDB and carries the data phase by
  DMA Transfer Informations (`deliver`).  The bytes of the selection stand in
  the FIFO before the command or come by DMA after it; with ATN an IDENTIFY
  message precedes the CDB.

  * `Begun.carry_calls`: the calls that a begun CDB ends in;
  * `selectFifo_begun`: selection from the FIFO begins what is left of the CDB
    after its identify filter and its length rule;
  * `sendBytes_begun`: selection by DMA begins a CDB without bit 7 in front;
  * `Filtered`: it never begins one with that bit;
  * `deliver_calls_iff`: when the target gets the CDB and the payload.
-/
import Mathlib.Data.List.TakeDrop
import CuteMac.Scsi.Ncr5380
import CuteMac.Scsi.Ncr53c94.Blocks

namespace CuteMac.Scsi

namespace Ncr53c94

open Machine

variable {ι ω : Type}

/-! ## The host -/

/-- The calls of targets in a log. -/
def eventCall : CdbEvent ι → Option (ι × List UInt8 × List UInt8)
  | .execute target cdb dataOut _ => some (target, cdb, dataOut)
  | .newCdb => none

def calls (s : Ncr53c94 ι ω) : List (ι × List UInt8 × List UInt8) := s.log.filterMap eventCall

/-- An IDENTIFY message has its top bit set. -/
abbrev Identify := { message : UInt8 // message &&& 0x80 ≠ 0 }

/-- How a host selects: the IDENTIFY message that goes with ATN, and whether the
    bytes come by DMA. -/
structure Selection where
  identify : Option Identify
  dma : Bool

namespace Selection

/-- The bytes of the message-out and command phases. -/
def bytes (selection : Selection) (cdb : List UInt8) : List UInt8 :=
  match selection.identify with
  | some message => message.val :: cdb
  | none => cdb

/-- Select with ATN, or without. -/
def command (selection : Selection) : UInt8 :=
  match selection.identify, selection.dma with
  | some _, false => 0x42
  | none, false => 0x41
  | some _, true => 0xc2
  | none, true => 0xc1

end Selection

/-- The accesses that select a target with a CDB. -/
def selectWith (selection : Selection) (id : Fin 8) (cdb : List UInt8) : List Access :=
  let bytes := selection.bytes cdb
  .writeRegister 4 (UInt8.ofNat id.val) ::
    if selection.dma then
      [.writeRegister 0 (UInt8.ofNat bytes.length), .writeRegister 1 (UInt8.ofNat (bytes.length >>> 8)),
       .writeRegister 0xe (UInt8.ofNat (bytes.length >>> 16)), .writeRegister 3 selection.command] ++
      bytes.map .writeDmaByte
    else bytes.map (.writeRegister 2) ++ [.writeRegister 3 selection.command]

section
variable [ScsiTarget ι ω]

/-- The host follows the phase: it takes data in blocks of the counts `reads`, or
    sends the payload in blocks of the counts `sends`. -/
def carry (overread : List UInt8 → Nat → List UInt8) (s : Ncr53c94 ι ω) (payload : List UInt8)
    (sends reads : List Nat) : Ncr53c94 ι ω :=
  if s.dataIn then (s.receiveBlocks overread reads).2 else s.sendBlocks overread sends payload

/-- Selects a target with a CDB and carries the data phase. -/
def deliver (overread : List UInt8 → Nat → List UInt8) (s : Ncr53c94 ι ω) (selection : Selection)
    (id : Fin 8) (cdb payload : List UInt8) (sends reads : List Nat) : Ncr53c94 ι ω :=
  (run (access overread) s (selectWith selection id cdb)).carry overread payload sends reads

/-! ## A begun CDB -/

omit [ScsiTarget ι ω] in
/-- The CDB has begun on the target: its data-out phase waits for the first
    byte, or the target has been called. -/
structure Begun (s : Ncr53c94 ι ω) (target : ι) (cdb : List UInt8)
    (calls : List (ι × List UInt8 × List UInt8)) : Prop where
  commandPhase : s.commandPhase = false
  attached : s.targets s.targetId = some target
  begun : s.cdb = cdb
  waiting : isDataOut (byteAt cdb 0) = true →
    s.dataOutPhase = true ∧ s.dataIn = false ∧ s.dataOut = [] ∧ s.calls = calls
  called : isDataOut (byteAt cdb 0) = false →
    s.dataOutPhase = false ∧ s.calls = calls ++ [(target, cdb, [])]

theorem startCdb_begun {t : Ncr53c94 ι ω} (hc : t.commandPhase = false) {target : ι}
    (ht : t.targets t.targetId = some target) :
    Begun (t.startCdb target) target t.cdb t.calls := by
  by_cases ho : isDataOut (byteAt t.cdb 0) = true
  · have hF := startCdb_filling hc ht ho
    refine ⟨hF.commandPhase, hF.target, ?_, fun _ => ⟨hF.dataOutPhase, hF.dataIn, hF.dataOut, ?_⟩,
      fun h => absurd (ho.symm.trans h) (by decide)⟩
    · simp [startCdb, ho, raiseInterrupt]
    · simp [startCdb, ho, raiseInterrupt, calls]
  · have ho' : isDataOut (byteAt t.cdb 0) = false := by simpa using ho
    refine ⟨?_, ?_, ?_, fun h => absurd h ho, fun _ => ⟨?_, ?_⟩⟩
    all_goals simp [startCdb, ho', raiseInterrupt, callTarget, record, hc, ht, calls, eventCall]

omit [ScsiTarget ι ω] in
/-- Neither a command phase nor a data-out phase is active, and `log` is what happened. -/
structure Quiet (s : Ncr53c94 ι ω) (log : List (CdbEvent ι)) : Prop where
  dataOutPhase : s.dataOutPhase = false
  commandPhase : s.commandPhase = false
  log : s.log = log

/-- Reading data calls no target. -/
theorem readDmaByte_quiet {s : Ncr53c94 ι ω} {log : List (CdbEvent ι)} (h : Quiet s log) :
    Quiet s.readDmaByte.2 log := by
  have hdone (u : Ncr53c94 ι ω) (hu : Quiet u log) : Quiet u.completeTransfer log := by
    unfold completeTransfer
    simp only [hu.commandPhase, hu.dataOutPhase, Bool.false_eq_true, if_false]
    exact ⟨rfl, rfl, hu.log⟩
  unfold readDmaByte
  simp only
  split_ifs
  · exact hdone _ ⟨h.1, h.2, h.3⟩
  · exact ⟨h.1, h.2, h.3⟩
  · exact ⟨h.1, h.2, h.3⟩
  · exact hdone _ ⟨h.1, h.2, h.3⟩
  · exact ⟨h.1, h.2, h.3⟩
  · exact ⟨h.1, h.2, h.3⟩

theorem receive_inv {I : Ncr53c94 ι ω → Prop} (hread : ∀ s, I s → I s.readDmaByte.2) (n : Nat) :
    ∀ s : Ncr53c94 ι ω, I s → I (s.receive n).2 := by
  induction n with
  | zero => intro s h; exact h
  | succ n ih => intro s h; exact ih _ (hread s h)

theorem receiveBlocks_inv (overread : List UInt8 → Nat → List UInt8) {I : Ncr53c94 ι ω → Prop}
    (hread : ∀ s, I s → I s.readDmaByte.2)
    (hstart : ∀ s count, 0 < count ∧ count < 2 ^ 24 → I s →
      I (run (access overread) s (startBlock count)))
    (counts : List Nat) :
    ∀ s : Ncr53c94 ι ω, I s → Programmable counts → I (s.receiveBlocks overread counts).2 := by
  induction counts with
  | nil => intro s h _; exact h
  | cons count counts ih =>
    intro s h hok
    have hblock := receive_inv hread count _ (hstart s count (hok count (List.mem_cons_self ..)) h)
    exact ih _ hblock fun c hc => hok c (List.mem_cons_of_mem _ hc)

/-- The calls that a begun CDB ends in. -/
def begunCalls (target : ι) (cdb payload : List UInt8) (sends : List Nat) :
    List (ι × List UInt8 × List UInt8) :=
  if isDataOut (byteAt cdb 0) then
    match sends with
    | [] => []
    | count :: _ => [(target, cdb, payload.take count)]
  else [(target, cdb, [])]

/-- **A begun CDB.**  Without a data-out phase the target has been called already;
    otherwise it is called with the first block. -/
theorem Begun.carry_calls (overread : List UInt8 → Nat → List UInt8) {s : Ncr53c94 ι ω} {target : ι}
    {cdb : List UInt8} {calls : List (ι × List UInt8 × List UInt8)} (h : Begun s target cdb calls)
    {payload : List UInt8} {sends reads : List Nat} (hs : Programmable sends)
    (hr : Programmable reads) (hsum : sends.sum = payload.length) :
    (s.carry overread payload sends reads).calls = calls ++ begunCalls target cdb payload sends := by
  unfold carry begunCalls
  by_cases ho : isDataOut (byteAt cdb 0) = true
  · obtain ⟨h1, h2, h3, h4⟩ := h.waiting ho
    rw [h2, if_neg (by simp), if_pos ho]
    rcases sends with _ | ⟨count, sends⟩
    · simpa [sendBlocks] using h4
    · have hF : Filling s s target [] := ⟨h2, h1, h.commandPhase, h.attached, rfl, h3, rfl, rfl⟩
      have hE := sendBlocks_log overread hF hs (by rw [← hsum, List.sum_cons]; omega)
      unfold Ncr53c94.calls
      rw [hE.log, List.filterMap_append, ← h4, ← h.begun]
      rfl
  · have ho' : isDataOut (byteAt cdb 0) = false := by simpa using ho
    obtain ⟨h1, h2⟩ := h.called ho'
    have hQ : Quiet s s.log := ⟨h1, h.commandPhase, rfl⟩
    rw [if_neg ho, ← h2]
    by_cases hin : s.dataIn = true
    · rw [if_pos hin]
      have hQ' := receiveBlocks_inv overread (I := fun u => Quiet u s.log)
        (fun u hu => readDmaByte_quiet hu) (fun u count hok hu => by
          obtain ⟨registers, commands, status, hrun⟩ := startBlock_eq overread hu.commandPhase hok.1 hok.2
          rw [hrun]; exact ⟨hu.1, hu.2, hu.3⟩) reads s hQ hr
      unfold Ncr53c94.calls
      rw [hQ'.log]
    · rw [if_neg hin]
      have hE := sendBlocks_ended overread sends s payload
        ⟨by simpa using hin, h1, h.commandPhase, rfl⟩ hs
      unfold Ncr53c94.calls
      rw [hE.log]

/-! ## Selection from the FIFO -/

theorem run_writeFifo (overread : List UInt8 → Nat → List UInt8) (bytes : List UInt8) :
    ∀ s : Ncr53c94 ι ω, s.commandPhase = false → s.fifo.length + bytes.length ≤ 16 →
      run (access overread) s (bytes.map (.writeRegister 2)) = { s with fifo := s.fifo ++ bytes } := by
  induction bytes with
  | nil => intro s _ _; simp
  | cons value bytes ih =>
    intro s hc hlen
    rw [List.length_cons] at hlen
    have hw : access overread s (.writeRegister 2 value) = { s with fifo := s.fifo ++ [value] } := by
      have hroom : s.fifo.length < 16 := by omega
      show s.writeRegister overread 2 value = _
      have hi : ((2 : UInt8) &&& 15).toNat = 2 := by decide
      unfold writeRegister
      simp only [hi, if_pos hroom, hc, Bool.false_eq_true, false_and, if_false]
    have hrest := ih { s with fifo := s.fifo ++ [value] } hc
      (by rw [List.length_append, List.length_singleton]; omega)
    rw [List.map_cons, run_cons, hw, hrest, List.append_assoc, List.singleton_append]

omit [ScsiTarget ι ω] in
theorem targetId_eq (id : Fin 8) : Fin.ofNat 8 (UInt8.ofNat id.val &&& 7).toNat = id := by
  revert id; decide

omit [ScsiTarget ι ω] in
/-- A chip between two commands. -/
structure Idle (s : Ncr53c94 ι ω) : Prop where
  fifo : s.fifo = []
  commandPhase : s.commandPhase = false
  dataIn : s.dataIn = false

/-- The register write that names the target. -/
theorem writeRegister_targetId (overread : List UInt8 → Nat → List UInt8) (s : Ncr53c94 ι ω)
    (id : Fin 8) :
    access overread s (.writeRegister 4 (UInt8.ofNat id.val)) = { s with targetId := id } := by
  have hi : ((4 : UInt8) &&& 15).toNat = 4 := by decide
  show s.writeRegister overread 4 _ = _
  unfold writeRegister
  simp only [hi, targetId_eq]

/-- A FIFO that still holds something after the identify filter begins a CDB, cut
    at the length its first byte asks for. -/
theorem selectTarget_begun {s : Ncr53c94 ι ω} (hc : s.commandPhase = false) {target : ι}
    (ht : s.selectableTarget = some target) {fifo : List UInt8} (hf : stripIdentify s.fifo = fifo)
    (hne : fifo ≠ []) :
    Begun s.selectTarget target (fifo.take (commandLength (byteAt fifo 0))) s.calls := by
  obtain ⟨front, rest, rfl⟩ := List.exists_cons_of_ne_nil hne
  have hattached : s.targets s.targetId = some target := (Option.filter_eq_some_iff.1 ht).1
  set cdb := (front :: rest).take (commandLength front) with hcdb
  obtain ⟨u, hu⟩ : ∃ u : Ncr53c94 ι ω, u = { s with
    cdb := cdb
    fifo := (front :: rest).drop (commandLength front)
    log := s.log ++ [.newCdb] } := ⟨_, rfl⟩
  have hs : s.selectTarget = u.startCdb target := by
    have ht' : ({ s with
        cdb := [], fifo := front :: rest, log := s.log ++ [.newCdb] } : Ncr53c94 ι ω).selectableTarget =
        some target := ht
    unfold selectTarget
    simp only [ht, hf, record, if_neg hne]
    unfold executeCdb
    rw [ht']
    simp only [← List.take_eq_take_min, ← List.drop_eq_drop_min, hu, hcdb]
  have hcalls : u.calls = s.calls := by
    rw [hu]; unfold calls
    rw [List.filterMap_append]
    exact List.append_nil _
  have hB : Begun (u.startCdb target) target u.cdb u.calls :=
    startCdb_begun (by rw [hu]; exact hc) (by rw [hu]; exact hattached)
  have hucdb : u.cdb = cdb := by rw [hu]
  rw [hs, ← hcalls]
  rw [hucdb] at hB
  exact hB

/-- The register write that starts a selection. -/
theorem writeRegister_select (overread : List UInt8 → Nat → List UInt8) (s : Ncr53c94 ι ω)
    (selection : Selection) :
    access overread s (.writeRegister 3 selection.command) =
      { s with
        registers := Function.update s.registers ((3 : UInt8) &&& 15) selection.command
        controllerCommandCounts :=
          increment s.controllerCommandCounts (selection.command &&& 0x7f) }.select selection.dma := by
  have hi : ((3 : UInt8) &&& 15).toNat = 3 := by decide
  have hcommand : (selection.command &&& 0x7f).toNat = 0x41 ∨ (selection.command &&& 0x7f).toNat = 0x42 := by
    obtain ⟨_ | _, _ | _⟩ := selection <;> simp [Selection.command]
  have hdma : decide (selection.command &&& 0x80 ≠ 0) = selection.dma := by
    have hbit : selection.command &&& 0x80 ≠ 0 ↔ selection.dma = true := by
      obtain ⟨_ | _, _ | _⟩ := selection <;> simp only [Selection.command] <;> decide
    rw [Bool.eq_iff_iff, decide_eq_true_iff]
    exact hbit
  show s.writeRegister overread 3 _ = _
  unfold writeRegister
  simp only [hi, setRegister]
  unfold executeCommand
  rcases hcommand with hc | hc
  · simp only [hc, hdma]; rfl
  · simp only [hc, hdma]; rfl

/-- **Selection from the FIFO.** -/
theorem selectFifo_begun (overread : List UInt8 → Nat → List UInt8) {s : Ncr53c94 ι ω} (h : Idle s)
    {id : Fin 8} {target : ι} (ht : s.targets id = some target)
    (hsel : ScsiTarget.selectable s.world target) {selection : Selection} (hd : selection.dma = false)
    {cdb fifo : List UInt8} (hlen : (selection.bytes cdb).length ≤ 16)
    (hf : stripIdentify (selection.bytes cdb) = fifo) (hne : fifo ≠ []) :
    Begun (run (access overread) s (selectWith selection id cdb)) target
      (fifo.take (commandLength (byteAt fifo 0))) s.calls := by
  set bytes := selection.bytes cdb with hbytes
  obtain ⟨u, hu⟩ : ∃ u : Ncr53c94 ι ω, u = { s with
    targetId := id
    fifo := bytes
    registers := Function.update s.registers ((3 : UInt8) &&& 15) selection.command
    controllerCommandCounts :=
      increment s.controllerCommandCounts (selection.command &&& 0x7f) } := ⟨_, rfl⟩
  have hrun : run (access overread) s (selectWith selection id cdb) = u.selectTarget := by
    have hwrite := run_writeFifo overread bytes { s with targetId := id } h.commandPhase
      (by rw [h.fifo, List.length_nil, Nat.zero_add]; exact hlen)
    rw [selectWith, run_cons, writeRegister_targetId, hd, if_neg (by simp), ← hbytes, run_append, hwrite,
      h.fifo, List.nil_append, run_cons, run_nil, writeRegister_select, hu]
    unfold select
    rw [hd]
    rfl
  have htarget : u.selectableTarget = some target := by
    unfold selectableTarget
    rw [hu]
    simp only [ht]
    exact Option.filter_eq_some_iff.2 ⟨rfl, hsel⟩
  have hcalls : u.calls = s.calls := by rw [hu]; rfl
  rw [hrun, ← hcalls]
  exact selectTarget_begun (by rw [hu]; exact h.commandPhase) htarget (by rw [hu]; exact hf) hne

/-! ## Selection by DMA -/

omit [ScsiTarget ι ω] in
theorem commandLength_pos (opcode : UInt8) : 0 < commandLength opcode := by
  unfold commandLength; simp only; split_ifs <;> decide

/-- The target is selected and the CDB comes in byte by byte; nothing has been called. -/
structure Collecting (s : Ncr53c94 ι ω) (target : ι) (cdb : List UInt8)
    (calls : List (ι × List UInt8 × List UInt8)) : Prop where
  commandPhase : s.commandPhase = true
  fifo : s.fifo = []
  selected : s.selectableTarget = some target
  collected : s.cdb = cdb
  calls : s.calls = calls

/-- The command bytes reach `consumeCommandFifo` one at a time. -/
theorem consumeCommandFifo_one {s : Ncr53c94 ι ω} (hc : s.commandPhase = true) (hf : s.fifo = [])
    (value : UInt8) :
    (if s.fifo.length < 16 then { s with fifo := s.fifo ++ [value] } else s).consumeCommandFifo =
      if s.cdb = [] ∧ value &&& 0x80 ≠ 0 then s
      else if commandLength (byteAt (s.cdb ++ [value]) 0) ≤ (s.cdb ++ [value]).length then
        { s with cdb := s.cdb ++ [value], commandPhase := false }.executeCdb
      else { s with cdb := s.cdb ++ [value] } := by
  have hsame : { s with fifo := [] } = s := by rw [← hf]
  have hs : (if s.fifo.length < 16 then { s with fifo := s.fifo ++ [value] } else s).consumeCommandFifo =
      { s with fifo := [value] }.consumeBytes [value] := by
    rw [hf, if_pos (by decide)]
    unfold consumeCommandFifo
    simp only [hc, if_true, List.nil_append]
  rw [hs]
  simp only [consumeBytes]
  split_ifs with hdrop hfull
  · exact hsame
  · rw [← hf]
  · rw [← hf]

/-- What the end of the count changes while command bytes come in. -/
theorem writeDmaByte_command {s : Ncr53c94 ι ω} (hc : s.commandPhase = true) (value : UInt8) :
    ∃ (count : Nat) (dma : Bool) (status interrupt : UInt8),
      s.writeDmaByte value =
        { (if s.fifo.length < 16 then { s with fifo := s.fifo ++ [value] } else s).consumeCommandFifo with
          transferCount := count, dmaActive := dma, status := status, interruptStatus := interrupt } := by
  unfold writeDmaByte
  simp only [hc, if_true]
  split_ifs
  all_goals exact ⟨_, _, _, _, rfl⟩

/-- A command byte by DMA: an identify message is dropped, the last byte begins
    the CDB. -/
theorem writeDmaByte_collecting {s : Ncr53c94 ι ω} {target : ι} {cdb : List UInt8}
    {calls : List (ι × List UInt8 × List UInt8)} (h : Collecting s target cdb calls) (value : UInt8) :
    if cdb = [] ∧ value &&& 0x80 ≠ 0 then Collecting (s.writeDmaByte value) target cdb calls
    else if commandLength (byteAt (cdb ++ [value]) 0) ≤ (cdb ++ [value]).length then
      Begun (s.writeDmaByte value) target (cdb ++ [value]) calls
    else Collecting (s.writeDmaByte value) target (cdb ++ [value]) calls := by
  obtain ⟨count, dma, status, interrupt, he⟩ := writeDmaByte_command h.commandPhase value
  rw [he, consumeCommandFifo_one h.commandPhase h.fifo value, h.collected]
  split_ifs with hdrop hfull
  · exact ⟨h.1, h.2, h.3, h.4, h.5⟩
  · obtain ⟨u, hu⟩ : ∃ u : Ncr53c94 ι ω, u = { s with
      cdb := cdb ++ [value], commandPhase := false } := ⟨_, rfl⟩
    have hsel : u.selectableTarget = some target := by rw [hu]; exact h.selected
    have hexecute : u.executeCdb = u.startCdb target := by
      obtain ⟨front, rest, hcons⟩ := List.exists_cons_of_ne_nil (show cdb ++ [value] ≠ [] by simp)
      have hcdb : u.cdb = front :: rest := by rw [hu]; exact hcons
      unfold executeCdb
      rw [hsel, hcdb]
    have hB := startCdb_begun (t := u) (by rw [hu]) (Option.filter_eq_some_iff.1 hsel).1
    have hcdb : u.cdb = cdb ++ [value] := by rw [hu]
    have hcalls : u.calls = calls := by rw [hu]; exact h.calls
    rw [hcdb, hcalls] at hB
    rw [← hu, hexecute]
    exact ⟨hB.1, hB.2, hB.3, hB.4, hB.5⟩
  · exact ⟨h.1, h.2, h.3, rfl, h.5⟩

/-- The bytes of a CDB whose first byte is not taken for an identify message. -/
theorem sendBytes_begun {target : ι} {calls : List (ι × List UInt8 × List UInt8)}
    (rest : List UInt8) :
    ∀ (s : Ncr53c94 ι ω) (cdb : List UInt8), Collecting s target cdb calls → rest ≠ [] →
      byteAt (cdb ++ rest) 0 &&& 0x80 = 0 →
      (cdb ++ rest).length = commandLength (byteAt (cdb ++ rest) 0) →
      Begun (rest.foldl writeDmaByte s) target (cdb ++ rest) calls := by
  induction rest with
  | nil => intro s cdb _ hne; exact absurd rfl hne
  | cons value rest ih =>
    intro s cdb h _ hbit hlen
    have h0 : byteAt (cdb ++ value :: rest) 0 = byteAt (cdb ++ [value]) 0 := by
      rw [List.append_cons cdb value rest]; exact byteAt_append (by simp) rest
    have hkeep : ¬ (cdb = [] ∧ value &&& 0x80 ≠ 0) := by
      rintro ⟨rfl, hv⟩
      exact hv (by simpa [byteAt] using hbit)
    have hw := writeDmaByte_collecting h value
    rw [if_neg hkeep] at hw
    rw [List.foldl_cons]
    rw [h0] at hlen
    rcases rest with _ | ⟨next, rest⟩
    · rw [if_pos (Nat.le_of_eq hlen.symm)] at hw
      exact hw
    · rw [if_neg (by rw [← hlen]; simp)] at hw
      have hih := ih _ _ hw (by simp) (by rw [List.append_assoc]; exact hbit) (by
        rw [List.append_assoc, List.singleton_append, h0]; exact hlen)
      rw [List.append_assoc, List.singleton_append] at hih
      exact hih

/-- After a DMA select the command bytes come in. -/
theorem selectDma_collecting (overread : List UInt8 → Nat → List UInt8) {s : Ncr53c94 ι ω}
    (h : Idle s) {id : Fin 8} {target : ι} (ht : s.targets id = some target)
    (hsel : ScsiTarget.selectable s.world target) {selection : Selection} (hd : selection.dma = true)
    (cdb : List UInt8) :
    ∃ u : Ncr53c94 ι ω, Collecting u target [] s.calls ∧ u.dataIn = false ∧
      run (access overread) s (selectWith selection id cdb) =
        (selection.bytes cdb).foldl writeDmaByte u := by
  set bytes := selection.bytes cdb with hbytes
  obtain ⟨start, hcount⟩ : ∃ start, run (access overread) { s with targetId := id }
      [.writeRegister 0 (UInt8.ofNat bytes.length), .writeRegister 1 (UInt8.ofNat (bytes.length >>> 8)),
        .writeRegister 0xe (UInt8.ofNat (bytes.length >>> 16))] =
      { s with targetId := id, startTransferCount := start } := ⟨_, rfl⟩
  obtain ⟨u, hu⟩ : ∃ u : Ncr53c94 ι ω, u = { s with
    targetId := id
    startTransferCount := start
    registers := Function.update s.registers ((3 : UInt8) &&& 15) selection.command
    controllerCommandCounts :=
      increment s.controllerCommandCounts (selection.command &&& 0x7f) } := ⟨_, rfl⟩
  have hrun : run (access overread) s (selectWith selection id cdb) =
      bytes.foldl writeDmaByte (u.select true) := by
    have hmap : ∀ (bytes : List UInt8) (v : Ncr53c94 ι ω),
        run (access overread) v (bytes.map .writeDmaByte) = bytes.foldl writeDmaByte v := by
      intro bytes v; rw [run, List.foldl_map]; rfl
    rw [selectWith, run_cons, writeRegister_targetId, hd, if_pos rfl, ← hbytes, run_append, hmap]
    rw [show ∀ a b c d : Access, [a, b, c, d] = [a, b, c] ++ [d] from fun _ _ _ _ => rfl, run_append,
      hcount, run_cons, run_nil, writeRegister_select, hd, hu]
  have htarget : u.selectableTarget = some target := by
    unfold selectableTarget
    rw [hu]
    simp only [ht]
    exact Option.filter_eq_some_iff.2 ⟨rfl, hsel⟩
  have hselect : u.select true = { u with
      cdb := [], fifo := [], commandPhase := true, sequenceStep := 2,
      status := (u.status &&& 0xf8) ||| 2, log := u.log ++ [.newCdb],
      transferCount := u.programmedCount, dmaActive := true } := by
    have hfifo : stripIdentify u.fifo = [] := by rw [hu]; simp only [h.fifo, stripIdentify]
    have hs : u.selectTarget = { u with
        cdb := [], fifo := [], commandPhase := true, sequenceStep := 2,
        status := (u.status &&& 0xf8) ||| 2, log := u.log ++ [.newCdb] } := by
      unfold selectTarget
      simp only [htarget, hfifo, if_true, record]
    unfold select
    rw [hs]
    simp only [and_self, if_true]
    rfl
  have hcalls : u.calls = s.calls := by rw [hu]; rfl
  refine ⟨u.select true, ?_, ?_, hrun⟩
  · rw [hselect, ← hcalls]
    refine ⟨rfl, rfl, htarget, rfl, ?_⟩
    unfold Ncr53c94.calls
    rw [List.filterMap_append]
    exact List.append_nil _
  · rw [hselect, hu]
    exact h.dataIn

/-! ## The identify filter -/

/-- The FIFO is empty, and neither the CDB nor any call since `calls` has bit 7
    of the first byte set. -/
structure Filtered (s : Ncr53c94 ι ω) (calls : List (ι × List UInt8 × List UInt8)) : Prop where
  fifo : s.fifo = []
  filtered : byteAt s.cdb 0 &&& 0x80 = 0
  calls : ∃ more, s.calls = calls ++ more ∧ ∀ c ∈ more, byteAt c.2.1 0 &&& 0x80 = 0

omit [ScsiTarget ι ω] in
/-- A call with the current CDB. -/
theorem Filtered.call {s u : Ncr53c94 ι ω} {calls : List (ι × List UInt8 × List UInt8)}
    (h : Filtered s calls) (target : ι) (dataOut : List UInt8) (hf : u.fifo = []) (hc : u.cdb = s.cdb)
    (hcalls : u.calls = s.calls ++ [(target, s.cdb, dataOut)]) : Filtered u calls := by
  obtain ⟨more, hmore, hall⟩ := h.calls
  refine ⟨hf, by rw [hc]; exact h.filtered, more ++ [(target, s.cdb, dataOut)], ?_, ?_⟩
  · rw [hcalls, hmore, List.append_assoc]
  · intro c hc
    rcases List.mem_append.1 hc with hc | hc
    · exact hall c hc
    · rw [List.mem_singleton.1 hc]; exact h.filtered

theorem startCdb_filtered {s : Ncr53c94 ι ω} {calls : List (ι × List UInt8 × List UInt8)}
    (h : Filtered s calls) (target : ι) : Filtered (s.startCdb target) calls := by
  by_cases ho : isDataOut (byteAt s.cdb 0) = true
  · have hcdb : (s.startCdb target).cdb = s.cdb := by simp [startCdb, ho, raiseInterrupt]
    have hcalls : (s.startCdb target).calls = s.calls := by
      simp [startCdb, ho, raiseInterrupt, Ncr53c94.calls]
    refine ⟨?_, by rw [hcdb]; exact h.filtered, by rw [hcalls]; exact h.calls⟩
    simp [startCdb, ho, raiseInterrupt, h.fifo]
  · have ho' : isDataOut (byteAt s.cdb 0) = false := by simpa using ho
    refine h.call target [] ?_ ?_ ?_
    · simp [startCdb, ho', raiseInterrupt, callTarget, record, h.fifo]
    · simp [startCdb, ho', raiseInterrupt, callTarget, record]
    · simp [startCdb, ho', raiseInterrupt, callTarget, record, Ncr53c94.calls, eventCall]

theorem executeCdb_filtered {s : Ncr53c94 ι ω} {calls : List (ι × List UInt8 × List UInt8)}
    (h : Filtered s calls) : Filtered s.executeCdb calls := by
  unfold executeCdb
  cases ht : s.selectableTarget with
  | none => exact ⟨rfl, h.2, h.3⟩
  | some target =>
    simp only [h.fifo]
    split
    · exact h
    · rename_i hf; exact absurd hf (by simp)
    · exact startCdb_filtered h target

theorem completeTransfer_filtered {s : Ncr53c94 ι ω} {calls : List (ι × List UInt8 × List UInt8)}
    (h : Filtered s calls) : Filtered s.completeTransfer calls := by
  have hcomplete : s.fifoComplete = false := by simp [fifoComplete, h.fifo]
  unfold completeTransfer
  simp only
  by_cases hc : s.commandPhase = true
  · rw [if_pos hc, if_neg (show ¬ (fifoComplete _ = true) by
      show ¬ (s.fifoComplete = true); rw [hcomplete]; decide)]
    exact ⟨h.1, h.2, h.3⟩
  · rw [if_neg hc]
    by_cases hd : s.dataOutPhase = true
    · simp only [hd, if_true]
      cases ht : s.targets s.targetId with
      | none => exact ⟨h.1, h.2, h.3⟩
      | some target =>
        refine h.call target s.dataOut h.fifo rfl ?_
        simp [raiseInterrupt, callTarget, record, Ncr53c94.calls, eventCall]
    · simp only [if_neg hd]
      exact ⟨h.1, h.2, h.3⟩

/-- Bytes by DMA, in any phase. -/
theorem writeDmaByte_filtered {calls : List (ι × List UInt8 × List UInt8)} (s : Ncr53c94 ι ω)
    (value : UInt8) (h : Filtered s calls) : Filtered (s.writeDmaByte value) calls := by
  by_cases hc : s.commandPhase = true
  · obtain ⟨count, dma, status, interrupt, he⟩ := writeDmaByte_command hc value
    rw [he, consumeCommandFifo_one hc h.fifo value]
    have hbit : ¬ (s.cdb = [] ∧ value &&& 0x80 ≠ 0) → byteAt (s.cdb ++ [value]) 0 &&& 0x80 = 0 := by
      intro hkeep
      by_cases hnil : s.cdb = []
      · have hv : value &&& 0x80 = 0 := by
          by_contra hv; exact hkeep ⟨hnil, hv⟩
        rw [hnil]; exact hv
      · rw [byteAt_append (List.length_pos_iff.2 hnil)]; exact h.filtered
    split_ifs with hdrop hfull
    · exact ⟨h.1, h.2, h.3⟩
    · have hF : Filtered { s with cdb := s.cdb ++ [value], commandPhase := false } calls :=
        ⟨h.1, hbit hdrop, h.3⟩
      have he := executeCdb_filtered hF
      exact ⟨he.1, he.2, he.3⟩
    · exact ⟨h.1, hbit hdrop, h.3⟩
  · have hc' : s.commandPhase = false := by simpa using hc
    unfold writeDmaByte
    simp only [hc', Bool.false_eq_true, if_false]
    split_ifs
    · exact ⟨h.1, h.2, h.3⟩
    · exact completeTransfer_filtered ⟨h.1, h.2, h.3⟩

theorem readDmaByte_filtered {calls : List (ι × List UInt8 × List UInt8)} (s : Ncr53c94 ι ω)
    (h : Filtered s calls) : Filtered s.readDmaByte.2 calls := by
  unfold readDmaByte
  simp only
  split_ifs
  · exact completeTransfer_filtered ⟨h.1, h.2, h.3⟩
  · exact ⟨h.1, h.2, h.3⟩
  · exact ⟨h.1, h.2, h.3⟩
  · exact completeTransfer_filtered ⟨h.1, h.2, h.3⟩
  · exact ⟨h.1, h.2, h.3⟩
  · exact ⟨h.1, h.2, h.3⟩

/-- A DMA Transfer Information touches neither the FIFO nor the CDB. -/
theorem startBlock_filtered (overread : List UInt8 → Nat → List UInt8)
    {calls : List (ι × List UInt8 × List UInt8)} (s : Ncr53c94 ι ω) (count : Nat)
    (hcount : 0 < count ∧ count < 2 ^ 24) (h : Filtered s calls) :
    Filtered (run (access overread) s (startBlock count)) calls := by
  rw [startBlock, run_cons, run_cons, run_cons, run_cons, run_nil]
  simp only [access]
  rw [writeRegister_count overread s hcount.2]
  have htransfer : ∀ u : Ncr53c94 ι ω, Filtered u calls → Filtered (u.transferInformation overread true) calls := by
    intro u hu
    unfold transferInformation
    rw [if_neg (by simp), if_neg (by simp)]
    simp only [if_true, true_and]
    split_ifs
    · exact ⟨hu.1, hu.2, hu.3⟩
    · exact ⟨hu.1, hu.2, hu.3⟩
  exact htransfer _ ⟨h.1, h.2, h.3⟩

/-! ## Delivery -/

/-- What the NCR53C94 needs to deliver a CDB and a payload: its own length rule is
    right, its identify filter is satisfied before the CDB, and a data-out phase
    of one block is started exactly when there is a payload. -/
structure Deliverable (selection : Selection) (cdb payload : List UInt8) (sends : List Nat) : Prop where
  length : byteAt cdb 0 ≠ 0xd8 ∧ byteAt cdb 0 ≠ 0xd9
  identify : byteAt cdb 0 &&& 0x80 ≠ 0 → selection.identify.isSome ∧ selection.dma = false
  dataOut : if isDataOut (byteAt cdb 0) then sends.length = 1 else payload = []

omit [ScsiTarget ι ω] in
/-- Both controllers measure a CDB by the group of its opcode, the NCR5380 with
    two exceptions. -/
theorem commandLength_eq (opcode : UInt8) :
    commandLength opcode = Ncr5380.expectedCommandLength opcode ↔ opcode ≠ 0xd8 ∧ opcode ≠ 0xd9 := by
  unfold commandLength Ncr5380.expectedCommandLength
  by_cases hop : opcode = 0xd8 ∨ opcode = 0xd9
  · rcases hop with rfl | rfl <;> decide
  · simp only [if_neg hop, true_iff]
    exact not_or.1 hop

omit [ScsiTarget ι ω] in
/-- The exceptions are cut short. -/
theorem commandLength_le (opcode : UInt8) :
    commandLength opcode ≤ Ncr5380.expectedCommandLength opcode := by
  unfold commandLength Ncr5380.expectedCommandLength
  simp only
  split_ifs <;> decide

omit [ScsiTarget ι ω] in
theorem expectedCommandLength_ge (opcode : UInt8) : 6 ≤ Ncr5380.expectedCommandLength opcode := by
  unfold Ncr5380.expectedCommandLength
  simp only
  split_ifs <;> decide

omit [ScsiTarget ι ω] in
theorem expectedCommandLength_le (opcode : UInt8) : Ncr5380.expectedCommandLength opcode ≤ 12 := by
  unfold Ncr5380.expectedCommandLength
  simp only
  split_ifs <;> decide

omit [ScsiTarget ι ω] in
/-- Another CDB is another command. -/
theorem begunCalls_ne {target : ι} {cdb cdb' payload payload' : List UInt8} {sends : List Nat}
    (hne : cdb' ≠ cdb) : begunCalls target cdb' payload sends ≠ [(target, cdb, payload')] := by
  unfold begunCalls
  intro h
  split_ifs at h
  · split at h
    · exact absurd h (by simp)
    · simp only [List.cons.injEq, Prod.mk.injEq] at h; exact hne h.1.2.1
  · simp only [List.cons.injEq, Prod.mk.injEq] at h; exact hne h.1.2.1

omit [ScsiTarget ι ω] in
/-- The payload arrives whole: in one block, or there is none. -/
theorem begunCalls_eq_iff {target : ι} {cdb payload : List UInt8} {sends : List Nat}
    (hs : Programmable sends) (hsum : sends.sum = payload.length) :
    begunCalls target cdb payload sends = [(target, cdb, payload)] ↔
      if isDataOut (byteAt cdb 0) then sends.length = 1 else payload = [] := by
  unfold begunCalls
  split_ifs
  · rcases sends with _ | ⟨count, rest⟩
    · simp
    · rw [List.sum_cons] at hsum
      simp only [List.cons.injEq, Prod.mk.injEq, true_and, and_true, List.length_cons]
      rw [List.take_eq_self_iff]
      constructor
      · intro hle
        rcases rest with _ | ⟨next, rest⟩
        · rfl
        · have hpos := (hs next (by simp)).1
          rw [List.sum_cons] at hsum
          omega
      · intro hlen
        have hrest : rest = [] := List.length_eq_zero_iff.1 (by omega)
        rw [hrest] at hsum
        simp at hsum
        omega
  · simp [eq_comm]

omit [ScsiTarget ι ω] in
/-- What is left in the FIFO after the identify filter. -/
theorem stripIdentify_bytes (selection : Selection) {cdb : List UInt8} (hne : cdb ≠ []) :
    stripIdentify (selection.bytes cdb) =
      if byteAt cdb 0 &&& 0x80 ≠ 0 ∧ selection.identify = none then cdb.tail else cdb := by
  obtain ⟨front, rest, rfl⟩ := List.exists_cons_of_ne_nil hne
  obtain ⟨_ | message, dma⟩ := selection
  · simp [Selection.bytes, stripIdentify, byteAt]
  · simp [Selection.bytes, stripIdentify, message.2]

/-- **Delivery.**  For every CDB of the length of its opcode and every payload,
    the target is called with exactly these iff they are deliverable. -/
theorem deliver_calls_iff (overread : List UInt8 → Nat → List UInt8) {s : Ncr53c94 ι ω} (h : Idle s)
    {id : Fin 8} {target : ι} (ht : s.targets id = some target)
    (hsel : ScsiTarget.selectable s.world target) (selection : Selection) {cdb payload : List UInt8}
    (hcdb : cdb.length = Ncr5380.expectedCommandLength (byteAt cdb 0)) {sends reads : List Nat}
    (hs : Programmable sends) (hr : Programmable reads) (hsum : sends.sum = payload.length)
    (hnone : byteAt cdb 0 &&& 0x80 ≠ 0 → payload = []) :
    (s.deliver overread selection id cdb payload sends reads).calls =
        s.calls ++ [(target, cdb, payload)] ↔ Deliverable selection cdb payload sends := by
  have hne : cdb ≠ [] := by
    rintro rfl
    exact absurd hcdb (by decide)
  have hle := expectedCommandLength_le (byteAt cdb 0)
  have hbytes : (selection.bytes cdb).length ≤ 16 := by
    unfold Selection.bytes
    split
    · rw [List.length_cons]; omega
    · omega
  unfold deliver
  by_cases hbit : byteAt cdb 0 &&& 0x80 = 0
  · -- the first byte passes both filters
    have hlen : commandLength (byteAt cdb 0) = cdb.length := by
      rw [hcdb, commandLength_eq]
      constructor <;> intro hop <;> rw [hop] at hbit <;> exact absurd hbit (by decide)
    have hB : Begun (run (access overread) s (selectWith selection id cdb)) target cdb s.calls := by
      by_cases hd : selection.dma = true
      · obtain ⟨u, hu, -, hrun⟩ := selectDma_collecting overread h ht hsel hd cdb
        rw [hrun]
        obtain ⟨_ | message, dma⟩ := selection
        · exact sendBytes_begun cdb u [] hu hne hbit hlen.symm
        · have hdrop := writeDmaByte_collecting hu message.val
          rw [if_pos ⟨rfl, message.2⟩] at hdrop
          exact sendBytes_begun cdb _ [] hdrop hne hbit hlen.symm
      · have hfifo := stripIdentify_bytes selection hne
        rw [if_neg (fun hc => hc.1 hbit)] at hfifo
        have hB := selectFifo_begun overread h ht hsel (by simpa using hd) hbytes hfifo hne
        rw [hlen, List.take_length] at hB
        exact hB
    rw [hB.carry_calls overread hs hr hsum, List.append_cancel_left_eq, begunCalls_eq_iff hs hsum]
    refine ⟨fun hout => ⟨?_, fun hc => absurd hbit hc, hout⟩, fun hD => hD.dataOut⟩
    rw [← commandLength_eq, hlen, hcdb]
  · by_cases hd : selection.dma = true
    · -- by DMA the first byte is dropped wherever it stands
      refine ⟨fun hcalls => ?_, fun hD => ?_⟩
      · exfalso
        obtain ⟨u, hu, hin, hrun⟩ := selectDma_collecting overread h ht hsel hd cdb
        have hF : Filtered u s.calls := ⟨hu.fifo, by rw [hu.collected]; decide, [], by
          rw [List.append_nil]; exact hu.calls, by simp⟩
        have hF' : Filtered ((selection.bytes cdb).foldl writeDmaByte u) s.calls :=
          run_inv (I := fun v => Filtered v s.calls) writeDmaByte_filtered hF _
        have hsends : sends = [] := by
          rw [hnone hbit, List.length_nil] at hsum
          rcases sends with _ | ⟨count, sends⟩
          · rfl
          · have hpos := (hs count (List.mem_cons_self ..)).1
            rw [List.sum_cons] at hsum
            omega
        have hF'' : Filtered (((selection.bytes cdb).foldl writeDmaByte u).carry overread payload sends
            reads) s.calls := by
          unfold carry
          split_ifs
          · exact receiveBlocks_inv overread (I := fun v => Filtered v s.calls) readDmaByte_filtered
              (startBlock_filtered overread) reads _ hF' hr
          · rw [hsends]; exact hF'
        rw [hrun] at hcalls
        obtain ⟨more, hmore, hall⟩ := hF''.calls
        rw [hcalls, List.append_cancel_left_eq] at hmore
        exact hbit (hall _ (by rw [← hmore]; exact List.mem_singleton_self _))
      · exact absurd (hD.identify hbit).2 (by rw [hd]; decide)
    · have hd' : selection.dma = false := by simpa using hd
      have hfifo := stripIdentify_bytes selection hne
      by_cases hatn : selection.identify = none
      · -- without ATN the first byte is taken for the message
        rw [if_pos ⟨hbit, hatn⟩] at hfifo
        have htail : cdb.tail.length < cdb.length := by
          rw [List.length_tail]
          have := List.length_pos_iff.2 hne
          omega
        have hne' : cdb.tail ≠ [] := by
          intro hnil
          have hpos := expectedCommandLength_ge (byteAt cdb 0)
          have := congrArg List.length hnil
          rw [List.length_tail, List.length_nil] at this
          omega
        have hB := selectFifo_begun overread h ht hsel hd' hbytes hfifo hne'
        rw [hB.carry_calls overread hs hr hsum, List.append_cancel_left_eq]
        refine ⟨fun hcalls => absurd hcalls (begunCalls_ne ?_), fun hD => ?_⟩
        · intro heq
          have := congrArg List.length heq
          rw [List.length_take] at this
          omega
        · exact absurd (hD.identify hbit).1 (by rw [hatn]; decide)
      · rw [if_neg (fun hc => hatn hc.2)] at hfifo
        have hB := selectFifo_begun overread h ht hsel hd' hbytes hfifo hne
        rw [hB.carry_calls overread hs hr hsum, List.append_cancel_left_eq]
        by_cases hop : byteAt cdb 0 ≠ 0xd8 ∧ byteAt cdb 0 ≠ 0xd9
        · rw [(commandLength_eq _).2 hop, ← hcdb, List.take_length, begunCalls_eq_iff hs hsum]
          exact ⟨fun hout => ⟨hop, fun _ => ⟨Option.isSome_iff_ne_none.2 hatn, hd'⟩, hout⟩,
            fun hD => hD.dataOut⟩
        · refine ⟨fun hcalls => absurd hcalls (begunCalls_ne ?_), fun hD => absurd hD.length hop⟩
          intro heq
          have := congrArg List.length heq
          have hlt := commandLength_le (byteAt cdb 0)
          have hcut : commandLength (byteAt cdb 0) ≠ Ncr5380.expectedCommandLength (byteAt cdb 0) :=
            fun hc => hop ((commandLength_eq _).1 hc)
          rw [List.length_take] at this
          omega

end

end Ncr53c94

end CuteMac.Scsi
