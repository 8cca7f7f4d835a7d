/-
  The data-out bytes that the NCR5380 hands to a target.

  * `encodedLength`: the length that a WRITE or MODE SELECT encodes in its CDB;
  * `ExactTransfers`: every such call of a target got exactly that many bytes;
  * `Surplus`: an access that adds to a transfer which is already complete and
    only waits for DMA mode to be cleared;
  * `dataOut_exact`: runs without surplus accesses have exact transfers.
-/
import CuteMac.Scsi.Ncr5380.Steps

namespace CuteMac.Scsi

namespace Ncr5380

open Machine

variable {ι ω : Type}

/-! ## Encoded lengths -/

/-- The data-out length that the CDB of WRITE(6), WRITE(10), MODE SELECT(6) or
    MODE SELECT(10) encodes. -/
def encodedLength (cdb : List UInt8) : Option Nat :=
  let opcode := byteAt cdb 0
  if opcode = 0x0a then some (sixByteBlocks (byteAt cdb 4) * 512)
  else if opcode = 0x2a then some (be16At cdb 7 * 512)
  else if opcode = 0x15 then some (byteAt cdb 4).toNat
  else if opcode = 0x55 then some (be16At cdb 7)
  else none

/-- The CDB has at least the bytes its opcode asks for. -/
def Collected (cdb : List UInt8) : Prop := expectedCommandLength (byteAt cdb 0) ≤ cdb.length

theorem Collected.length_pos {cdb : List UInt8} (h : Collected cdb) : 0 < cdb.length :=
  Nat.lt_of_lt_of_le (expectedCommandLength_pos _) h

theorem Collected.append {cdb : List UInt8} (h : Collected cdb) (value : UInt8) :
    Collected (cdb ++ [value]) := by
  have hpos := h.length_pos
  unfold Collected at h ⊢
  rw [byteAt_append hpos, List.length_append]; omega

/-- Bytes after a collected CDB do not change what it encodes. -/
theorem Collected.encodedLength_append {cdb : List UInt8} (h : Collected cdb) (value : UInt8) :
    encodedLength (cdb ++ [value]) = encodedLength cdb := by
  have hpos := h.length_pos
  unfold Collected at h
  unfold encodedLength
  simp only [byteAt_append hpos]
  split_ifs with h1 h2 h3 h4
  · have hl : 6 ≤ cdb.length := by rw [h1] at h; exact h
    rw [byteAt_append (by omega)]
  · have hl : 10 ≤ cdb.length := by rw [h2] at h; exact h
    rw [be16At, be16At, byteAt_append (by omega), byteAt_append (by omega)]
  · have hl : 6 ≤ cdb.length := by rw [h3] at h; exact h
    rw [byteAt_append (by omega)]
  · have hl : 10 ≤ cdb.length := by rw [h4] at h; exact h
    rw [be16At, be16At, byteAt_append (by omega), byteAt_append (by omega)]
  · rfl

/-- A collected command starts a data-out phase of the length it encodes, and
    none when that is zero. -/
theorem Collected.dataOutLength_eq {cdb : List UInt8} (h : Collected cdb) {n : Nat}
    (hn : encodedLength cdb = some n) : dataOutLength cdb = if n = 0 then none else some n := by
  unfold Collected at h
  unfold encodedLength at hn
  simp only at hn
  split_ifs at hn with h1 h2 h3 h4 <;> cases hn
  · have hl : 6 ≤ cdb.length := by rw [h1] at h; exact h
    have hpos := sixByteBlocks_pos (byteAt cdb 4)
    rw [if_neg (by omega)]; simp [dataOutLength, h1, hl]
  · have hl : 10 ≤ cdb.length := by rw [h2] at h; exact h
    by_cases h0 : be16At cdb 7 = 0 <;> simp [dataOutLength, h2, hl, h0]
  · have hl : 6 ≤ cdb.length := by rw [h3] at h; exact h
    by_cases h0 : byteAt cdb 4 = 0
    · simp [dataOutLength, h3, h0]
    · have hpos := toNat_pos_of_ne h0
      rw [if_neg (by omega)]; simp [dataOutLength, h3, hl, h0]
  · have hl : 10 ≤ cdb.length := by rw [h4] at h; exact h
    by_cases h0 : be16At cdb 7 = 0 <;> simp [dataOutLength, h4, hl, h0]

/-! ## The invariant -/

/-- A call of a target gets the data-out bytes that its CDB encodes. -/
def ExactEvent : BusEvent ι → Prop
  | .execute _ cdb dataOut _ =>
    encodedLength cdb = none ∨ encodedLength cdb = some dataOut.length
  | _ => True

instance : DecidablePred (ExactEvent : BusEvent ι → Prop)
  | .execute _ cdb dataOut _ =>
    inferInstanceAs (Decidable (encodedLength cdb = none ∨ encodedLength cdb = some dataOut.length))
  | .select _ | .phase _ | .accept _ | .reset => inferInstanceAs (Decidable True)

/-- Every call of a target so far got the data-out bytes that its CDB encodes. -/
def ExactTransfers (log : List (BusEvent ι)) : Prop := ∀ e ∈ log, ExactEvent e

theorem ExactTransfers.snoc {log : List (BusEvent ι)} (h : ExactTransfers log) {e : BusEvent ι}
    (he : ExactEvent e) : ExactTransfers (log ++ [e]) := by
  intro e' he'
  rcases List.mem_append.1 he' with he' | he'
  · exact h e' he'
  · rw [List.mem_singleton.1 he']; exact he

/-- The transfer of the current command is exact so far.  Up to `k` bytes more
    than the last expected one may have arrived before that is looked at. -/
structure ExactWithin (k : Nat) (s : Ncr5380 ι ω) : Prop where
  log : ExactTransfers s.log
  ready : s.commandReady → Collected s.command
  dma : s.dataOutCompletionPending → s.registers 2 &&& modeDma ≠ 0
  pending : s.dataOutCompletionPending → Collected s.command ∧
    ∀ n, encodedLength s.command = some n → s.dataOut.length = n
  dataOut : s.phase = .dataOut → Collected s.command ∧
    ∀ n, encodedLength s.command = some n →
      s.expectedDataOut = n ∧ (!s.dataOutCompletionPending → s.dataOut.length < n + k)

abbrev Exact (s : Ncr5380 ι ω) : Prop := ExactWithin 0 s

theorem initial_exact (targets : Fin 8 → Option ι) (world : ω) : Exact (initial targets world) := by
  constructor <;> simp [initial, ExactTransfers]

theorem reset_exact {s : Ncr5380 ι ω} (h : Exact s) : Exact s.reset := by
  refine ⟨h.log.snoc trivial, ?_, ?_, ?_, ?_⟩ <;> simp [reset]

theorem setPhase_exact {s : Ncr5380 ι ω} {k : Nat} (h : ExactWithin k s) {p : Phase}
    (hp : p ≠ .dataOut) (r : Bool) : Exact (s.setPhase p r) := by
  by_cases hb : p = .busFree
  · subst hb
    refine ⟨h.log.snoc (e := .phase .busFree) trivial, ?_, ?_, ?_, ?_⟩ <;>
      simp [setPhase, record]
  · rw [setPhase_ne hb]
    exact ⟨h.log.snoc trivial, h.ready, h.dma, h.pending, fun hd => absurd hd hp⟩

section
variable [ScsiTarget ι ω]

/-! ## Executing a command -/

/-- A command that runs at once encodes no data-out bytes. -/
theorem runCommand_exact {s : Ncr5380 ι ω} (h : ExactTransfers s.log)
    (hp : !s.dataOutCompletionPending) (hr : !s.commandReady) (hc : Collected s.command)
    (hn : dataOutLength s.command = none) (target : ι) : Exact (s.runCommand target) := by
  obtain ⟨h1, -, -, h4, -, h6, -, h8⟩ := runCommand_fields s target
  have hexact : ExactEvent (.execute target s.command []
      (ScsiTarget.executeCommand s.world target s.command []).1) := by
    cases he : encodedLength s.command with
    | none => exact Or.inl he
    | some n =>
      rw [hc.dataOutLength_eq he] at hn
      have h0 : n = 0 := by by_contra h0; simp [h0] at hn
      exact Or.inr (by rw [he, h0]; rfl)
  generalize s.runCommand target = s' at *
  have hph : s'.phase ≠ .dataOut := by rw [h1]; split_ifs <;> decide
  have hp' : ¬ s'.dataOutCompletionPending := by rw [h4]; simpa using hp
  have hr' : ¬ s'.commandReady := by rw [h6]; simpa using hr
  refine ⟨?_, fun hc => absurd hc hr', fun hc => absurd hc hp', fun hc => absurd hc hp',
    fun hc => absurd hc hph⟩
  rw [h8, List.append_cons]
  exact (h.snoc hexact).snoc trivial

theorem executeCommand_exact {s : Ncr5380 ι ω} (h : Exact s) (hp : !s.dataOutCompletionPending)
    (hr : !s.commandReady) (hc : Collected s.command) : Exact s.executeCommand := by
  cases ht : s.activeTarget with
  | none =>
    have h' : Exact { s with status := 0x02, message := 0x00 } := ⟨h.1, h.2, h.3, h.4, h.5⟩
    have he : s.executeCommand = { s with status := 0x02, message := 0x00 }.setPhase .status := by
      unfold executeCommand; rw [ht]
    rw [he]; exact setPhase_exact h' (by decide) true
  | some target =>
    rcases executeCommand_eq ht with ⟨n, hn, he⟩ | ⟨hn, m, he⟩
    · have hpos := dataOutLength_pos hn
      rw [he, beginDataOut, setPhase_ne (by decide)]
      refine ⟨h.log.snoc trivial, h.ready, h.dma, fun hpend => ?_, fun _ => ⟨hc, fun k hk => ?_⟩⟩
      · simp_all
      · rw [hc.dataOutLength_eq hk] at hn
        have hkn : k = n := by
          by_cases h0 : k = 0 <;> simp [h0] at hn; exact hn
        subst hkn
        exact ⟨rfl, fun _ => hpos⟩
    · have hlog : ExactTransfers { s with dataOut := [], expectedDataOut := m }.log := h.log
      rw [he]; exact runCommand_exact hlog hp hr hc hn target

/-- The target of a complete data-out phase gets all bytes at once. -/
theorem completeDataOutCommand_exact {s : Ncr5380 ι ω} {k : Nat} (h : ExactWithin k s)
    (hp : !s.dataOutCompletionPending)
    (hlen : ∀ n, encodedLength s.command = some n → s.dataOut.length = n) :
    Exact s.completeDataOutCommand := by
  cases ht : s.activeTarget with
  | none =>
    have h' : ExactWithin k (s.finishCommand {} s.dataOut.length) := ⟨h.1, h.2, h.3, h.4, h.5⟩
    simp only [completeDataOutCommand, ht]
    exact setPhase_exact h' (by decide) true
  | some target =>
    obtain ⟨h1, -, -, h4, -, h6, h7, h8⟩ := completeDataOutCommand_fields ht
    have hexact : ExactEvent (.execute target s.command s.dataOut
        (ScsiTarget.executeCommand s.world target s.command s.dataOut).1) := by
      cases he : encodedLength s.command with
      | none => exact Or.inl he
      | some n => exact Or.inr (by rw [he, hlen n he])
    generalize s.completeDataOutCommand = s' at *
    have hp' : ¬ s'.dataOutCompletionPending := by rw [h4]; simpa using hp
    refine ⟨?_, fun hr => ?_, fun hc => absurd hc hp', fun hc => absurd hc hp', fun hc => ?_⟩
    · rw [h8, List.append_cons]
      exact (h.log.snoc hexact).snoc trivial
    · rw [h7]; exact h.ready (by rw [h6] at hr; exact hr)
    · rw [h1] at hc; exact absurd hc (by decide)

theorem dataOutArrived_exact {s : Ncr5380 ι ω} {k : Nat} (h : ExactWithin k s)
    (hp : s.phase = .dataOut)
    (hlen : ∀ n, encodedLength s.command = some n → s.dataOut.length = n) :
    Exact s.dataOutArrived := by
  unfold dataOutArrived
  split_ifs with hdma
  · obtain ⟨hc, hout⟩ := h.dataOut hp
    refine ⟨h.log, h.ready, fun _ => hdma, fun _ => ⟨hc, hlen⟩, fun _ => ⟨hc, fun n hn => ?_⟩⟩
    exact ⟨(hout n hn).1, fun hpend => absurd hpend (by simp)⟩
  · refine completeDataOutCommand_exact h ?_ hlen
    by_contra hc
    exact hdma (h.dma (by simpa using hc))

/-- The end of the phase is looked for after every byte, so no byte comes after it. -/
theorem finishDataPhaseIfDone_exact {s : Ncr5380 ι ω} (h : ExactWithin 1 s)
    (hp : s.phase = .dataOut) : Exact s.finishDataPhaseIfDone := by
  obtain ⟨hc, hout⟩ := h.dataOut hp
  rcases finishDataPhaseIfDone_dataOut hp with ⟨m, he, hm⟩ | ⟨he, hlen⟩
  · rw [he]
    refine ⟨h.log, h.ready, h.dma, h.pending, fun _ => ⟨hc, fun n hn => ?_⟩⟩
    have hop : byteAt s.command 0 ≠ 0x04 := by
      intro hop
      simp [encodedLength, hop] at hn
    obtain ⟨h1, h2⟩ := hm hop
    obtain ⟨h3, -⟩ := hout n hn
    exact ⟨h1.trans h3, fun _ => by rw [← h3]; exact h2⟩
  · rw [he]
    refine dataOutArrived_exact h hp fun n hn => ?_
    obtain ⟨h1, h2⟩ := hout n hn
    by_cases hpend : s.dataOutCompletionPending
    · exact (h.pending hpend).2 n hn
    · have := h2 (by simpa using hpend)
      omega

/-! ## Register accesses -/

omit [ScsiTarget ι ω] in
theorem ExactWithin.mono {s : Ncr5380 ι ω} (h : Exact s) : ExactWithin 1 s :=
  ⟨h.1, h.2, h.3, h.4, fun hp => ⟨(h.5 hp).1, fun n hn =>
    ⟨((h.5 hp).2 n hn).1, fun hpend => Nat.lt_succ_of_lt (((h.5 hp).2 n hn).2 hpend)⟩⟩⟩

omit [ScsiTarget ι ω] in
theorem acceptCommandByte_exact {s : Ncr5380 ι ω} (h : Exact s) (hp : s.phase = .command)
    (value : UInt8) : Exact (s.acceptCommandByte value) := by
  have hlog : ExactTransfers (s.log ++ [.accept value]) := h.log.snoc trivial
  have hpend : s.dataOutCompletionPending → Collected (s.command ++ [value]) ∧
      ∀ n, encodedLength (s.command ++ [value]) = some n → s.dataOut.length = n := fun hc => by
    obtain ⟨h1, h2⟩ := h.pending hc
    exact ⟨h1.append value, fun n hn => h2 n (by rwa [h1.encodedLength_append] at hn)⟩
  unfold acceptCommandByte record
  simp only
  split_ifs with hfull
  · exact ⟨hlog, fun _ => hfull, h.dma, hpend, fun hc => absurd (hp.symm.trans hc) (by decide)⟩
  · exact ⟨hlog, fun hr => (h.ready hr).append value, h.dma, hpend,
      fun hc => absurd (hp.symm.trans hc) (by decide)⟩

theorem dropAck_exact {s : Ncr5380 ι ω} (h : Exact s)
    (hok : ¬ (s.dataOutCompletionPending ∧ s.commandReady)) : Exact s.dropAck := by
  unfold dropAck
  split_ifs with h1 h2 h3 h4 h5 h6 h7 h8
  · have h' : Exact { s with commandReady := false } :=
      ⟨h.1, fun hc => absurd hc (by simp), h.3, h.4, h.5⟩
    exact executeCommand_exact h' (by simpa [h2] using hok) rfl (h.ready h2)
  · exact ⟨h.1, h.2, h.3, h.4, h.5⟩
  · exact h
  · exact setPhase_exact h (by decide) true
  · exact ⟨h.1, h.2, h.3, h.4, h.5⟩
  · have hf := finishDataPhaseIfDone_exact h.mono h6
    simp only
    split_ifs
    · exact ⟨hf.1, hf.2, hf.3, hf.4, hf.5⟩
    · exact hf
  · exact setPhase_exact h (by decide) true
  · exact setPhase_exact h (by decide) false
  · exact h

theorem driveSelect_exact {s : Ncr5380 ι ω} (h : Exact s) (previous value : UInt8) :
    Exact (s.driveSelect previous value) ∧
      (s.driveSelect previous value).dataOutCompletionPending = s.dataOutCompletionPending ∧
      (s.driveSelect previous value).commandReady = s.commandReady ∧
      (s.driveSelect previous value).previousAck = s.previousAck := by
  have hselect : Exact s.assertSelect ∧
      s.assertSelect.dataOutCompletionPending = s.dataOutCompletionPending ∧
      s.assertSelect.commandReady = s.commandReady ∧
      s.assertSelect.previousAck = s.previousAck := by
    unfold assertSelect
    split
    · exact ⟨h, rfl, rfl, rfl⟩
    · simp only
      split
      · exact ⟨⟨h.log.snoc trivial, h.2, h.3, h.4, h.5⟩, rfl, rfl, rfl⟩
      · exact ⟨⟨h.1, h.2, h.3, h.4, h.5⟩, rfl, rfl, rfl⟩
  have hrelease (u : Ncr5380 ι ω) (hu : Exact u) : Exact (u.setPhase .command) ∧
      (u.setPhase .command).dataOutCompletionPending = u.dataOutCompletionPending ∧
      (u.setPhase .command).commandReady = u.commandReady ∧
      (u.setPhase .command).previousAck = u.previousAck := by
    refine ⟨setPhase_exact hu (by decide) true, ?_, ?_, ?_⟩ <;> rw [setPhase_ne (by decide)]
  unfold driveSelect
  simp only
  split_ifs with h1 h2 h3
  · obtain ⟨h4, h5, h6, h7⟩ := hrelease _ hselect.1
    exact ⟨h4, h5.trans hselect.2.1, h6.trans hselect.2.2.1, h7.trans hselect.2.2.2⟩
  · exact hselect
  · exact hrelease s h
  · exact ⟨h, rfl, rfl, rfl⟩

/-- More is sent to a command whose data-out bytes are complete and whose
    completion is pending: a DACK byte while the target requests, or the last
    byte of yet another CDB. -/
def Surplus (s : Ncr5380 ι ω) : Access → Prop
  | .write registerIndex dack value =>
    s.dataOutCompletionPending ∧
      (dack ∧ s.request ∨
        !dack ∧ (registerIndex &&& 0x07).toNat = 1 ∧ value &&& icrAssertReset = 0 ∧
          value &&& icrAssertAck = 0 ∧ s.previousAck ∧ s.commandReady)
  | .read _ _ => False

instance (s : Ncr5380 ι ω) : DecidablePred (Surplus s)
  | .write registerIndex dack value =>
    inferInstanceAs (Decidable (s.dataOutCompletionPending ∧
      (dack ∧ s.request ∨
        !dack ∧ (registerIndex &&& 0x07).toNat = 1 ∧ value &&& icrAssertReset = 0 ∧
          value &&& icrAssertAck = 0 ∧ s.previousAck ∧ s.commandReady)))
  | .read _ _ => inferInstanceAs (Decidable False)

omit [ScsiTarget ι ω] in
/-- In the data-out phase one more byte arrives; elsewhere nothing does. -/
theorem writeDataByte_exact {s : Ncr5380 ι ω} (h : Exact s) (hpend : ¬ s.dataOutCompletionPending)
    (value : UInt8) :
    ((s.writeDataByte value).phase = .dataOut → ExactWithin 1 (s.writeDataByte value)) ∧
      ((s.writeDataByte value).phase ≠ .dataOut → s.writeDataByte value = s) := by
  unfold writeDataByte
  split_ifs with hp
  · exact ⟨fun hc => absurd hc hp, fun _ => rfl⟩
  · rw [not_not] at hp
    refine ⟨fun _ => ⟨h.1, h.2, h.3, fun hc => absurd hc hpend, fun _ => ?_⟩, fun hc => absurd hp hc⟩
    obtain ⟨h1, h2⟩ := h.dataOut hp
    refine ⟨h1, fun n hn => ⟨(h2 n hn).1, fun hc => ?_⟩⟩
    have := (h2 n hn).2 hc
    rw [List.length_append, List.length_singleton]
    omega

theorem writeDack_exact {s : Ncr5380 ι ω} (h : Exact s) {value : UInt8}
    (hok : ¬ (s.dataOutCompletionPending ∧ s.request)) : Exact (s.writeDack value) := by
  unfold writeDack
  by_cases hreq : s.request
  · have hpend : ¬ s.dataOutCompletionPending := fun hc => hok ⟨hc, hreq⟩
    obtain ⟨hdata, hsame⟩ := writeDataByte_exact h hpend value
    have hwreq : (s.writeDataByte value).request = true := by
      unfold writeDataByte; split_ifs <;> exact hreq
    simp only [hreq, Bool.not_true, Bool.false_eq_true, if_false, hwreq, and_true]
    split_ifs with hp hready hd hn
    · have ha := acceptCommandByte_exact h hp value
      have hpend' : (s.acceptCommandByte value).dataOutCompletionPending =
          s.dataOutCompletionPending := by
        unfold acceptCommandByte; simp only; split_ifs <;> rfl
      generalize s.acceptCommandByte value = u at *
      have h' : Exact { u with commandReady := false } :=
        ⟨ha.1, fun hc => absurd hc (by simp), ha.3, ha.4, ha.5⟩
      refine executeCommand_exact h' ?_ rfl (ha.ready hready)
      show !u.dataOutCompletionPending
      rw [hpend']; simpa using hpend
    · have ha := acceptCommandByte_exact h hp value
      exact ⟨ha.1, ha.2, ha.3, ha.4, ha.5⟩
    · have hw := hdata hd
      have hw' : ExactWithin 1 { s.writeDataByte value with request := false } :=
        ⟨hw.1, hw.2, hw.3, hw.4, hw.5⟩
      have hf := finishDataPhaseIfDone_exact hw' hd
      exact ⟨hf.1, hf.2, hf.3, hf.4, hf.5⟩
    · have hw := hdata hd
      have hw' : ExactWithin 1 { s.writeDataByte value with request := false } :=
        ⟨hw.1, hw.2, hw.3, hw.4, hw.5⟩
      exact finishDataPhaseIfDone_exact hw' hd
    · rw [hsame hd]; exact h
  · simpa [hreq] using h

omit [ScsiTarget ι ω] in
/-- Writing a register other than the mode register changes no transfer. -/
theorem setRegister_exact {s : Ncr5380 ι ω} (h : Exact s) {index : Fin 8} (hi : index ≠ 2)
    (value : UInt8) : Exact (s.setRegister index value) := by
  refine ⟨h.1, h.2, fun hc => ?_, h.4, h.5⟩
  simp only [setRegister, Function.update_of_ne hi.symm]
  exact h.dma hc

theorem writeInitiatorCommand_exact {s : Ncr5380 ι ω} (h : Exact s) {value : UInt8}
    (hok : value &&& icrAssertReset = 0 → value &&& icrAssertAck = 0 → s.previousAck →
      ¬ (s.dataOutCompletionPending ∧ s.commandReady)) : Exact (s.writeInitiatorCommand value) := by
  have h0 := setRegister_exact h (show (1 : Fin 8) ≠ 2 by decide) value
  unfold writeInitiatorCommand
  simp only
  split_ifs with hr
  · exact reset_exact h0
  · obtain ⟨h1, h2, h3, h4⟩ := driveSelect_exact h0 (s.registers 1) value
    generalize (s.setRegister 1 value).driveSelect (s.registers 1) value = u at *
    unfold driveAck
    simp only
    split_ifs with hup hdown
    · have hu : Exact (u.raiseAck value) := by
        unfold raiseAck
        split_ifs with hp hq
        · exact acceptCommandByte_exact h1 hp.1 u.outputData
        · exact ⟨h1.1, h1.2, h1.3, h1.4, h1.5⟩
        · exact h1
      exact ⟨hu.1, hu.2, hu.3, hu.4, hu.5⟩
    · simp only [Bool.and_eq_true, Bool.not_eq_true', bne_eq_false_iff_eq] at hdown
      have hu := dropAck_exact h1 (by
        rw [h2, h3]
        exact hok (by simpa using hr) hdown.1 (h4.symm.trans hdown.2))
      exact ⟨hu.1, hu.2, hu.3, hu.4, hu.5⟩
    · exact ⟨h1.1, h1.2, h1.3, h1.4, h1.5⟩

theorem completeDataOutCommand_pending (s : Ncr5380 ι ω) :
    s.completeDataOutCommand.dataOutCompletionPending = s.dataOutCompletionPending := by
  cases ht : s.activeTarget with
  | none => simp [completeDataOutCommand, ht, setPhase_ne, finishCommand, trace]
  | some target =>
    obtain ⟨-, -, -, h4, -⟩ := completeDataOutCommand_fields ht
    exact h4

theorem writeMode_exact {s : Ncr5380 ι ω} (h : Exact s) (value : UInt8) :
    Exact (s.writeMode value) := by
  unfold writeMode
  simp only
  split_ifs with hdone
  · obtain ⟨-, hlen⟩ := h.pending hdone.2.2
    have h' : ExactWithin 1 { s with dataOutCompletionPending := false } := by
      refine ⟨h.1, h.2, fun hc => absurd hc (by simp), fun hc => absurd hc (by simp), fun hp => ?_⟩
      obtain ⟨h1, h2⟩ := h.dataOut hp
      refine ⟨h1, fun n hn => ⟨(h2 n hn).1, fun _ => ?_⟩⟩
      have : s.dataOut.length = n := hlen n hn
      exact Nat.lt_succ_of_le (Nat.le_of_eq this)
    have hc := completeDataOutCommand_exact h' rfl hlen
    have hpend := completeDataOutCommand_pending { s with dataOutCompletionPending := false }
    exact ⟨hc.1, hc.2, fun hp => absurd (hpend.symm.trans hp) (by simp), hc.4, hc.5⟩
  · refine ⟨h.1, h.2, fun hc => ?_, h.4, h.5⟩
    have hdma := h.dma hc
    intro hv
    simp only [setRegister, Function.update_self] at hv
    exact hdone ⟨hdma, hv, hc⟩

omit [ScsiTarget ι ω] in
theorem readDataByte_exact {s : Ncr5380 ι ω} (h : Exact s) : Exact s.readDataByte.2 := by
  unfold readDataByte
  split
  · split_ifs
    · exact ⟨h.1, h.2, h.3, h.4, h.5⟩
    · exact h
  all_goals exact h

omit [ScsiTarget ι ω] in
theorem readRegister_exact {s : Ncr5380 ι ω} (h : Exact s) (registerIndex : UInt8) (dack : Bool) :
    Exact (s.readRegister registerIndex dack).2 := by
  have hread := readDataByte_exact h
  have hstatus : Exact s.reassertRequest := by
    unfold reassertRequest
    split_ifs
    · exact ⟨h.1, h.2, h.3, h.4, h.5⟩
    · exact h
  cases dack with
  | false =>
    simp only [readRegister, Bool.false_eq_true, if_false]
    split
    · exact hread
    · exact h
    · exact h
    · exact h
    · exact hstatus
    · exact hstatus
    · exact h
    · exact h
  | true =>
    simp only [readRegister, if_true]
    split_ifs with h1 h2 h3
    · exact h
    · have hread' : Exact { s.readDataByte.2 with request := false } :=
        ⟨hread.1, hread.2, hread.3, hread.4, hread.5⟩
      exact setPhase_exact hread' (show Phase.status ≠ .dataOut by decide) true
    · exact ⟨hread.1, hread.2, hread.3, hread.4, hread.5⟩
    · exact hread

theorem access_exact (s : Ncr5380 ι ω) (a : Access) (hok : ¬ Surplus s a) (h : Exact s) :
    Exact (access s a) := by
  rcases a with ⟨registerIndex, dack⟩ | ⟨registerIndex, dack, value⟩
  · exact readRegister_exact h registerIndex dack
  · cases dack with
    | true =>
      exact writeDack_exact h fun hc => hok ⟨hc.1, Or.inl ⟨rfl, hc.2⟩⟩
    | false =>
      simp only [access, writeRegister, Bool.false_eq_true, if_false]
      split
      · have h' : Exact { s with outputData := value } := ⟨h.1, h.2, h.3, h.4, h.5⟩
        exact setRegister_exact h' (by decide) value
      · rename_i hindex
        refine writeInitiatorCommand_exact h fun h1 h2 h3 hc => ?_
        exact hok ⟨hc.1, Or.inr ⟨rfl, hindex, h1, h2, h3, hc.2⟩⟩
      · exact writeMode_exact h value
      · have h' : Exact { s with targetCommand := value } := ⟨h.1, h.2, h.3, h.4, h.5⟩
        exact setRegister_exact h' (by decide) value
      all_goals exact setRegister_exact h (by decide) value

/-! ## Exact transfers -/

/-- **Exact transfers.**  From reset, as long as nothing more is sent to a
    command whose completion is pending, every WRITE and MODE SELECT is called
    with exactly the data-out bytes that its CDB encodes. -/
theorem dataOut_exact {targets : Fin 8 → Option ι} {world : ω} {as : List Access}
    (hg : Guarded access (fun s a => ¬ Surplus s a) (initial targets world) as) :
    ExactTransfers (run access (initial targets world) as).log :=
  (guarded_run_inv access_exact (initial_exact targets world) hg).log

end

/-- Selection of target 0, a MODE SELECT(6) of four bytes, and the given number
    of DACK bytes in DMA mode, which is cleared at the end. -/
def modeSelect (count : Nat) : List Access :=
  [.write 0 false 0x01, .write 1 false 0x04, .write 1 false 0x00, .write 2 false 0x02,
   .write 0 true 0x15, .write 0 true 0x00, .write 0 true 0x00, .write 0 true 0x00,
   .write 0 true 0x04, .write 0 true 0x00] ++
  (List.replicate count [.write 0 true 0x00, .read 4 false]).flatten ++
  [.write 2 false 0x00]

theorem dataOut_exact_modeSelect :
    ExactTransfers (run access (initial (fun _ => some (FixedTarget.mk {})) ()) (modeSelect 4)).log :=
  dataOut_exact (by decide)

theorem modeSelect_surplus_not_exact :
    ¬ ExactTransfers
      (run access (initial (fun _ => some (FixedTarget.mk {})) ()) (modeSelect 5)).log := by
  intro h
  have he := h (.execute ⟨{}⟩ [0x15, 0, 0, 0, 4, 0] [0, 0, 0, 0, 0] {}) (by decide)
  revert he
  decide

end Ncr5380

end CuteMac.Scsi
