/-
  One command through either SCSI controller.

  * `Encodes`: the payload has the length that the CDB encodes;
  * `dmaTransfer_format`: the NCR5380 collects the parameter list of a FORMAT
    UNIT, whose length its own header gives;
  * `dmaTransfer_calls`: the NCR5380 calls the target with the CDB and the payload;
  * `sameCommand_iff`: the NCR53C94 does the same iff the command is deliverable.
-/
import CuteMac.Scsi.Ncr5380.DataOut
import CuteMac.Scsi.Ncr5380.Transfer
import CuteMac.Scsi.Ncr53c94.Select

namespace CuteMac.Scsi

variable {ι ω : Type}

namespace Ncr5380

open Machine

/-! ## Encoded payloads -/

/-- The length that the CDB of a WRITE or MODE SELECT encodes for its payload, or
    that the header of a FORMAT UNIT parameter list does. -/
def payloadLength (cdb payload : List UInt8) : Nat :=
  match encodedLength cdb with
  | some n => n
  | none =>
    if byteAt cdb 0 = 0x04 ∧ byteAt cdb 1 &&& 0x10 ≠ 0 then formatTotalLength payload else 0

/-- The payload has the encoded length. -/
def Encodes (cdb payload : List UInt8) : Prop := payload.length = payloadLength cdb payload

instance (cdb payload : List UInt8) : Decidable (Encodes cdb payload) :=
  inferInstanceAs (Decidable (payload.length = payloadLength cdb payload))

/-- What the header says is fixed once it is there. -/
theorem formatTotalLength_append {bytes : List UInt8} (h4 : 4 ≤ bytes.length)
    (h8 : byteAt bytes 1 &&& 0x08 ≠ 0 → 8 ≤ bytes.length) (more : List UInt8) :
    formatTotalLength (bytes ++ more) = formatTotalLength bytes := by
  unfold formatTotalLength be16At
  simp only [byteAt_append (show 1 < bytes.length by omega), byteAt_append (show 2 < bytes.length by omega),
    byteAt_append (show 2 + 1 < bytes.length by omega)]
  split_ifs with hip
  · have := h8 hip
    rw [byteAt_append (show 6 < bytes.length by omega), byteAt_append (show 6 + 1 < bytes.length by omega)]
  · rfl

theorem formatTotalLength_ge (bytes : List UInt8) :
    4 ≤ formatTotalLength bytes ∧ (byteAt bytes 1 &&& 0x08 ≠ 0 → 8 ≤ formatTotalLength bytes) := by
  unfold formatTotalLength
  simp only
  split_ifs with hip
  · exact ⟨by omega, fun _ => by omega⟩
  · exact ⟨by omega, fun h => absurd h hip⟩

theorem Complete.collected {cdb : List UInt8} (h : Complete cdb) : Collected cdb := Nat.le_of_eq h.symm

/-- Without a data-out phase there is no payload. -/
theorem Encodes.nil {cdb payload : List UInt8} (h : Encodes cdb payload) (hc : Complete cdb)
    (hn : dataOutLength cdb = none) : payload = [] := by
  unfold Encodes payloadLength at h
  cases he : encodedLength cdb with
  | some n =>
    rw [he] at h
    rw [hc.collected.dataOutLength_eq he] at hn
    by_cases h0 : n = 0
    · exact List.length_eq_zero_iff.1 (h.trans h0)
    · rw [if_neg h0] at hn
      exact absurd hn (by simp)
  | none =>
    rw [he] at h
    simp only at h
    split_ifs at h with hf
    · have hlen : 6 ≤ cdb.length := by
        have : cdb.length = expectedCommandLength (byteAt cdb 0) := hc
        rw [this, hf.1]; decide
      have h4 : (4 : UInt8) ≠ 0x0a ∧ (4 : UInt8) ≠ 0x2a ∧ (4 : UInt8) ≠ 0x15 ∧ (4 : UInt8) ≠ 0x55 := by decide
      simp [dataOutLength, hf, hlen, h4] at hn
    · exact List.length_eq_zero_iff.1 h

/-- A data-out phase is as long as the payload, or collects a parameter list. -/
theorem Encodes.length {cdb payload : List UInt8} (h : Encodes cdb payload) (hc : Complete cdb) {n : Nat}
    (hn : dataOutLength cdb = some n) :
    byteAt cdb 0 ≠ 0x04 ∧ payload.length = n ∨
      byteAt cdb 0 = 0x04 ∧ n = 4 ∧ payload.length = formatTotalLength payload := by
  unfold Encodes payloadLength at h
  cases he : encodedLength cdb with
  | some k =>
    rw [he] at h
    rw [hc.collected.dataOutLength_eq he] at hn
    have hop : byteAt cdb 0 ≠ 0x04 := by
      intro hop
      simp [encodedLength, hop] at he
    by_cases h0 : k = 0
    · rw [if_pos h0] at hn
      exact absurd hn (by simp)
    · rw [if_neg h0] at hn
      exact Or.inl ⟨hop, by rw [← Option.some.inj hn]; exact h⟩
  | none =>
    rw [he] at h
    simp only at h
    have hother : byteAt cdb 0 ≠ 0x0a ∧ byteAt cdb 0 ≠ 0x2a ∧ byteAt cdb 0 ≠ 0x15 ∧ byteAt cdb 0 ≠ 0x55 := by
      refine ⟨?_, ?_, ?_, ?_⟩ <;> intro hop <;> simp [encodedLength, hop] at he
    have hf : byteAt cdb 0 = 0x04 ∧ byteAt cdb 1 &&& 0x10 ≠ 0 ∧ n = 4 := by
      by_contra hf
      simp only [dataOutLength, hother, false_and, if_false] at hn
      split_ifs at hn with hf'
      exact hf ⟨hf'.1, hf'.2.2, (Option.some.inj hn).symm⟩
    rw [if_pos ⟨hf.1, hf.2.1⟩] at h
    exact Or.inr ⟨hf.1, hf.2.2, h⟩

section
variable [ScsiTarget ι ω]

/-! ## The parameter list of FORMAT UNIT -/

omit [ScsiTarget ι ω] in
/-- The data-out phase of a FORMAT UNIT by DACK that began in `s₁`; the parameter
    list will have `total` bytes. -/
structure Formatting (s₁ s : Ncr5380 ι ω) (target : ι) (received : List UInt8) (total : Nat) : Prop where
  phase : s.phase = .dataOut
  target : s.activeTarget = some target
  command : s.command = s₁.command
  format : byteAt s₁.command 0 = 0x04
  dataOut : s.dataOut = received
  expected : 4 ≤ s.expectedDataOut ∧ s.expectedDataOut ≤ total
  request : s.request ∨ s.requestReassertPending
  dma : s.registers 2 &&& modeDma ≠ 0
  calls : s.calls = s₁.calls

omit [ScsiTarget ι ω] in
theorem Formatting.requested {s₁ s : Ncr5380 ι ω} {target : ι} {received : List UInt8} {total : Nat}
    (h : Formatting s₁ s target received total) :
    Formatting s₁ s.reassertRequest target received total ∧ s.reassertRequest.request = true ∧
      s.reassertRequest.dataOutCompletionPending = s.dataOutCompletionPending := by
  rcases reassertRequest_eq h.request with he | he
  · rw [he]
    exact ⟨⟨h.1, h.2, h.3, h.4, h.5, h.6, Or.inl rfl, h.8, h.9⟩, rfl, rfl⟩
  · rw [he]
    exact ⟨⟨h.1, h.2, h.3, h.4, h.5, h.6, Or.inl rfl, h.8, h.9⟩, rfl, rfl⟩

/-- A byte of the parameter list: the expected length follows the header. -/
theorem writeDack_format {s : Ncr5380 ι ω} (hr : s.request = true) (hp : s.phase = .dataOut)
    (hop : byteAt s.command 0 = 0x04) (hdma : s.registers 2 &&& modeDma ≠ 0)
    (hpend : s.dataOutCompletionPending = false) (value : UInt8) :
    let dataOut := s.dataOut ++ [value]
    s.writeDack value =
      if s.expectedDataOut ≤ dataOut.length ∧ ¬ (byteAt dataOut 1 &&& 0x08 ≠ 0 ∧ dataOut.length < 8) ∧
          formatTotalLength dataOut ≤ dataOut.length then
        { s with dataOut := dataOut, dataOutCompletionPending := true }
      else
        { s with
          dataOut := dataOut, request := false, requestReassertPending := true,
          expectedDataOut :=
            if dataOut.length < s.expectedDataOut then s.expectedDataOut
            else if byteAt dataOut 1 &&& 0x08 ≠ 0 ∧ dataOut.length < 8 then 8
            else formatTotalLength dataOut } := by
  intro dataOut
  have hw : s.writeDataByte value = { s with dataOut := dataOut } := by
    simp [writeDataByte, hp, dataOut]
  have hne : s.command ≠ [] := by
    intro hnil
    rw [hnil] at hop
    exact absurd hop (by decide)
  clear_value dataOut
  obtain ⟨u, hu⟩ : ∃ u : Ncr5380 ι ω, u = { s with dataOut := dataOut, request := false } := ⟨_, rfl⟩
  have hdack : s.writeDack value =
      if u.finishDataPhaseIfDone.phase = .dataOut ∧ !u.finishDataPhaseIfDone.dataOutCompletionPending then
        { u.finishDataPhaseIfDone with requestReassertPending := true }
      else u.finishDataPhaseIfDone := by
    simp [writeDack, hr, hp, hw, hu]
  have hup : u.phase = .dataOut := by rw [hu]; exact hp
  have hudata : u.dataOut = dataOut := by rw [hu]
  have hfinish : u.finishDataPhaseIfDone =
      if s.expectedDataOut ≤ dataOut.length then
        if byteAt dataOut 1 &&& 0x08 ≠ 0 ∧ dataOut.length < 8 then { u with expectedDataOut := 8 }
        else if dataOut.length < formatTotalLength dataOut then
          { u with expectedDataOut := formatTotalLength dataOut }
        else { u with dataOutCompletionPending := true, request := true }
      else u := by
    have huexpected : u.expectedDataOut = s.expectedDataOut := by rw [hu]
    have hucommand : u.command ≠ [] ∧ byteAt u.command 0 = 0x04 := by rw [hu]; exact ⟨hne, hop⟩
    have harrived : u.dataOutArrived = { u with dataOutCompletionPending := true, request := true } := by
      have hudma : u.registers 2 &&& modeDma ≠ 0 := by rw [hu]; exact hdma
      unfold dataOutArrived; rw [if_pos hudma]
    unfold finishDataPhaseIfDone
    simp only [hup, hudata, huexpected, hucommand, harrived, reduceCtorEq, false_and, if_false, ne_eq,
      not_false_eq_true, true_and]
    split_ifs <;> rfl
  have hgo : u.phase = .dataOut ∧ !u.dataOutCompletionPending :=
    ⟨hup, by rw [hu]; simpa using hpend⟩
  rw [hdack, hfinish]
  by_cases hlen : s.expectedDataOut ≤ dataOut.length
  · rw [if_pos hlen]
    by_cases hheader : byteAt dataOut 1 &&& 0x08 ≠ 0 ∧ dataOut.length < 8
    · rw [if_pos hheader, if_pos hgo, if_neg (fun hc => hc.2.1 hheader), if_neg (Nat.not_lt.2 hlen),
        if_pos hheader, hu]
    · rw [if_neg hheader]
      by_cases hmore : dataOut.length < formatTotalLength dataOut
      · rw [if_pos hmore, if_pos hgo, if_neg (fun hc => Nat.not_lt.2 hc.2.2 hmore),
          if_neg (Nat.not_lt.2 hlen), if_neg hheader, hu]
      · rw [if_neg hmore, if_neg (fun hc => absurd hc.2 (by simp)),
          if_pos ⟨hlen, hheader, Nat.not_lt.1 hmore⟩, hu, ← hr]
  · rw [if_neg hlen, if_pos hgo, if_neg (fun hc => hlen hc.1), if_pos (Nat.not_le.1 hlen), hu]

/-- A DACK byte of the parameter list; the last one leaves the completion pending. -/
theorem dackOut_formatting {s₁ s : Ncr5380 ι ω} {target : ι} {received : List UInt8} {value : UInt8}
    {rest : List UInt8}
    (hformat : (received ++ value :: rest).length = formatTotalLength (received ++ value :: rest))
    (h : Formatting s₁ s target received (received ++ value :: rest).length)
    (hpend : s.dataOutCompletionPending = false) :
    Formatting s₁ (dackOut s value) target (received ++ [value]) (received ++ value :: rest).length ∧
      (dackOut s value).dataOutCompletionPending = decide (rest = []) := by
  obtain ⟨hF, hreq, hpend'⟩ := h.requested
  have hd : dackOut s value = s.reassertRequest.writeDack value := rfl
  rw [hpend] at hpend'
  generalize s.reassertRequest = u at *
  have hop : byteAt u.command 0 = 0x04 := by rw [hF.command]; exact hF.format
  rw [hd, writeDack_format hreq hF.phase hop hF.dma hpend' value, hF.dataOut]
  obtain ⟨h4, htotal⟩ := hF.expected
  set dataOut := received ++ [value] with hdataOut
  have happ : received ++ value :: rest = dataOut ++ rest := List.append_cons received value rest
  rw [happ] at hformat htotal ⊢
  have hge := formatTotalLength_ge (dataOut ++ rest)
  rw [← hformat] at hge
  have hlength : (dataOut ++ rest).length = dataOut.length + rest.length := List.length_append
  -- once the header is there it gives the length of the whole list
  have hheader : u.expectedDataOut ≤ dataOut.length → byteAt dataOut 1 = byteAt (dataOut ++ rest) 1 :=
    fun hlen => (byteAt_append (by omega) rest).symm
  have hknown : u.expectedDataOut ≤ dataOut.length → ¬ (byteAt dataOut 1 &&& 0x08 ≠ 0 ∧ dataOut.length < 8) →
      formatTotalLength dataOut = (dataOut ++ rest).length := by
    intro hlen h8
    rw [hformat]
    refine (formatTotalLength_append (by omega) (fun hip => ?_) rest).symm
    by_contra hc
    exact h8 ⟨hip, Nat.not_le.1 hc⟩
  rcases rest with _ | ⟨next, rest⟩
  · rw [List.append_nil] at hknown hformat htotal hge hheader ⊢
    have h8 : ¬ (byteAt dataOut 1 &&& 0x08 ≠ 0 ∧ dataOut.length < 8) := by
      rintro ⟨hip, hlt⟩
      exact absurd (hge.2 hip) (Nat.not_le.2 hlt)
    rw [if_pos ⟨htotal, h8, Nat.le_of_eq (hknown htotal h8)⟩]
    exact ⟨⟨hF.1, hF.2, hF.3, hF.4, rfl, ⟨h4, htotal⟩, Or.inl hreq, hF.8, hF.9⟩, rfl⟩
  · rw [List.length_cons] at hlength
    rw [if_neg (by rintro ⟨hlen, h8, hle⟩; rw [hknown hlen h8] at hle; omega)]
    refine ⟨⟨hF.1, hF.2, hF.3, hF.4, rfl, ?_, Or.inr rfl, hF.8, hF.9⟩, hpend'.trans (by simp)⟩
    simp only
    split_ifs with hlt h8
    · exact ⟨h4, htotal⟩
    · rw [hheader (Nat.not_lt.1 hlt)] at h8
      exact ⟨by omega, hge.2 h8.1⟩
    · rw [hknown (Nat.not_lt.1 hlt) h8]
      exact ⟨hge.1, Nat.le_refl _⟩

theorem foldl_dackOut_formatting {s₁ : Ncr5380 ι ω} {target : ι} (rest : List UInt8) :
    ∀ (s : Ncr5380 ι ω) (received : List UInt8),
      (received ++ rest).length = formatTotalLength (received ++ rest) →
      Formatting s₁ s target received (received ++ rest).length →
      s.dataOutCompletionPending = false → rest ≠ [] →
      Formatting s₁ (rest.foldl dackOut s) target (received ++ rest) (received ++ rest).length ∧
        (rest.foldl dackOut s).dataOutCompletionPending = true := by
  induction rest with
  | nil => intro s received _ _ _ hne; exact absurd rfl hne
  | cons value rest ih =>
    intro s received hformat h hpend _
    obtain ⟨h1, h2⟩ := dackOut_formatting hformat h hpend
    rw [List.foldl_cons]
    rcases rest with _ | ⟨next, rest⟩
    · exact ⟨h1, h2⟩
    · rw [List.append_cons received value (next :: rest)] at hformat h1 ⊢
      exact ih _ _ hformat h1 h2 (by simp)

/-! ## The calls of the NCR5380 -/

/-- Clearing DMA mode completes the command. -/
theorem writeMode_pending {s : Ncr5380 ι ω} {target : ι} (hdma : s.registers 2 &&& modeDma ≠ 0)
    (hpend : s.dataOutCompletionPending = true) (ht : s.activeTarget = some target) :
    (s.writeMode 0x00).calls = s.calls ++ [(target, s.command, s.dataOut)] := by
  have hdone : s.writeMode 0x00 =
      { s with dataOutCompletionPending := false }.completeDataOutCommand.setRegister 2 0x00 := by
    rw [writeMode, if_pos ⟨hdma, by simp, hpend⟩]
  have ht' : { s with dataOutCompletionPending := false }.activeTarget = some target := ht
  obtain ⟨-, -, -, -, -, -, -, hlog⟩ := completeDataOutCommand_fields ht'
  rw [hdone]
  unfold calls setRegister
  rw [hlog, List.filterMap_append]
  rfl

/-- **The data-out phase of a FORMAT UNIT by DACK.** -/
theorem dmaTransfer_format {s : Ncr5380 ι ω} (h : Waiting s) {target : ι}
    (ht : s.activeTarget = some target) (hr : s.request) (hop : byteAt s.command 0 = 0x04)
    (h4 : s.expectedDataOut = 4) {payload : List UInt8}
    (hlen : payload.length = formatTotalLength payload) :
    (dmaTransfer s payload).2.calls = s.calls ++ [(target, s.command, payload)] := by
  have hge := (formatTotalLength_ge payload).1
  have hne : payload ≠ [] := by
    rintro rfl
    rw [← hlen] at hge
    exact absurd hge (by decide)
  have h0 : Formatting s (s.setRegister 2 modeDma) target [] payload.length :=
    ⟨h.phase, ht, rfl, hop, h.dataOut, ⟨Nat.le_of_eq h4.symm, by
      show s.expectedDataOut ≤ _
      omega⟩, Or.inl hr, by simp [setRegister]; decide, rfl⟩
  obtain ⟨hF, hpend⟩ := foldl_dackOut_formatting payload _ [] hlen h0 h.pending hne
  have hp : (s.setRegister 2 modeDma).phase = .dataOut := h.phase
  have hd : (dmaTransfer s payload).2 =
      (payload.foldl dackOut (s.setRegister 2 modeDma)).writeMode 0x00 := by
    rw [dmaTransfer, writeMode_idle h.pending, dataPhase]
    simp only [hp]
    rw [writeRegister_two]
  rw [hd, writeMode_pending hF.dma hpend hF.target, hF.calls, hF.command, hF.dataOut, List.nil_append]

/-- The data-out phase that a collected command begins. -/
theorem executed_dataOut {s₀ t : Ncr5380 ι ω} {target : ι} {cdb : List UInt8}
    (h : Collecting s₀ t target cdb) {n : Nat} (hn : dataOutLength cdb = some n) :
    t.executeCommand.activeTarget = some target ∧ t.executeCommand.request = true ∧
      t.executeCommand.command = cdb ∧ t.executeCommand.expectedDataOut = n ∧
      t.executeCommand.calls = s₀.calls := by
  rcases executeCommand_eq h.target with ⟨m, hm, he⟩ | ⟨hn', -⟩
  · rw [h.command, hn] at hm
    rw [he, beginDataOut, setPhase_ne (by decide), ← Option.some.inj hm]
    refine ⟨h.target, rfl, h.command, rfl, ?_⟩
    have hcalls : t.log.filterMap eventCall = s₀.calls := h.calls
    show (t.log ++ [BusEvent.phase .dataOut]).filterMap eventCall = _
    rw [List.filterMap_append, hcalls]
    exact List.append_nil _
  · rw [h.command, hn] at hn'; exact absurd hn' (by simp)

/-- A command without a data-out phase is run at once. -/
theorem executed_calls {s₀ t : Ncr5380 ι ω} {target : ι} {cdb : List UInt8}
    (h : Collecting s₀ t target cdb) (hn : dataOutLength cdb = none) :
    t.executeCommand.calls = s₀.calls ++ [(target, cdb, [])] := by
  rcases executeCommand_eq h.target with ⟨n, hn', -⟩ | ⟨-, m, he⟩
  · rw [h.command, hn] at hn'; exact absurd hn' (by simp)
  · obtain ⟨-, -, -, -, -, -, -, hlog⟩ :=
      runCommand_fields { t with dataOut := [], expectedDataOut := m } target
    have hcalls : t.log.filterMap eventCall = s₀.calls := h.calls
    rw [he]
    unfold calls
    rw [hlog, List.filterMap_append, h.command, hcalls]
    rfl

/-- **The NCR5380.**  It calls the target once, with the CDB and the payload. -/
theorem dmaTransfer_calls {s : Ncr5380 ι ω} (h : Idle s) {id : Fin 8} (hid : id ≠ 7) {target : ι}
    (ht : s.targets id = some target) (hsel : ScsiTarget.selectable s.world target)
    {cdb payload : List UInt8} (hc : Complete cdb) (he : Encodes cdb payload) :
    (dmaTransfer (issue s id cdb) payload).2.calls = s.calls ++ [(target, cdb, payload)] := by
  obtain ⟨h1, h2⟩ := select_collecting h hid ht hsel
  obtain ⟨t, h3, h4⟩ := commandBytes_executed cdb _ [] h1 h2 hc.ne_nil hc
  rw [issue, run_append, h4]
  cases hn : dataOutLength cdb with
  | none =>
    obtain ⟨-, hF⟩ := dmaTransfer_dataIn (executed_atData h3 hn) payload
    rw [hF.calls, he.nil hc hn]
    exact executed_calls h3 hn
  | some n =>
    have hW := executed_waiting h3 hn
    obtain ⟨k1, k2, k3, k4, k5⟩ := executed_dataOut h3 hn
    rw [List.nil_append] at k3
    rcases he.length hc hn with ⟨hop, hlen⟩ | ⟨hop, rfl, hlen⟩
    · have hop' : byteAt t.executeCommand.command 0 ≠ 0x04 := by rw [k3]; exact hop
      obtain ⟨-, hcalls, -⟩ := dmaTransfer_dataOut hW k1 k2 hop' (hlen.trans k4.symm)
      rw [hcalls]
      show t.executeCommand.calls ++ [(target, t.executeCommand.command, payload)] = _
      rw [k3, k5]
    · have hop' : byteAt t.executeCommand.command 0 = 0x04 := by rw [k3]; exact hop
      rw [dmaTransfer_format hW k1 k2 hop' k4 hlen]
      show t.executeCommand.calls ++ [(target, t.executeCommand.command, payload)] = _
      rw [k3, k5]

end

end Ncr5380

/-! ## Agreement -/

/-- Two controllers have called their targets alike since `s` and `u`. -/
def SameCommand (s s' : Ncr5380 ι ω) (u u' : Ncr53c94 ι ω) : Prop :=
  ∃ calls, s'.calls = s.calls ++ calls ∧ u'.calls = u.calls ++ calls

/-- **The same command.**  For every target that answers on both controllers,
    every CDB of the length of its opcode, every payload of the length that it
    encodes and every way of selecting, the controllers call the target alike
    iff the NCR53C94 can deliver the command. -/
theorem sameCommand_iff [ScsiTarget ι ω] (overread : List UInt8 → Nat → List UInt8) {target : ι}
    {s : Ncr5380 ι ω} (h : s.Idle) {id : Fin 8} (hid : id ≠ 7) (ht : s.targets id = some target)
    (hsel : ScsiTarget.selectable s.world target)
    {u : Ncr53c94 ι ω} (hu : u.Idle) {id' : Fin 8} (ht' : u.targets id' = some target)
    (hsel' : ScsiTarget.selectable u.world target) (selection : Ncr53c94.Selection)
    {cdb payload : List UInt8} (hc : Ncr5380.Complete cdb) (he : Ncr5380.Encodes cdb payload)
    {sends reads : List Nat} (hs : Ncr53c94.Programmable sends) (hr : Ncr53c94.Programmable reads)
    (hsum : sends.sum = payload.length) :
    SameCommand s (Ncr5380.dmaTransfer (s.issue id cdb) payload).2
        u (u.deliver overread selection id' cdb payload sends reads) ↔
      Ncr53c94.Deliverable selection cdb payload sends := by
  have hnone : byteAt cdb 0 &&& 0x80 ≠ 0 → payload = [] := by
    intro hbit
    refine he.nil hc ?_
    have hother : byteAt cdb 0 ≠ 0x0a ∧ byteAt cdb 0 ≠ 0x2a ∧ byteAt cdb 0 ≠ 0x15 ∧
        byteAt cdb 0 ≠ 0x55 ∧ byteAt cdb 0 ≠ 0x04 := by
      refine ⟨?_, ?_, ?_, ?_, ?_⟩ <;> intro hop <;> rw [hop] at hbit <;> exact hbit (by decide)
    simp [Ncr5380.dataOutLength, hother]
  rw [← Ncr53c94.deliver_calls_iff overread hu ht' hsel' selection hc hs hr hsum hnone]
  have hcalls := Ncr5380.dmaTransfer_calls h hid ht hsel hc he
  constructor
  · rintro ⟨calls, h1, h2⟩
    rw [hcalls, List.append_cancel_left_eq] at h1
    rw [h2, ← h1]
  · intro hcalls'
    exact ⟨_, hcalls, hcalls'⟩

/-- A NCR5380 and a NCR53C94 with the same target attached. -/
def plainChip : Ncr5380 FixedTarget Unit := .initial (fun _ => some ⟨{}⟩) ()

def plainChip94 : Ncr53c94 FixedTarget Unit := .initial (fun _ => some ⟨{}⟩) ()

/-- Selection with ATN from the FIFO, with the IDENTIFY message of unit 0. -/
def withAtn : Ncr53c94.Selection := { identify := some ⟨0x80, by decide⟩, dma := false }

theorem sameCommand_iff_modeSelect :
    SameCommand plainChip
        (Ncr5380.dmaTransfer (plainChip.issue 0 [0x15, 0, 0, 0, 1, 0]) [0x00]).2
        plainChip94
        (plainChip94.deliver (fun _ _ => []) withAtn 0 [0x15, 0, 0, 0, 1, 0] [0x00] [1] []) ↔
      Ncr53c94.Deliverable withAtn [0x15, 0, 0, 0, 1, 0] [0x00] [1] := by
  have h : plainChip.Idle := Ncr5380.initial_idle _ _
  have ht : plainChip.targets 0 = some (⟨{}⟩ : FixedTarget) := rfl
  have hu : plainChip94.Idle := ⟨rfl, rfl, rfl⟩
  have ht' : plainChip94.targets 0 = some (⟨{}⟩ : FixedTarget) := rfl
  have hc : Ncr5380.Complete [0x15, 0, 0, 0, 1, 0] := by unfold Ncr5380.Complete; decide
  have hs : Ncr53c94.Programmable [1] := by unfold Ncr53c94.Programmable; decide
  have hr : Ncr53c94.Programmable [] := by unfold Ncr53c94.Programmable; decide
  exact sameCommand_iff (fun _ _ => []) h (by decide) ht rfl hu ht' rfl withAtn hc (by decide) hs hr rfl

/-- MODE SELECT(10) with a parameter list of eight bytes. -/
def modeSelect10 : List UInt8 := [0x55, 0, 0, 0, 0, 0, 0, 0, 8, 0]

theorem modeSelect10_not_sameCommand :
    ¬ SameCommand plainChip
      (Ncr5380.dmaTransfer (plainChip.issue 0 modeSelect10) [0, 0, 0, 0, 0, 0, 0, 0]).2
      plainChip94
      (plainChip94.deliver (fun _ _ => []) withAtn 0 modeSelect10 [0, 0, 0, 0, 0, 0, 0, 0] [8] []) := by
  rintro ⟨calls, h1, h2⟩
  have h : (Ncr5380.dmaTransfer (plainChip.issue 0 modeSelect10) [0, 0, 0, 0, 0, 0, 0, 0]).2.calls =
      (plainChip94.deliver (fun _ _ => []) withAtn 0 modeSelect10 [0, 0, 0, 0, 0, 0, 0, 0] [8]
        []).calls := by rw [h1, h2]; rfl
  revert h
  decide +kernel

end CuteMac.Scsi
