/-
  What each function of the NCR5380 can do, said once.

  * `dataOutLength`: the length of the data-out phase that a CDB starts, if any;
  * `executeCommand_eq`: a command either starts its data-out phase or runs;
  * `runCommand_fields`, `completeDataOutCommand_fields`: the two calls of a target;
  * `finishDataPhaseIfDone_dataOut`: a data-out phase goes on or has all its bytes.
-/
import Mathlib.Tactic.SplitIfs
import Mathlib.Tactic.Set
import CuteMac.Scsi.Ncr5380

namespace CuteMac.Scsi

namespace Ncr5380

variable {ι ω : Type}

/-! ## Phases -/

theorem setPhase_ne {p : Phase} (hp : p ≠ .busFree) (s : Ncr5380 ι ω) (r : Bool) :
    s.setPhase p r = { s with phase := p, request := r, requestReassertPending := false,
                              log := s.log ++ [.phase p] } := by
  simp [setPhase, record, hp]

theorem expectedCommandLength_pos (opcode : UInt8) : 0 < expectedCommandLength opcode := by
  simp only [expectedCommandLength]; split_ifs <;> omega

/-- The CDB collected so far is complete. -/
def Complete (cdb : List UInt8) : Prop := cdb.length = expectedCommandLength (byteAt cdb 0)

theorem Complete.ne_nil {cdb : List UInt8} (h : Complete cdb) : cdb ≠ [] := by
  rintro rfl
  exact absurd h (Nat.ne_of_lt (expectedCommandLength_pos _))

/-! ## Executing a command -/

/-- The length of the data-out phase that a CDB starts, if it starts one. -/
def dataOutLength (cdb : List UInt8) : Option Nat :=
  let opcode := byteAt cdb 0
  if opcode = 0x0a ∧ 6 ≤ cdb.length then
    some (sixByteBlocks (byteAt cdb 4) * 512)
  else if opcode = 0x2a ∧ 10 ≤ cdb.length then
    if be16At cdb 7 * 512 ≠ 0 then some (be16At cdb 7 * 512) else none
  else if opcode = 0x15 ∧ 6 ≤ cdb.length ∧ byteAt cdb 4 ≠ 0 then some (byteAt cdb 4).toNat
  else if opcode = 0x55 ∧ 10 ≤ cdb.length then
    if be16At cdb 7 ≠ 0 then some (be16At cdb 7) else none
  else if opcode = 0x04 ∧ 6 ≤ cdb.length ∧ byteAt cdb 1 &&& 0x10 ≠ 0 then some 4
  else none

theorem toNat_pos_of_ne {b : UInt8} (h : b ≠ 0) : 0 < b.toNat := by
  rcases Nat.eq_zero_or_pos b.toNat with h0 | h0
  · exact absurd (UInt8.toNat_inj.1 h0) h
  · exact h0

theorem sixByteBlocks_pos (count : UInt8) : 0 < sixByteBlocks count := by
  unfold sixByteBlocks
  split_ifs with h
  · decide
  · exact toNat_pos_of_ne h

theorem dataOutLength_pos {cdb : List UInt8} {n : Nat} (h : dataOutLength cdb = some n) : 0 < n := by
  have h6 := sixByteBlocks_pos (byteAt cdb 4)
  simp only [dataOutLength] at h
  split_ifs at h with h1 h2 h3 h4 h5 h7 h8 <;> cases h
  · omega
  · omega
  · exact toNat_pos_of_ne h4.2.2
  · omega
  · omega

section
variable [ScsiTarget ι ω]

/-- A command either starts its data-out phase or is run at once.  (The
    expected length is the one stored before, unless the CDB has a count.) -/
theorem executeCommand_eq {s : Ncr5380 ι ω} {target : ι} (ht : s.activeTarget = some target) :
    (∃ n, dataOutLength s.command = some n ∧
      s.executeCommand = { s with dataOut := [] }.beginDataOut n) ∨
    (dataOutLength s.command = none ∧ ∃ m,
      s.executeCommand = { s with dataOut := [], expectedDataOut := m }.runCommand target) := by
  rcases s with ⟨⟩
  cases ht
  simp only [executeCommand, dataOutLength]
  split_ifs
  all_goals first
    | exact Or.inl ⟨_, rfl, rfl⟩
    | exact Or.inr ⟨rfl, _, rfl⟩

theorem runCommand_fields (s : Ncr5380 ι ω) (target : ι) :
    let result := (ScsiTarget.executeCommand s.world target s.command []).1
    let s' := s.runCommand target
    s'.phase = (if result.data = [] then .status else .dataIn) ∧
      s'.selected = s.selected ∧ s'.activeTarget = s.activeTarget ∧
      s'.dataOutCompletionPending = s.dataOutCompletionPending ∧
      s'.requestReassertPending = false ∧ s'.commandReady = s.commandReady ∧
      s'.command = s.command ∧
      s'.log = s.log ++ [.execute target s.command [] result, .phase s'.phase] := by
  intro result s'
  by_cases hd : result.data = []
  · simp [s', runCommand, callTarget, finishCommand, trace, record, setPhase_ne, result, hd]
  · simp [s', runCommand, callTarget, finishCommand, trace, record, setPhase_ne, result, hd]

/-- The data that a command leaves behind, and what it does not touch. -/
theorem runCommand_data (s : Ncr5380 ι ω) (target : ι) :
    let result := (ScsiTarget.executeCommand s.world target s.command []).1
    let s' := s.runCommand target
    s'.dataBuffer = result.data ∧ s'.dataIndex = 0 ∧ s'.status = result.status ∧
      s'.request = true ∧ s'.registers = s.registers := by
  intro result s'
  by_cases hd : result.data = []
  · simp [s', runCommand, callTarget, finishCommand, trace, record, setPhase_ne, result, hd]
  · simp [s', runCommand, callTarget, finishCommand, trace, record, setPhase_ne, result, hd]

theorem completeDataOutCommand_fields {s : Ncr5380 ι ω} {target : ι}
    (ht : s.activeTarget = some target) :
    let s' := s.completeDataOutCommand
    s'.phase = .status ∧ s'.selected = s.selected ∧ s'.activeTarget = s.activeTarget ∧
      s'.dataOutCompletionPending = s.dataOutCompletionPending ∧
      s'.requestReassertPending = false ∧ s'.commandReady = s.commandReady ∧
      s'.command = s.command ∧
      s'.log = s.log ++
        [.execute target s.command s.dataOut
          (ScsiTarget.executeCommand s.world target s.command s.dataOut).1, .phase .status] := by
  intro s'
  have hs' : s' = s.completeDataOutCommand := rfl
  unfold completeDataOutCommand at hs'
  split at hs'
  rename_i result u hu
  rw [ht] at hu
  cases hu
  rw [setPhase_ne (by decide)] at hs'
  simp [hs', finishCommand, trace, record]

theorem completeDataOutCommand_status {s : Ncr5380 ι ω} {target : ι}
    (ht : s.activeTarget = some target) :
    s.completeDataOutCommand.status =
      (ScsiTarget.executeCommand s.world target s.command s.dataOut).1.status := by
  unfold completeDataOutCommand
  split
  rename_i result u hu
  rw [ht] at hu
  cases hu
  rw [setPhase_ne (by decide)]
  rfl

/-- The end of a data-out phase is looked for after every byte: the phase goes
    on, possibly with a new expected length, or `dataOutArrived`. -/
theorem finishDataPhaseIfDone_dataOut {s : Ncr5380 ι ω} (hp : s.phase = .dataOut) :
    (∃ m, s.finishDataPhaseIfDone = { s with expectedDataOut := m } ∧
      (byteAt s.command 0 ≠ 0x04 → m = s.expectedDataOut ∧ s.dataOut.length < s.expectedDataOut)) ∨
    (s.finishDataPhaseIfDone = s.dataOutArrived ∧ s.expectedDataOut ≤ s.dataOut.length) := by
  unfold finishDataPhaseIfDone
  split_ifs with h1 h2 h3 h4 h5
  · rw [hp] at h1; exact absurd h1.1 (by decide)
  · exact Or.inl ⟨_, rfl, fun h => absurd h2.2.2.1 h⟩
  · exact Or.inl ⟨_, rfl, fun h => absurd h2.2.2.1 h⟩
  · exact Or.inr ⟨rfl, h2.2.2.2⟩
  · exact Or.inr ⟨rfl, h5.2⟩
  · refine Or.inl ⟨s.expectedDataOut, rfl, fun _ => ⟨rfl, ?_⟩⟩
    by_contra hlen
    exact h5 ⟨hp, by omega⟩

end

end Ncr5380

end CuteMac.Scsi
