/-
  The registers of the NCR53C94 stay coherent, as long as the guest does not
  disturb a phase that is under way.

  * `Coherent`: FIFO size, data position, exclusive phases and the calls made;
  * `Disturbs`: the accesses that break it (a Message Accepted that leaves the
    data position behind, a Select in the middle of a phase);
  * `access_invariant`: every other access keeps the invariant;
  * `run_coherent`: so runs without disturbing accesses stay coherent.
-/
import Mathlib.Tactic.SplitIfs
import CuteMac.Scsi.Ncr53c94

namespace CuteMac.Scsi

namespace Ncr53c94

open Machine

variable {ι ω : Type}

/-! ## Coherent states -/

/-- The automaton of one call per CDB; its state says whether a call is due. -/
def callStep (due : Bool) : CdbEvent ι → Option Bool
  | .newCdb => some true
  | .execute _ _ _ _ => if due then some false else none

/-- The registers fit together. -/
structure Coherent (s : Ncr53c94 ι ω) : Prop where
  fifo : s.fifo.length ≤ 16
  position : s.dataPosition ≤ s.data.length
  inOut : ¬ (s.dataIn ∧ s.dataOutPhase)
  inCommand : ¬ (s.dataIn ∧ s.commandPhase)
  outCommand : ¬ (s.dataOutPhase ∧ s.commandPhase)
  calls : (read callStep false s.log).isSome

/-- Coherent, and a call is due as long as a command or data-out phase lasts. -/
structure Invariant (s : Ncr53c94 ι ω) : Prop where
  fifo : s.fifo.length ≤ 16
  position : s.dataPosition ≤ s.data.length
  inOut : ¬ (s.dataIn ∧ s.dataOutPhase)
  inCommand : ¬ (s.dataIn ∧ s.commandPhase)
  outCommand : ¬ (s.dataOutPhase ∧ s.commandPhase)
  calls : ∃ due, read callStep false s.log = some due ∧ (s.commandPhase ∨ s.dataOutPhase → due)

theorem Invariant.coherent {s : Ncr53c94 ι ω} (h : Invariant s) : Coherent s := by
  obtain ⟨due, hd, -⟩ := h.calls
  exact ⟨h.1, h.2, h.3, h.4, h.5, by rw [hd]; rfl⟩

theorem initial_invariant (targets : Fin 8 → Option ι) (world : ω) :
    Invariant (initial targets world) := by
  refine ⟨?_, ?_, ?_, ?_, ?_, false, rfl, ?_⟩ <;> simp [initial]

theorem reset_invariant {s : Ncr53c94 ι ω} (h : Invariant s) : Invariant s.reset := by
  obtain ⟨due, hd, -⟩ := h.calls
  refine ⟨?_, ?_, ?_, ?_, ?_, due, hd, ?_⟩ <;> simp [reset, initial]

/-- Where a call is due, it can be made. -/
theorem read_execute {log : List (CdbEvent ι)} (h : read callStep false log = some true)
    (target : ι) (cdb dataOut : List UInt8) (result : ScsiCommandResult) :
    read callStep false (log ++ [.execute target cdb dataOut result]) = some false := by
  rw [read_append, h]; rfl

section
variable [ScsiTarget ι ω]

/-! ## Commands for a target -/

/-- A CDB begins its data phase: data-out waits for its bytes, any other
    command is called at once. -/
theorem startCdb_invariant {s : Ncr53c94 ι ω} (hf : s.fifo.length ≤ 16)
    (hc : s.commandPhase = false) (hd : read callStep false s.log = some true) (target : ι) :
    Invariant (s.startCdb target) := by
  by_cases ho : isDataOut (byteAt s.cdb 0)
  · refine ⟨?_, ?_, ?_, ?_, ?_, true, ?_, ?_⟩ <;>
      simp [startCdb, ho, raiseInterrupt, hf, hc, hd]
  · have he := read_execute hd target s.cdb []
      (ScsiTarget.executeCommand s.world target s.cdb []).1
    refine ⟨?_, ?_, ?_, ?_, ?_, false, ?_, ?_⟩ <;>
      simp [startCdb, ho, raiseInterrupt, callTarget, record, hf, hc, he]

omit [ScsiTarget ι ω] in
theorem disconnect_invariant {s : Ncr53c94 ι ω} (h : Invariant s) : Invariant s.disconnect :=
  ⟨Nat.zero_le 16, h.2, h.3, h.4, h.5, h.6⟩

theorem executeCdb_invariant {s : Ncr53c94 ι ω} (h : Invariant s) (hc : s.commandPhase = false)
    (hd : read callStep false s.log = some true) : Invariant s.executeCdb := by
  unfold executeCdb
  split
  · exact disconnect_invariant h
  · split
    · exact h
    · refine startCdb_invariant (show List.length (List.drop _ _) ≤ 16 from ?_) (by exact hc)
        (by exact hd) _
      have := h.fifo
      rw [List.length_drop]
      omega
    · exact startCdb_invariant h.fifo hc hd _

omit [ScsiTarget ι ω] in
/-- The invariant between the end of the command phase and the execution. -/
theorem Invariant.endCommand {s : Ncr53c94 ι ω} (h : Invariant s) (hc : s.commandPhase) :
    Invariant { s with commandPhase := false } ∧ read callStep false s.log = some true := by
  obtain ⟨due, hd, hdue⟩ := h.calls
  have hdue' : due = true := hdue (Or.inl hc)
  subst hdue'
  exact ⟨⟨h.1, h.2, h.3, by simp, by simp, true, hd, by simp⟩, hd⟩

omit [ScsiTarget ι ω] in
theorem stripIdentify_length (fifo : List UInt8) : (stripIdentify fifo).length ≤ fifo.length := by
  unfold stripIdentify
  split
  · exact Nat.le_refl _
  · split_ifs <;> simp

/-- A Select of a target that answers, in the middle of a phase: the data phase
    would meet a new command phase, or the command phase a new data phase. -/
def SelectDisturbs (s : Ncr53c94 ι ω) : Prop :=
  s.selectableTarget.isSome ∧
    if stripIdentify s.fifo = [] then s.dataIn ∨ s.dataOutPhase else s.commandPhase

instance (s : Ncr53c94 ι ω) : Decidable (SelectDisturbs s) :=
  inferInstanceAs (Decidable (s.selectableTarget.isSome ∧
    if stripIdentify s.fifo = [] then (s.dataIn ∨ s.dataOutPhase : Prop) else s.commandPhase))

theorem selectTarget_invariant {s : Ncr53c94 ι ω} (h : Invariant s) (hok : ¬ SelectDisturbs s) :
    Invariant s.selectTarget := by
  obtain ⟨due, hd, -⟩ := h.calls
  have hnew : read callStep false (s.log ++ [.newCdb]) = some true := by
    rw [read_append, hd]; rfl
  have hlen := Nat.le_trans (stripIdentify_length s.fifo) h.fifo
  unfold selectTarget
  split
  · exact disconnect_invariant h
  · rename_i target ht
    have hsome : s.selectableTarget.isSome := by rw [ht]; rfl
    simp only [SelectDisturbs, hsome, true_and] at hok
    simp only
    split
    · rename_i he
      have he' : stripIdentify s.fifo = [] := he
      rw [if_pos he', not_or] at hok
      exact ⟨hlen, h.2, h.3, fun hc => hok.1 hc.1, fun hc => hok.2 hc.1, true, hnew, fun _ => rfl⟩
    · rename_i he
      have he' : stripIdentify s.fifo ≠ [] := he
      rw [if_neg he'] at hok
      have hc : s.commandPhase = false := by simpa using hok
      refine executeCdb_invariant ?_ hc hnew
      exact ⟨hlen, h.2, h.3, h.4, h.5, true, hnew, fun _ => rfl⟩

theorem consumeBytes_invariant (bytes : List UInt8) :
    ∀ s : Ncr53c94 ι ω, Invariant s → s.commandPhase → bytes.length ≤ 16 →
      Invariant (s.consumeBytes bytes) := by
  induction bytes with
  | nil => intro s h _ _; exact ⟨Nat.zero_le 16, h.2, h.3, h.4, h.5, h.6⟩
  | cons value fifo ih =>
    intro s h hc hlen
    have hlen' : fifo.length ≤ 16 := Nat.le_of_succ_le hlen
    unfold consumeBytes
    simp only
    split_ifs with h1 h2
    · exact ih s h hc hlen'
    · have h' : Invariant { s with cdb := s.cdb ++ [value], fifo := fifo } :=
        ⟨hlen', h.2, h.3, h.4, h.5, h.6⟩
      obtain ⟨he, hd⟩ := h'.endCommand hc
      exact executeCdb_invariant he rfl hd
    · exact ih _ ⟨h.1, h.2, h.3, h.4, h.5, h.6⟩ hc hlen'

theorem consumeCommandFifo_invariant {s : Ncr53c94 ι ω} (h : Invariant s) :
    Invariant s.consumeCommandFifo := by
  unfold consumeCommandFifo
  split_ifs with hc
  · exact consumeBytes_invariant s.fifo s h hc h.fifo
  · exact h

omit [ScsiTarget ι ω] in
/-- A whole CDB in the FIFO is more than an identify message. -/
theorem stripIdentify_ne_nil {s : Ncr53c94 ι ω} (h : s.fifoComplete) : stripIdentify s.fifo ≠ [] := by
  unfold fifoComplete at h
  split at h
  · exact absurd h (by simp)
  · rename_i front fifo hf
    have hlen : 6 ≤ s.fifo.length := by
      refine Nat.le_trans ?_ (by simpa using h)
      unfold commandLength
      simp only
      split_ifs <;> omega
    rw [hf] at hlen ⊢
    by_cases hi : front &&& 0x80 = 0
    · simp [stripIdentify, hi]
    · have hrest : fifo ≠ [] := by rintro rfl; simp at hlen
      simpa [stripIdentify, hi] using hrest

theorem completeTransfer_invariant {s : Ncr53c94 ι ω} (h : Invariant s) :
    Invariant s.completeTransfer := by
  have hno : ¬ (false = true) := Bool.false_ne_true
  unfold completeTransfer
  simp only
  split_ifs with hc hf ho
  · -- the whole CDB is in the FIFO: the target is selected again, for a new CDB
    have h' : Invariant { s with
        transferCount := 0, dmaActive := false, status := s.status ||| terminalCount } :=
      ⟨h.1, h.2, h.3, h.4, h.5, h.6⟩
    refine selectTarget_invariant (h'.endCommand hc).1 fun hd => ?_
    have hd' := hd.2
    rw [if_neg (stripIdentify_ne_nil hf)] at hd'
    exact absurd hd' (by simp)
  · exact ⟨h.1, h.2, h.3, h.4, h.5, h.6⟩
  · -- the data-out phase ends with its call
    obtain ⟨due, hd, hdue⟩ := h.calls
    have hdue' : due = true := hdue (Or.inr ho)
    subst hdue'
    split
    · rename_i target ht
      have he := read_execute hd target s.cdb s.dataOut
        (ScsiTarget.executeCommand s.world target s.cdb s.dataOut).1
      exact ⟨h.1, h.2, fun hp => hno hp.1, fun hp => hno hp.1, fun hp => hno hp.1, false, he,
        fun hp => hp.elim (fun hp => absurd hp hc) fun hp => absurd hp hno⟩
    · exact ⟨h.1, h.2, fun hp => hno hp.1, fun hp => hno hp.1, fun hp => hno hp.1, true, hd,
        fun _ => rfl⟩
  · exact ⟨h.1, h.2, fun hp => hno hp.1, fun hp => hno hp.1, h.5, h.6⟩

/-! ## Controller commands -/

omit [ScsiTarget ι ω] in
/-- Inside the data buffer the count is zero or one: nothing is read behind it. -/
theorem receiveByte_invariant {s : Ncr53c94 ι ω} (h : Invariant s)
    (overread : List UInt8 → Nat → List UInt8) : Invariant (s.receiveByte overread) := by
  have hpos := h.position
  have hcount : ¬ min 1 ((s.data.length : Int) - s.dataPosition) < 0 := by omega
  have hin : (s.receiveByte overread).dataIn → s.dataIn := by
    simp only [receiveByte, raiseInterrupt]
    split
    · intro hp; exact absurd hp Bool.false_ne_true
    · exact id
  refine ⟨?_, ?_, ?_, ?_, ?_, ?_⟩
  · show List.length (if _ < _ then _ else _) ≤ 16
    rw [if_neg hcount, List.length_take]
    omega
  · show ((s.dataPosition : Int) + min 1 ((s.data.length : Int) - s.dataPosition)).toNat ≤ _
    show _ ≤ s.data.length
    omega
  · exact fun hp => h.inOut ⟨hin hp.1, hp.2⟩
  · exact fun hp => h.inCommand ⟨hin hp.1, hp.2⟩
  · exact h.5
  · exact h.6

theorem transferInformation_invariant {s : Ncr53c94 ι ω} (h : Invariant s)
    (overread : List UInt8 → Nat → List UInt8) (dma : Bool) :
    Invariant (s.transferInformation overread dma) := by
  unfold transferInformation
  split
  · rename_i h1
    obtain ⟨he, hd⟩ := h.endCommand h1.1
    exact executeCdb_invariant he rfl hd
  · split
    · exact receiveByte_invariant h overread
    · simp only
      split
      · exact ⟨h.1, h.2, h.3, h.4, h.5, h.6⟩
      · exact ⟨h.1, h.2, h.3, h.4, h.5, h.6⟩

theorem select_invariant {s : Ncr53c94 ι ω} (h : Invariant s) (hok : ¬ SelectDisturbs s)
    (dma : Bool) : Invariant (s.select dma) := by
  have hs := selectTarget_invariant h hok
  unfold select
  simp only
  split_ifs
  · exact ⟨hs.1, hs.2, hs.3, hs.4, hs.5, hs.6⟩
  · exact hs

/-- An access that disturbs the phase under way: a Message Accepted that would
    clear the data buffer behind the data position, or a Select in a phase. -/
def Disturbs (s : Ncr53c94 ι ω) : Access → Prop
  | .writeRegister index value =>
    (index &&& 15).toNat = 3 ∧
      ((value &&& 0x7f).toNat = 0x12 ∧ s.dataPosition ≠ 0 ∨
        ((value &&& 0x7f).toNat = 0x41 ∨ (value &&& 0x7f).toNat = 0x42 ∨
          (value &&& 0x7f).toNat = 0x43) ∧ SelectDisturbs s)
  | _ => False

instance (s : Ncr53c94 ι ω) : DecidablePred (Disturbs s)
  | .writeRegister index value =>
    inferInstanceAs (Decidable ((index &&& 15).toNat = 3 ∧
      ((value &&& 0x7f).toNat = 0x12 ∧ s.dataPosition ≠ 0 ∨
        ((value &&& 0x7f).toNat = 0x41 ∨ (value &&& 0x7f).toNat = 0x42 ∨
          (value &&& 0x7f).toNat = 0x43) ∧ SelectDisturbs s)))
  | .readRegister _ | .readDmaByte | .writeDmaByte _ | .tick _ =>
    inferInstanceAs (Decidable False)

theorem executeCommand_invariant {s : Ncr53c94 ι ω} (h : Invariant s)
    (overread : List UInt8 → Nat → List UInt8) {command : UInt8}
    (hmsg : (command &&& 0x7f).toNat = 0x12 → s.dataPosition = 0)
    (hsel : (command &&& 0x7f).toNat = 0x41 ∨ (command &&& 0x7f).toNat = 0x42 ∨
      (command &&& 0x7f).toNat = 0x43 → ¬ SelectDisturbs s) :
    Invariant (s.executeCommand overread command) := by
  have h' : Invariant { s with
      controllerCommandCounts := increment s.controllerCommandCounts (command &&& 0x7f) } :=
    ⟨h.1, h.2, h.3, h.4, h.5, h.6⟩
  unfold executeCommand
  simp only
  split
  · exact ⟨Nat.zero_le 16, h.2, h.3, h.4, h.5, h.6⟩
  · exact reset_invariant h'
  · exact ⟨h.1, h.2, h.3, h.4, h.5, h.6⟩
  · exact transferInformation_invariant h' overread _
  · exact ⟨by simp [raiseInterrupt], h.2, h.3, h.4, h.5, h.6⟩
  · rename_i hcmd
    refine ⟨Nat.zero_le 16, ?_, h.3, h.4, h.5, h.6⟩
    exact Nat.le_of_eq (hmsg hcmd)
  · rename_i hcmd
    exact select_invariant h' (hsel (Or.inl hcmd)) _
  · rename_i hcmd
    exact select_invariant h' (hsel (Or.inr (Or.inl hcmd))) _
  · rename_i hcmd
    exact select_invariant h' (hsel (Or.inr (Or.inr hcmd))) _
  · exact h'

/-! ## Guest accesses -/

omit [ScsiTarget ι ω] in
theorem readRegister_invariant {s : Ncr53c94 ι ω} (h : Invariant s) (index : UInt8) :
    Invariant (s.readRegister index).2 := by
  unfold readRegister
  simp only
  split
  · exact h
  · exact h
  · split
    · exact h
    · rename_i value fifo hf
      have hlen := h.fifo
      rw [hf] at hlen
      exact ⟨Nat.le_of_succ_le hlen, h.2, h.3, h.4, h.5, h.6⟩
  · exact h
  · exact h
  · exact ⟨h.1, h.2, h.3, h.4, h.5, h.6⟩
  · exact h
  · split_ifs <;> exact h
  all_goals exact h

omit [ScsiTarget ι ω] in
theorem appendFifo_invariant {s : Ncr53c94 ι ω} (h : Invariant s) (value : UInt8) :
    Invariant (if s.fifo.length < 16 then { s with fifo := s.fifo ++ [value] } else s) := by
  split_ifs with hlen
  · have hlen' : (s.fifo ++ [value]).length ≤ 16 := by rw [List.length_append]; exact hlen
    exact ⟨hlen', h.2, h.3, h.4, h.5, h.6⟩
  · exact h

theorem writeRegister_invariant {s : Ncr53c94 ι ω} (h : Invariant s)
    (overread : List UInt8 → Nat → List UInt8) {index value : UInt8}
    (hok : ¬ Disturbs s (.writeRegister index value)) :
    Invariant (s.writeRegister overread index value) := by
  unfold writeRegister
  simp only
  split
  · exact ⟨h.1, h.2, h.3, h.4, h.5, h.6⟩
  · exact ⟨h.1, h.2, h.3, h.4, h.5, h.6⟩
  · have ha := appendFifo_invariant h value
    split_ifs at ha ⊢
    all_goals first
      | exact consumeCommandFifo_invariant ha
      | exact ha
  · rename_i hindex
    have h' : Invariant (s.setRegister 3 value) := ⟨h.1, h.2, h.3, h.4, h.5, h.6⟩
    refine executeCommand_invariant h' overread (fun hm => ?_) fun hs hd => ?_
    · by_contra hpos
      exact hok ⟨hindex, Or.inl ⟨hm, hpos⟩⟩
    · exact hok ⟨hindex, Or.inr ⟨hs, hd⟩⟩
  · exact ⟨h.1, h.2, h.3, h.4, h.5, h.6⟩
  · exact ⟨h.1, h.2, h.3, h.4, h.5, h.6⟩
  · exact ⟨h.1, h.2, h.3, h.4, h.5, h.6⟩

theorem readDmaByte_invariant {s : Ncr53c94 ι ω} (h : Invariant s) : Invariant s.readDmaByte.2 := by
  unfold readDmaByte
  by_cases hpos : s.dataPosition < s.data.length
  · have h' : Invariant { s with
        dataPosition := s.dataPosition + 1, transferCount := s.transferCount - 1 } :=
      ⟨h.1, hpos, h.3, h.4, h.5, h.6⟩
    simp only [if_pos hpos]
    split_ifs
    · exact completeTransfer_invariant h'
    · exact ⟨h'.1, h'.2, h'.3, h'.4, h'.5, h'.6⟩
    · exact h'
  · have h' : Invariant { s with transferCount := s.transferCount - 1 } :=
      ⟨h.1, h.2, h.3, h.4, h.5, h.6⟩
    simp only [if_neg hpos]
    split_ifs
    · exact completeTransfer_invariant h'
    · exact ⟨h'.1, h'.2, h'.3, h'.4, h'.5, h'.6⟩
    · exact h'

theorem writeDmaByte_invariant {s : Ncr53c94 ι ω} (h : Invariant s) (value : UInt8) :
    Invariant (s.writeDmaByte value) := by
  obtain ⟨u, hu, hI⟩ : ∃ u, u = (if s.commandPhase then
      (if s.fifo.length < 16 then { s with fifo := s.fifo ++ [value] } else s).consumeCommandFifo
      else { s with dataOut := s.dataOut ++ [value] }) ∧ Invariant u := by
    refine ⟨_, rfl, ?_⟩
    by_cases hc : s.commandPhase
    · rw [if_pos hc]; exact consumeCommandFifo_invariant (appendFifo_invariant h value)
    · rw [if_neg hc]; exact ⟨h.1, h.2, h.3, h.4, h.5, h.6⟩
  have h' : Invariant { u with transferCount := u.transferCount - 1 } :=
    ⟨hI.1, hI.2, hI.3, hI.4, hI.5, hI.6⟩
  unfold writeDmaByte
  simp only [← hu]
  split_ifs
  · exact h'
  · exact ⟨hI.1, hI.2, hI.3, hI.4, hI.5, hI.6⟩
  · exact ⟨hI.1, hI.2, hI.3, hI.4, hI.5, hI.6⟩
  · exact completeTransfer_invariant h'

omit [ScsiTarget ι ω] in
theorem tick_invariant {s : Ncr53c94 ι ω} (h : Invariant s) (controllerCycles : Nat) :
    Invariant (s.tick controllerCycles) := by
  unfold tick
  simp only
  split_ifs
  · exact h
  all_goals exact ⟨h.1, h.2, h.3, h.4, h.5, h.6⟩

theorem access_invariant (overread : List UInt8 → Nat → List UInt8) (s : Ncr53c94 ι ω) (a : Access)
    (hok : ¬ Disturbs s a) (h : Invariant s) : Invariant (access overread s a) := by
  cases a with
  | readRegister index => exact readRegister_invariant h index
  | writeRegister index value => exact writeRegister_invariant h overread hok
  | readDmaByte => exact readDmaByte_invariant h
  | writeDmaByte value => exact writeDmaByte_invariant h value
  | tick controllerCycles => exact tick_invariant h controllerCycles

/-! ## Coherent runs -/

/-- **Coherence.**  From reset, as long as no access disturbs the phase under
    way, the registers are coherent, whatever lies behind the data buffer. -/
theorem run_coherent {overread : List UInt8 → Nat → List UInt8} {targets : Fin 8 → Option ι}
    {world : ω} {as : List Access}
    (hg : Guarded (access overread) (fun s a => ¬ Disturbs s a) (initial targets world) as) :
    Coherent (run (access overread) (initial targets world) as) :=
  (guarded_run_inv (access_invariant overread) (initial_invariant targets world) hg).coherent

end

/-- An INQUIRY that is selected with its CDB in the FIFO, and one byte of its
    data read by programmed I/O. -/
def inquiryByte : List Access :=
  [.writeRegister 2 0x12, .writeRegister 2 0, .writeRegister 2 0, .writeRegister 2 0,
   .writeRegister 2 2, .writeRegister 2 0, .writeRegister 3 0x41, .writeRegister 3 0x10,
   .readRegister 2]

/-- A chip with an attached target that answers with two bytes. -/
def sampleChip : Ncr53c94 FixedTarget Unit :=
  initial (fun _ => some ⟨{ data := [0x00, 0x80] }⟩) ()

theorem run_coherent_inquiry :
    Coherent (run (access fun _ _ => []) sampleChip (inquiryByte ++ [.writeRegister 3 0x10])) :=
  run_coherent (by decide +kernel)

/-- A Message Accepted after the first of the two bytes clears the data buffer
    and leaves the data position at one. -/
theorem messageAccepted_not_coherent :
    ¬ Coherent (run (access fun _ _ => []) sampleChip
      (inquiryByte ++ [.writeRegister 3 0x12])) := by
  intro h
  have hp := h.position
  revert hp
  decide +kernel

end Ncr53c94

end CuteMac.Scsi
