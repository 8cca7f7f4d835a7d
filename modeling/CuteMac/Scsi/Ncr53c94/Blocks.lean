/-
  Data phases of the NCR53C94 cut into DMA blocks.

  A host programs the transfer count, issues a DMA Transfer Information and
  moves that many bytes, block after block (`transfer`).

  * `receiveBlocks_data`: the data-in phase delivers the data of the target
    however it is cut;
  * `sendBlocks_log`: the target of a data-out phase is called at the end of
    the first block, with the bytes of that block;
  * `sameBlocks_iff`: cutting the phase makes no difference exactly in the
    data-in phase, or when there is one block.
-/
import Mathlib.Data.Nat.Bitwise
import CuteMac.Scsi.Ncr53c94

namespace CuteMac.Scsi

namespace Ncr53c94

open Machine

variable {ι ω : Type}

/-! ## The host -/

/-- Programs the count and issues a DMA Transfer Information. -/
def startBlock (count : Nat) : List Access :=
  [.writeRegister 0 (UInt8.ofNat count), .writeRegister 1 (UInt8.ofNat (count >>> 8)),
   .writeRegister 0xe (UInt8.ofNat (count >>> 16)), .writeRegister 3 0x90]

section
variable [ScsiTarget ι ω]

/-- Reads `n` bytes by DMA. -/
def receive (s : Ncr53c94 ι ω) : Nat → List UInt8 × Ncr53c94 ι ω
  | 0 => ([], s)
  | n + 1 =>
    let (value, s) := s.readDmaByte
    let (values, s) := receive s n
    (value :: values, s)

/-- The data-in phase in blocks of the given counts. -/
def receiveBlocks (overread : List UInt8 → Nat → List UInt8) (s : Ncr53c94 ι ω) :
    List Nat → List UInt8 × Ncr53c94 ι ω
  | [] => ([], s)
  | count :: counts =>
    let (values, s) := receive (run (access overread) s (startBlock count)) count
    let (rest, s) := receiveBlocks overread s counts
    (values ++ rest, s)

/-- The data-out phase in blocks of the given counts. -/
def sendBlocks (overread : List UInt8 → Nat → List UInt8) (s : Ncr53c94 ι ω) :
    List Nat → List UInt8 → Ncr53c94 ι ω
  | [], _ => s
  | count :: counts, payload =>
    sendBlocks overread
      ((payload.take count).foldl writeDmaByte (run (access overread) s (startBlock count)))
      counts (payload.drop count)

/-- The host follows the phase. -/
def transfer (overread : List UInt8 → Nat → List UInt8) (s : Ncr53c94 ι ω) (payload : List UInt8)
    (counts : List Nat) : List UInt8 × Ncr53c94 ι ω :=
  if s.dataIn then receiveBlocks overread s counts
  else ([], sendBlocks overread s counts payload)

/-! ## Starting a block -/

omit [ScsiTarget ι ω] in
/-- The bits of the masks under which the three count registers are written. -/
theorem countMask_testBit : ∀ i < 24, Nat.testBit 0xffff00 i = decide (8 ≤ i) ∧
    Nat.testBit 0xff00ff i = decide (i < 8 ∨ 16 ≤ i) ∧ Nat.testBit 0x00ffff i = decide (i < 16) := by
  decide

omit [ScsiTarget ι ω] in
/-- The three writes put a 24-bit count together, whatever was there before. -/
theorem programmed_eq (start : Nat) {count : Nat} (h : count < 2 ^ 24) :
    ((((start &&& 0xffff00) ||| (UInt8.ofNat count).toNat) &&& 0xff00ff |||
      (UInt8.ofNat (count >>> 8)).toNat <<< 8) &&& 0x00ffff) |||
      (UInt8.ofNat (count >>> 16)).toNat <<< 16 = count := by
  have hbyte (n i : Nat) : (UInt8.ofNat n).toNat.testBit i = (decide (i < 8) && n.testBit i) := by
    rw [UInt8.toNat_ofNat']; exact Nat.testBit_mod_two_pow n 8 i
  apply Nat.eq_of_testBit_eq
  intro i
  by_cases hi : i < 24
  · obtain ⟨h0, h1, h2⟩ := countMask_testBit i hi
    simp only [Nat.testBit_or, Nat.testBit_and, Nat.testBit_shiftLeft, hbyte, Nat.testBit_shiftRight,
      h0, h1, h2]
    rcases Nat.lt_or_ge i 8 with h8 | h8
    · simp [h8, show ¬ 8 ≤ i by omega, show i < 16 by omega, show ¬ 16 ≤ i by omega]
    · rcases Nat.lt_or_ge i 16 with h16 | h16
      · simp [h8, h16, show ¬ i < 8 by omega, show ¬ 16 ≤ i by omega, show i - 8 < 8 by omega,
          show 8 + (i - 8) = i by omega]
      · simp [h16, show ¬ i < 16 by omega, show i - 16 < 8 by omega,
          show 16 + (i - 16) = i by omega]
  · have hge : 2 ^ 24 ≤ 2 ^ i := Nat.pow_le_pow_right (by omega) (by omega)
    have hc : count.testBit i = false := Nat.testBit_lt_two_pow (Nat.lt_of_lt_of_le h hge)
    have hm : Nat.testBit 0x00ffff i = false :=
      Nat.testBit_lt_two_pow (Nat.lt_of_lt_of_le (by decide) hge)
    simp only [Nat.testBit_or, Nat.testBit_and, Nat.testBit_shiftLeft, hbyte, hm, hc]
    simp [show ¬ i - 16 < 8 by omega]

theorem writeRegister_count (overread : List UInt8 → Nat → List UInt8) (s : Ncr53c94 ι ω) {count : Nat}
    (h : count < 2 ^ 24) :
    ((s.writeRegister overread 0 (UInt8.ofNat count)).writeRegister overread 1
        (UInt8.ofNat (count >>> 8))).writeRegister overread 0xe (UInt8.ofNat (count >>> 16)) =
      { s with startTransferCount := count } := by
  have hp := programmed_eq s.startTransferCount h
  exact congrArg (fun count => { s with startTransferCount := count }) hp

/-- Outside the command phase a block begins with the transfer count programmed;
    nothing that a data phase depends on changes. -/
theorem startBlock_eq (overread : List UInt8 → Nat → List UInt8) {s : Ncr53c94 ι ω}
    (hc : s.commandPhase = false) {count : Nat} (h0 : 0 < count) (h : count < 2 ^ 24) :
    ∃ (registers : UInt8 → UInt8) (counts : UInt8 → UInt64) (status : UInt8),
      run (access overread) s (startBlock count) =
        { s with
          registers := registers, controllerCommandCounts := counts, status := status,
          startTransferCount := count, transferCount := count, dmaActive := true } := by
  have hne : count ≠ 0 := Nat.ne_of_gt h0
  have hrun : run (access overread) s (startBlock count) =
      ({ s with
        startTransferCount := count, registers := Function.update s.registers 3 0x90,
        controllerCommandCounts := increment s.controllerCommandCounts 0x10 }.transferInformation
          overread true) := by
    rw [startBlock, run_cons, run_cons, run_cons, run_cons, run_nil]
    simp only [access]
    rw [writeRegister_count overread s h]
    rfl
  rw [hrun]
  unfold transferInformation
  rw [if_neg (by simp [hc]), if_neg (by simp)]
  simp only [programmedCount, hne, ne_eq, not_false_eq_true, if_true, true_and]
  split_ifs
  · exact ⟨_, _, _, rfl⟩
  · exact ⟨_, _, _, rfl⟩

/-! ## The data-in phase -/

omit [ScsiTarget ι ω] in
/-- The data-in phase that began in `s₁`, with `i` bytes delivered. -/
structure Reading (s₁ s : Ncr53c94 ι ω) (i : Nat) : Prop where
  dataIn : s.dataIn = true
  dataOutPhase : s.dataOutPhase = false
  commandPhase : s.commandPhase = false
  data : s.data = s₁.data
  position : s.dataPosition = i
  scsiStatus : s.scsiStatus = s₁.scsiStatus
  log : s.log = s₁.log

omit [ScsiTarget ι ω] in
/-- No phase is active; the calls and the SCSI status are those of `s₁`. -/
structure Finished (s₁ s : Ncr53c94 ι ω) : Prop where
  dataIn : s.dataIn = false
  dataOutPhase : s.dataOutPhase = false
  commandPhase : s.commandPhase = false
  scsiStatus : s.scsiStatus = s₁.scsiStatus
  log : s.log = s₁.log

theorem completeTransfer_finished {s₁ s : Ncr53c94 ι ω} (hc : s.commandPhase = false)
    (ho : s.dataOutPhase = false) (hs : s.scsiStatus = s₁.scsiStatus) (hl : s.log = s₁.log) :
    Finished s₁ s.completeTransfer := by
  unfold completeTransfer
  simp only [hc, ho, Bool.false_eq_true, if_false]
  exact ⟨rfl, rfl, rfl, hs, hl⟩

/-- A byte of the data-in phase; the last one ends the phase, whatever is left
    of the transfer count. -/
theorem readDmaByte_reading {s₁ s : Ncr53c94 ι ω} {i : Nat} (h : Reading s₁ s i)
    (hi : i < s₁.data.length) :
    s.readDmaByte.1 = byteAt s₁.data i ∧
      if i + 1 < s₁.data.length then Reading s₁ s.readDmaByte.2 (i + 1)
      else Finished s₁ s.readDmaByte.2 := by
  have hpos : s.dataPosition < s.data.length := by rw [h.position, h.data]; exact hi
  unfold readDmaByte
  simp only [if_pos hpos]
  refine ⟨by rw [h.position, h.data], ?_⟩
  by_cases hlast : i + 1 < s₁.data.length
  · have hlen : ¬ s.data.length ≤ s.dataPosition + 1 := by rw [h.position, h.data]; omega
    rw [if_pos hlast, if_neg hlen]
    have hp : s.dataPosition + 1 = i + 1 := by rw [h.position]
    split_ifs
    · exact ⟨h.1, h.2, h.3, h.4, hp, h.6, h.7⟩
    · exact ⟨h.1, h.2, h.3, h.4, hp, h.6, h.7⟩
  · have hlen : s.data.length ≤ s.dataPosition + 1 := by rw [h.position, h.data]; omega
    rw [if_neg hlast, if_pos hlen]
    exact completeTransfer_finished h.3 h.2 h.6 h.7

theorem receive_reading {s₁ : Ncr53c94 ι ω} (n : Nat) :
    ∀ (s : Ncr53c94 ι ω) (i : Nat), Reading s₁ s i → i + n < s₁.data.length →
      (s.receive n).1 = (s₁.data.drop i).take n ∧ Reading s₁ (s.receive n).2 (i + n) := by
  induction n with
  | zero => intro s i h _; exact ⟨by simp [receive], h⟩
  | succ n ih =>
    intro s i h hi
    obtain ⟨h1, h2⟩ := readDmaByte_reading h (by omega)
    rw [if_pos (by omega)] at h2
    obtain ⟨h3, h4⟩ := ih _ _ h2 (by omega)
    have hr : s.receive (n + 1) =
        (s.readDmaByte.1 :: (receive s.readDmaByte.2 n).1, (receive s.readDmaByte.2 n).2) := rfl
    rw [hr]
    refine ⟨?_, by rw [Nat.add_comm n 1, ← Nat.add_assoc]; exact h4⟩
    rw [List.drop_eq_getElem_cons (by omega), List.take_succ_cons, h3, h1]
    simp [byteAt, List.getElem?_eq_getElem (show i < s₁.data.length by omega)]

/-- The block that reaches the end of the data. -/
theorem receive_finished {s₁ : Ncr53c94 ι ω} (n : Nat) :
    ∀ (s : Ncr53c94 ι ω) (i : Nat), Reading s₁ s i → i + n + 1 = s₁.data.length →
      (s.receive (n + 1)).1 = s₁.data.drop i ∧ Finished s₁ (s.receive (n + 1)).2 := by
  induction n with
  | zero =>
    intro s i h hi
    obtain ⟨h1, h2⟩ := readDmaByte_reading h (by omega)
    rw [if_neg (by omega)] at h2
    refine ⟨?_, h2⟩
    rw [List.drop_eq_getElem_cons (by omega), List.drop_eq_nil_of_le (by omega)]
    simp [receive, h1, byteAt, List.getElem?_eq_getElem (show i < s₁.data.length by omega)]
  | succ n ih =>
    intro s i h hi
    obtain ⟨h1, h2⟩ := readDmaByte_reading h (by omega)
    rw [if_pos (by omega)] at h2
    obtain ⟨h3, h4⟩ := ih _ _ h2 (by omega)
    have hr : s.receive (n + 1 + 1) =
        (s.readDmaByte.1 :: (receive s.readDmaByte.2 (n + 1)).1,
          (receive s.readDmaByte.2 (n + 1)).2) := rfl
    rw [hr]
    refine ⟨?_, h4⟩
    rw [List.drop_eq_getElem_cons (by omega), h3, h1]
    simp [byteAt, List.getElem?_eq_getElem (show i < s₁.data.length by omega)]

/-- Counts that a block can be programmed with. -/
def Programmable (counts : List Nat) : Prop := ∀ count ∈ counts, 0 < count ∧ count < 2 ^ 24

/-- **The data-in phase.**  However it is cut, the blocks deliver the rest of the
    data and the phase ends with the last of them. -/
theorem receiveBlocks_data (overread : List UInt8 → Nat → List UInt8) {s₁ : Ncr53c94 ι ω}
    (counts : List Nat) :
    ∀ (s : Ncr53c94 ι ω) (i : Nat), Reading s₁ s i → Programmable counts → counts ≠ [] →
      i + counts.sum = s₁.data.length →
      (s.receiveBlocks overread counts).1 = s₁.data.drop i ∧
        Finished s₁ (s.receiveBlocks overread counts).2 := by
  induction counts with
  | nil => intro s i _ _ hne; exact absurd rfl hne
  | cons count counts ih =>
    intro s i h hok _ hsum
    obtain ⟨h0, h24⟩ := hok count (List.mem_cons_self ..)
    have hok' : Programmable counts := fun c hc => hok c (List.mem_cons_of_mem _ hc)
    obtain ⟨registers, commands, status, hrun⟩ := startBlock_eq overread h.commandPhase h0 h24
    have hR : Reading s₁ (run (access overread) s (startBlock count)) i := by
      rw [hrun]; exact ⟨h.1, h.2, h.3, h.4, h.5, h.6, h.7⟩
    rw [List.sum_cons] at hsum
    have hr : s.receiveBlocks overread (count :: counts) =
        ((receive (run (access overread) s (startBlock count)) count).1 ++
          (receiveBlocks overread (receive (run (access overread) s (startBlock count)) count).2
            counts).1,
          (receiveBlocks overread (receive (run (access overread) s (startBlock count)) count).2
            counts).2) := rfl
    rw [hr]
    generalize run (access overread) s (startBlock count) = u at hR
    rcases counts with _ | ⟨next, counts⟩
    · obtain ⟨n, rfl⟩ : ∃ n, count = n + 1 := ⟨count - 1, by omega⟩
      obtain ⟨h1, h2⟩ := receive_finished n u i hR (by simpa [Nat.add_assoc] using hsum)
      exact ⟨by simpa [receiveBlocks] using h1, h2⟩
    · have hpos := (hok' next (List.mem_cons_self ..)).1
      have hlt : i + count < s₁.data.length := by rw [← hsum, List.sum_cons]; omega
      obtain ⟨h1, h2⟩ := receive_reading count u i hR hlt
      obtain ⟨h3, h4⟩ := ih _ _ h2 hok' (by simp) (by omega)
      refine ⟨?_, h4⟩
      rw [h1, h3, ← List.drop_drop, List.take_append_drop]

/-! ## The data-out phase -/

omit [ScsiTarget ι ω] in
/-- The data-out phase that began in `s₁`, with the bytes `received`. -/
structure Filling (s₁ s : Ncr53c94 ι ω) (target : ι) (received : List UInt8) : Prop where
  dataIn : s.dataIn = false
  dataOutPhase : s.dataOutPhase = true
  commandPhase : s.commandPhase = false
  target : s.targets s.targetId = some target
  cdb : s.cdb = s₁.cdb
  dataOut : s.dataOut = received
  world : s.world = s₁.world
  log : s.log = s₁.log

omit [ScsiTarget ι ω] in
/-- No phase is active, and `log` is what happened. -/
structure Ended (s : Ncr53c94 ι ω) (log : List (CdbEvent ι)) : Prop where
  dataIn : s.dataIn = false
  dataOutPhase : s.dataOutPhase = false
  commandPhase : s.commandPhase = false
  log : s.log = log

/-- The call that a data-out phase of `s₁` with the given bytes ends in. -/
def outCall (s₁ : Ncr53c94 ι ω) (target : ι) (dataOut : List UInt8) : CdbEvent ι :=
  .execute target s₁.cdb dataOut (ScsiTarget.executeCommand s₁.world target s₁.cdb dataOut).1

/-- A byte of the data-out phase: the first terminal count calls the target. -/
theorem writeDmaByte_filling {s₁ s : Ncr53c94 ι ω} {target : ι} {received : List UInt8}
    (h : Filling s₁ s target received) {c : Nat} (hc : s.transferCount = c + 1) (value : UInt8) :
    if c = 0 then Ended (s.writeDmaByte value) (s₁.log ++ [outCall s₁ target (received ++ [value])])
    else Filling s₁ (s.writeDmaByte value) target (received ++ [value]) ∧
      (s.writeDmaByte value).transferCount = c := by
  have hcount : s.transferCount - 1 = c := by rw [hc]; rfl
  unfold writeDmaByte
  simp only [h.commandPhase, Bool.false_eq_true, if_false, hcount, h.dataOut]
  by_cases h0 : c = 0
  · rw [if_pos h0, if_neg (by simpa using h0)]
    unfold completeTransfer
    simp only [h.dataOutPhase, Bool.false_eq_true, if_false, if_true, h.target]
    refine ⟨rfl, rfl, rfl, ?_⟩
    simp only [raiseInterrupt, callTarget, record, outCall, h.cdb, h.world, h.log]
  · rw [if_neg h0, if_pos h0]
    exact ⟨⟨h.1, h.2, rfl, h.4, h.5, rfl, h.7, h.8⟩, rfl⟩

/-- A block calls the target with everything received up to its end. -/
theorem sendBlock_filling {s₁ : Ncr53c94 ι ω} {target : ι} (bytes : List UInt8) :
    ∀ (s : Ncr53c94 ι ω) (received : List UInt8), Filling s₁ s target received →
      s.transferCount = bytes.length → bytes ≠ [] →
      Ended (bytes.foldl writeDmaByte s) (s₁.log ++ [outCall s₁ target (received ++ bytes)]) := by
  induction bytes with
  | nil => intro s received _ _ hne; exact absurd rfl hne
  | cons value bytes ih =>
    intro s received h hc _
    have hw := writeDmaByte_filling h hc value
    rw [List.foldl_cons, List.append_cons received value bytes]
    rcases bytes with _ | ⟨next, bytes⟩
    · rw [if_pos List.length_nil] at hw
      rw [List.append_nil]; exact hw
    · rw [if_neg (by simp)] at hw
      exact ih _ _ hw.1 hw.2 (by simp)

/-- After the call nothing reaches the target any more. -/
theorem writeDmaByte_ended {s : Ncr53c94 ι ω} {log : List (CdbEvent ι)} (h : Ended s log)
    (value : UInt8) : Ended (s.writeDmaByte value) log := by
  unfold writeDmaByte
  simp only [h.commandPhase, Bool.false_eq_true, if_false]
  by_cases h0 : s.transferCount - 1 = 0
  · rw [if_neg (by simpa using h0)]
    unfold completeTransfer
    simp only [h.dataOutPhase, Bool.false_eq_true, if_false]
    exact ⟨rfl, rfl, rfl, h.4⟩
  · rw [if_pos h0]
    exact ⟨h.1, h.2, rfl, h.4⟩

theorem sendBlocks_ended (overread : List UInt8 → Nat → List UInt8) {log : List (CdbEvent ι)}
    (counts : List Nat) :
    ∀ (s : Ncr53c94 ι ω) (payload : List UInt8), Ended s log → Programmable counts →
      Ended (s.sendBlocks overread counts payload) log := by
  induction counts with
  | nil => intro s _ h _; exact h
  | cons count counts ih =>
    intro s payload h hok
    obtain ⟨h0, h24⟩ := hok count (List.mem_cons_self ..)
    obtain ⟨registers, commands, status, hrun⟩ := startBlock_eq overread h.commandPhase h0 h24
    have hE : Ended (run (access overread) s (startBlock count)) log := by
      rw [hrun]; exact ⟨h.1, h.2, h.3, h.4⟩
    have hsent : Ended ((payload.take count).foldl writeDmaByte
        (run (access overread) s (startBlock count))) log :=
      run_inv (I := fun u => Ended u log) (fun u value hu => writeDmaByte_ended hu value) hE _
    exact ih _ _ hsent fun c hc => hok c (List.mem_cons_of_mem _ hc)

/-- **The data-out phase.**  The target is called once, with the first block. -/
theorem sendBlocks_log (overread : List UInt8 → Nat → List UInt8) {s : Ncr53c94 ι ω} {target : ι}
    (h : Filling s s target []) {count : Nat} {counts : List Nat}
    (hok : Programmable (count :: counts)) {payload : List UInt8} (hlen : count ≤ payload.length) :
    Ended (s.sendBlocks overread (count :: counts) payload)
      (s.log ++ [outCall s target (payload.take count)]) := by
  obtain ⟨h0, h24⟩ := hok count (List.mem_cons_self ..)
  obtain ⟨registers, commands, status, hrun⟩ := startBlock_eq overread h.commandPhase h0 h24
  have hF : Filling s (run (access overread) s (startBlock count)) target [] := by
    rw [hrun]; exact ⟨h.1, h.2, h.3, h.4, h.5, h.6, h.7, h.8⟩
  have hcount : (run (access overread) s (startBlock count)).transferCount =
      (payload.take count).length := by
    rw [hrun, List.length_take]
    exact (Nat.min_eq_left hlen).symm
  have hne : payload.take count ≠ [] := by
    intro hnil
    have := congrArg List.length hnil
    rw [List.length_take, List.length_nil] at this
    omega
  have hE := sendBlock_filling _ _ _ hF hcount hne
  exact sendBlocks_ended overread counts _ _ hE fun c hc => hok c (List.mem_cons_of_mem _ hc)

/-! ## Blocks make no difference -/

/-- Two ways of cutting a data phase did the same: the bytes received, the calls
    of targets and the SCSI status. -/
def SameBlocks (a b : List UInt8 × Ncr53c94 ι ω) : Prop :=
  a.1 = b.1 ∧ a.2.log = b.2.log ∧ a.2.scsiStatus = b.2.scsiStatus

/-- A CDB whose target answers with data begins a data-in phase. -/
theorem startCdb_reading {t : Ncr53c94 ι ω} (hc : t.commandPhase = false) {target : ι}
    (ho : isDataOut (byteAt t.cdb 0) = false) (hin : (t.startCdb target).dataIn) :
    Reading (t.startCdb target) (t.startCdb target) 0 := by
  refine ⟨hin, ?_, ?_, rfl, ?_, rfl, rfl⟩
  all_goals simp [startCdb, ho, raiseInterrupt, callTarget, record, hc]

/-- A data-out CDB begins a data-out phase without bytes. -/
theorem startCdb_filling {t : Ncr53c94 ι ω} (hc : t.commandPhase = false) {target : ι}
    (ht : t.targets t.targetId = some target) (ho : isDataOut (byteAt t.cdb 0)) :
    Filling (t.startCdb target) (t.startCdb target) target [] := by
  refine ⟨?_, ?_, ?_, ?_, rfl, ?_, rfl, rfl⟩
  all_goals simp [startCdb, ho, raiseInterrupt, hc, ht]

/-- **Blocks.**  For every CDB that `executeCdb` starts on a target, with a data
    phase, for every payload and every way of cutting the phase into nonzero
    counts that add up to its length, cutting makes no difference to one full
    block iff the CDB starts no data-out phase or there is one block. -/
theorem sameBlocks_iff (overread : List UInt8 → Nat → List UInt8) {t : Ncr53c94 ι ω}
    (hc : t.commandPhase = false) {target : ι} (ht : t.targets t.targetId = some target)
    {payload : List UInt8} {counts : List Nat} {n : Nat} (hn : 0 < n ∧ n < 2 ^ 24)
    (hphase : if isDataOut (byteAt t.cdb 0) then payload.length = n
      else (t.startCdb target).dataIn ∧ (t.startCdb target).data.length = n)
    (hok : Programmable counts) (hsum : counts.sum = n) :
    SameBlocks ((t.startCdb target).transfer overread payload counts)
        ((t.startCdb target).transfer overread payload [n]) ↔
      isDataOut (byteAt t.cdb 0) = false ∨ counts.length = 1 := by
  have hokn : Programmable [n] := by
    intro c hcn
    rw [List.mem_singleton.1 hcn]; exact hn
  have hne : counts ≠ [] := by
    rintro rfl
    rw [List.sum_nil] at hsum
    omega
  by_cases ho : isDataOut (byteAt t.cdb 0)
  · rw [if_pos ho] at hphase
    have hF := startCdb_filling hc ht ho
    obtain ⟨count, rest, rfl⟩ := List.exists_cons_of_ne_nil hne
    have hcount : count ≤ payload.length := by rw [List.sum_cons] at hsum; omega
    have h1 := sendBlocks_log overread hF hok hcount
    have h2 := sendBlocks_log overread hF hokn (Nat.le_of_eq hphase.symm)
    have hin : (t.startCdb target).dataIn = false := hF.dataIn
    constructor
    · -- the calls are the same only if the first block is the whole payload
      intro hsame
      have hlog := hsame.2.1
      simp only [transfer, hin, Bool.false_eq_true, if_false, h1.log, h2.log,
        List.append_cancel_left_eq, outCall, List.cons.injEq, CdbEvent.execute.injEq] at hlog
      have htake := congrArg List.length hlog.1.2.2.1
      rw [List.length_take, List.length_take] at htake
      have hrest : rest = [] := by
        rcases rest with _ | ⟨next, rest⟩
        · rfl
        · have hpos := (hok next (by simp)).1
          rw [List.sum_cons, List.sum_cons] at hsum
          omega
      exact Or.inr (by rw [hrest]; rfl)
    · rintro (h | h)
      · rw [ho] at h; exact absurd h (by simp)
      · have hrest : rest = [] := List.length_eq_zero_iff.1 (by simpa using h)
        subst hrest
        rw [List.sum_singleton] at hsum
        rw [hsum]
        exact ⟨rfl, rfl, rfl⟩
  · rw [if_neg ho] at hphase
    have ho' : isDataOut (byteAt t.cdb 0) = false := by simpa using ho
    have hR := startCdb_reading hc ho' hphase.1
    obtain ⟨h1, h2⟩ := receiveBlocks_data overread counts _ 0 hR hok hne (by omega)
    obtain ⟨h3, h4⟩ := receiveBlocks_data overread [n] _ 0 hR hokn (by simp) (by simp [hphase.2])
    refine ⟨fun _ => Or.inl ho', fun _ => ?_⟩
    simp only [SameBlocks, transfer, hphase.1, if_true]
    exact ⟨h1.trans h3.symm, h2.log.trans h4.log.symm, h2.scsiStatus.trans h4.scsiStatus.symm⟩

end

/-- A chip with an attached target that answers with two bytes. -/
def twoByteChip : Ncr53c94 FixedTarget Unit :=
  initial (fun _ => some ⟨{ data := [0x00, 0x80] }⟩) ()

theorem sameBlocks_iff_inquiry :
    SameBlocks
        (({ twoByteChip with cdb := [0x12, 0, 0, 0, 2, 0] }.startCdb ⟨{ data := [0x00, 0x80] }⟩
          ).transfer (fun _ _ => []) [] [1, 1])
        (({ twoByteChip with cdb := [0x12, 0, 0, 0, 2, 0] }.startCdb ⟨{ data := [0x00, 0x80] }⟩
          ).transfer (fun _ _ => []) [] [2]) ↔
      isDataOut (byteAt [0x12, 0, 0, 0, 2, 0] 0) = false ∨ [1, 1].length = 1 :=
  sameBlocks_iff _ rfl rfl (by decide) (by decide) (by unfold Programmable; decide) rfl

/-- The CDB 15 00 00 00 02 00, selected from the FIFO. -/
def selectModeSelect : List Access :=
  [.writeRegister 2 0x15, .writeRegister 2 0, .writeRegister 2 0, .writeRegister 2 0,
   .writeRegister 2 2, .writeRegister 2 0, .writeRegister 3 0x41]

/-- Two parameter bytes in two blocks: the target is called with the first. -/
theorem twoBlocks_not_same :
    ¬ SameBlocks
      ((run (access fun _ _ => []) twoByteChip selectModeSelect).transfer (fun _ _ => [])
        [0x01, 0x02] [1, 1])
      ((run (access fun _ _ => []) twoByteChip selectModeSelect).transfer (fun _ _ => [])
        [0x01, 0x02] [2]) := by
  intro h
  have hl := h.2.1
  revert hl
  decide +kernel

end Ncr53c94

end CuteMac.Scsi
