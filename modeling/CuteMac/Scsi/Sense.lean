/-
  Sense data: what REQUEST SENSE reports about the command before.

  * `SenseLaw`: after a CHECK CONDITION the sense key of that command is
    reported, after a GOOD command of a unit that is ready NO SENSE;
  * `keepsSense`, `refusesQuietly`: the commands that end without storing how
    they ended;
  * `senseLaw_iff`: the law holds at exactly the commands that are of neither
    kind or find the right key stored already, for both devices.
-/
import CuteMac.Scsi.CdRomDevice

namespace CuteMac.Scsi

open Machine (Guarded)

/-! ## The law -/

/-- A REQUEST SENSE whose allocation length leaves room for the sense data. -/
def IsRequestSense (cdb : List UInt8) : Prop :=
  byteAt cdb 0 = 0x03 ∧ 4 < cdb.length ∧ 14 ≤ (byteAt cdb 4).toNat

/-- Every such REQUEST SENSE succeeds and reports the sense key. -/
def Reports (execute : List UInt8 → List UInt8 → ScsiCommandResult) (senseKey : UInt8) : Prop :=
  ∀ cdb dataOut, IsRequestSense cdb →
    (execute cdb dataOut).status = 0 ∧ byteAt (execute cdb dataOut).data 2 = senseKey

section
variable {δ : Type}

/-- **Sense data describes the last command**: for a device that executes
    commands by `execute` and is `settled` when it has nothing else to report. -/
def SenseLaw (execute : δ → List UInt8 → List UInt8 → ScsiCommandResult × δ) (settled : δ → Prop)
    (d : δ) (cdb dataOut : List UInt8) : Prop :=
  let x := execute d cdb dataOut
  (x.1.status = 0x02 → Reports (fun c o => (execute x.2 c o).1) x.1.senseKey) ∧
    (x.1.status = 0x00 → settled x.2 → Reports (fun c o => (execute x.2 c o).1) 0)

/-- Reporting is reporting the key in the state `key d`. -/
theorem senseLaw_of_reports {execute : δ → List UInt8 → List UInt8 → ScsiCommandResult × δ}
    {settled : δ → Prop} {key : δ → UInt8}
    (h : ∀ d k, Reports (fun c o => (execute d c o).1) k ↔ key d = k) (d : δ)
    (cdb dataOut : List UInt8) :
    SenseLaw execute settled d cdb dataOut ↔
      ((execute d cdb dataOut).1.status = 0x02 →
        key (execute d cdb dataOut).2 = (execute d cdb dataOut).1.senseKey) ∧
      ((execute d cdb dataOut).1.status = 0x00 → settled (execute d cdb dataOut).2 →
        key (execute d cdb dataOut).2 = 0) := by
  simp only [SenseLaw, h]

end

/-- Sense data of full length show the key in byte 2. -/
theorem byteAt_take_two {data : List UInt8} {n : Nat} (hn : 14 ≤ n) :
    byteAt (data.take n) 2 = byteAt data 2 := by
  simp only [byteAt, List.getD_eq_getElem?_getD, List.getElem?_take_of_lt (show 2 < n by omega)]

/-- The REQUEST SENSE with an allocation length of 18. -/
def requestSenseCdb : List UInt8 := [0x03, 0, 0, 0, 18, 0]

theorem isRequestSense_requestSenseCdb : IsRequestSense requestSenseCdb := by
  refine ⟨rfl, ?_, ?_⟩ <;> decide

/-! ## The hard disk -/

namespace ScsiBlockDevice

variable {host : Host} {d : ScsiBlockDevice} {cdb dataOut : List UInt8}

theorem executeCommand_requestSense (h : IsRequestSense cdb) :
    d.executeCommand host cdb dataOut = (d.requestSense (byteAt cdb 4), d) := by
  obtain ⟨hop, hlen, _⟩ := h
  have hne : cdb ≠ [] := by rintro rfl; simp at hlen
  rw [executeCommand, if_neg hne, if_neg (by simp [hop]), dispatch, hop]
  simp only [show (0x03 : UInt8).toNat = 0x03 from rfl, if_pos hlen]

theorem reports_iff (d : ScsiBlockDevice) (k : UInt8) :
    Reports (fun c o => (d.executeCommand host c o).1) k ↔ d.senseKey = k := by
  have hdata (c : List UInt8) (h : IsRequestSense c) :
      byteAt (d.requestSense (byteAt c 4)).data 2 = d.senseKey := by
    rw [requestSense, good, clipped, byteAt_take_two h.2.2]
    rfl
  constructor
  · intro h
    have h2 := (h requestSenseCdb [] isRequestSense_requestSenseCdb).2
    simp only [executeCommand_requestSense isRequestSense_requestSenseCdb,
      hdata _ isRequestSense_requestSenseCdb] at h2
    exact h2
  · intro h c o hc
    simp only [executeCommand_requestSense hc, hdata c hc]
    exact ⟨rfl, h⟩

/-- The commands that end GOOD without touching the sense key: all that succeed
    except the reads and writes of at least one block. -/
def keepsSense (d : ScsiBlockDevice) (cdb dataOut : List UInt8) : Bool :=
  match (byteAt cdb 0).toNat with
  | 0x00 | 0x01 | 0x03 | 0x04 | 0x0b | 0x15 | 0x25 | 0x2b | 0x35 => true
  | 0x12 =>
    let pageCode := if 2 < cdb.length then byteAt cdb 2 else 0
    if 1 < cdb.length ∧ byteAt cdb 1 &&& 0x01 ≠ 0 then (vitalProductData pageCode).isSome
    else pageCode == 0
  | 0x1a => hasModePage (if 2 < cdb.length then byteAt cdb 2 &&& 0x3f else 0x3f)
  | 0x28 => 10 ≤ cdb.length ∧ be16At cdb 7 = 0
  | 0x2a => 10 ≤ cdb.length ∧ !d.readOnly ∧ be16At cdb 7 = 0 ∧ dataOut = []
  | 0x2f =>
    10 ≤ cdb.length ∧ byteAt cdb 1 &&& 0x02 = 0 ∧ be32At cdb 2 ≤ d.blockCount ∧
      be16At cdb 7 ≤ d.blockCount - be32At cdb 2
  | 0x37 => 10 ≤ cdb.length
  | _ => false

/-- The law for a command that ends with this answer in this state. -/
def Described (x : ScsiCommandResult × ScsiBlockDevice) : Prop :=
  (x.1.status = 0x02 → x.2.senseKey = x.1.senseKey) ∧
    (x.1.status = 0x00 → x.2.ready = true → x.2.senseKey = 0)

@[simp] theorem described_good (data : List UInt8) :
    Described (good data, d) ↔ (d.ready = true → d.senseKey = 0) := by
  simp [Described, good, statusGood]

@[simp] theorem described_requestSense (n : UInt8) :
    Described (d.requestSense n, d) ↔ (d.ready = true → d.senseKey = 0) :=
  described_good _

@[simp] theorem described_readCapacity :
    Described (d.readCapacity, d) ↔ (d.ready = true → d.senseKey = 0) :=
  described_good _

@[simp] theorem described_checkCondition (k : UInt8) : Described (d.checkCondition k) := by
  simp [Described, checkCondition, statusCheckCondition]

@[simp] theorem described_read (lba blocks : Nat) : Described (d.read lba blocks) := by
  simp only [read]
  split
  · rename_i h
    exact (described_good _).mpr fun _ => h
  · exact described_checkCondition _

@[simp] theorem described_write (lba : Nat) (bytes : List UInt8) :
    Described (d.write host lba bytes) := by
  simp only [write, writeBlocks]
  split_ifs <;> simp_all [senseNoSense]

theorem described_inquiry (evpd : Bool) (pageCode n : UInt8) :
    Described (d.inquiry evpd pageCode n) ↔
      ((if evpd then (vitalProductData pageCode).isSome else pageCode == 0) →
        d.ready = true → d.senseKey = 0) := by
  unfold inquiry
  cases evpd with
  | true => cases h : vitalProductData pageCode <;> simp
  | false => by_cases h : pageCode = 0 <;> simp [h]

theorem described_modeSense (dbd : Bool) (pageCode n : UInt8) :
    Described (d.modeSense dbd pageCode n) ↔
      (hasModePage pageCode → d.ready = true → d.senseKey = 0) := by
  simp only [modeSense]
  cases h : hasModePage pageCode <;> simp

/-- **The disk obeys the law at a command exactly if** the command stores how it
    ends, or NO SENSE is stored already. -/
theorem described_dispatch :
    Described (d.dispatch host cdb dataOut) ↔
      (d.keepsSense cdb dataOut → d.ready = true → d.senseKey = 0) := by
  unfold dispatch keepsSense
  split <;> rename_i h
  all_goals try simp only [h, described_good, described_requestSense, described_readCapacity,
    described_inquiry, described_modeSense, true_implies]
  case h_5 => split_ifs <;> simp
  case h_6 => split_ifs <;> simp
  case h_8 => simp
  case h_12 =>
    split_ifs with h₁ h₂
    · simp [Nat.not_le.mpr h₁]
    · simp [Nat.not_lt.mp h₁, h₂]
    · simp [h₂]
  case h_13 =>
    split_ifs with h₁ h₂ h₃
    · rcases h₁ with h₁ | h₁
      · simp [Nat.not_le.mpr h₁]
      · simp [h₁]
    · have hne : ¬ (be16At cdb 7 = 0 ∧ dataOut = []) := by
        rintro ⟨h0, rfl⟩
        exact h₂ (by simp [h0])
      simp [hne]
    · have hout : dataOut = [] := by
        rw [Decidable.not_not, h₃, Nat.zero_mul] at h₂
        exact List.eq_nil_of_length_eq_zero h₂
      rw [not_or] at h₁
      simp [Nat.not_lt.mp h₁.1, h₁.2, h₃, hout]
    · simp [h₃]
  case h_16 =>
    split_ifs with h₁ h₂
    · rcases h₁ with h₁ | h₁
      · simp [Nat.not_le.mpr h₁]
      · simp [h₁]
    · rw [not_or, Decidable.not_not] at h₁
      simp [Nat.not_lt.mp h₁.1, h₁.2, h₂]
    · simp [h₂]
  case h_17 =>
    split_ifs with h₁
    · simp [Nat.not_le.mpr h₁]
    · simp [Nat.not_lt.mp h₁]
  case h_18 => simp

theorem described_executeCommand (hne : cdb ≠ []) :
    Described (d.executeCommand host cdb dataOut) ↔
      (d.keepsSense cdb dataOut → d.ready = true → d.senseKey = 0) := by
  rw [executeCommand, if_neg hne]
  split_ifs with h
  · have hr : d.ready = false := by simpa using h.1
    simp [hr]
  · exact described_dispatch

theorem senseLaw_iff_stored (hne : cdb ≠ []) :
    SenseLaw (executeCommand host) (fun d => d.ready = true) d cdb dataOut ↔
      (d.keepsSense cdb dataOut → d.ready = true → d.senseKey = 0) := by
  rw [senseLaw_of_reports (fun d k => reports_iff d k)]
  exact described_executeCommand hne

/-- The law at a step of a run. -/
def LawAt (d : ScsiBlockDevice) : Host × Op → Prop
  | (host, .executeCommand cdb dataOut) =>
    cdb ≠ [] → SenseLaw (executeCommand host) (fun d => d.ready = true) d cdb dataOut
  | _ => True

/-- NO SENSE is stored before every command that keeps the stored key. -/
def StoredAt (d : ScsiBlockDevice) : Host × Op → Prop
  | (_, .executeCommand cdb dataOut) =>
    cdb ≠ [] → d.keepsSense cdb dataOut → d.ready = true → d.senseKey = 0
  | _ => True

theorem lawAt_iff (d : ScsiBlockDevice) (a : Host × Op) : d.LawAt a ↔ d.StoredAt a := by
  rcases a with ⟨host, op⟩
  cases op with
  | executeCommand cdb dataOut =>
    exact ⟨fun h hne => (senseLaw_iff_stored hne).mp (h hne),
      fun h hne => (senseLaw_iff_stored hne).mpr (h hne)⟩
  | _ => exact Iff.rfl

end ScsiBlockDevice

/-! ## The CD-ROM drive -/

namespace ScsiCdRomDevice

variable {d : ScsiCdRomDevice} {cdb dataOut : List UInt8}

theorem executeCommand_requestSense (h : IsRequestSense cdb) :
    d.executeCommand cdb dataOut = d.requestSense (byteAt cdb 4) := by
  obtain ⟨hop, hlen, _⟩ := h
  have hne : cdb ≠ [] := by rintro rfl; simp at hlen
  simp only [executeCommand, hop]
  rw [if_neg hne, if_neg (by simp), if_neg (by simp [allowedWithoutMedium]), dispatch, hop]
  simp only [show (0x03 : UInt8).toNat = 0x03 from rfl, if_pos hlen]

theorem reports_iff (d : ScsiCdRomDevice) (k : UInt8) :
    Reports (fun c o => (d.executeCommand c o).1) k ↔ d.senseKey = k := by
  have hdata (c : List UInt8) (h : IsRequestSense c) :
      byteAt (d.requestSense (byteAt c 4)).1.data 2 = d.senseKey := by
    rw [requestSense, good, byteAt_take_two h.2.2]
    rfl
  constructor
  · intro h
    have h2 := (h requestSenseCdb [] isRequestSense_requestSenseCdb).2
    simp only [executeCommand_requestSense isRequestSense_requestSenseCdb,
      hdata _ isRequestSense_requestSenseCdb] at h2
    exact h2
  · intro h c o hc
    simp only [executeCommand_requestSense hc, hdata c hc]
    exact ⟨rfl, h⟩

/-- What `modeSelect` accepts. -/
def acceptsModeSelect (tenByte : Bool) (parameters : List UInt8) : Bool :=
  let headerSize := if tenByte then 8 else 4
  let descriptorLength := if tenByte then be16At parameters 6 else (byteAt parameters 3).toNat
  let requestedBlockSize :=
    (byteAt parameters (headerSize + 5)).toNat <<< 16 |||
      (byteAt parameters (headerSize + 6)).toNat <<< 8 ||| (byteAt parameters (headerSize + 7)).toNat
  parameters = [] ∨ headerSize ≤ parameters.length ∧ (descriptorLength = 0 ∨
    8 ≤ descriptorLength ∧ headerSize + descriptorLength ≤ parameters.length ∧
      (requestedBlockSize = 512 ∨ requestedBlockSize = 1024 ∨ requestedBlockSize = blockSize))

/-- What `readToc` accepts. -/
def acceptsReadToc (cdb : List UInt8) : Bool :=
  10 ≤ cdb.length ∧ (byteAt cdb 6 = 0 ∨ byteAt cdb 6 = 1 ∨ byteAt cdb 6 = 0xaa)

/-- Whether the raw blocks are on the disc. -/
def hasRawBlocks (d : ScsiCdRomDevice) (lba blocks : Nat) : Bool :=
  lba ≤ d.blockCount ∧ blocks ≤ d.blockCount - lba

/-- The commands that end CHECK CONDITION without storing the sense data. -/
def refusesQuietly (cdb : List UInt8) : Bool :=
  match (byteAt cdb 0).toNat with
  | 0x1a => !hasModePage (if 2 < cdb.length then byteAt cdb 2 &&& 0x3f else 0x3f)
  | 0x43 => !acceptsReadToc cdb
  | 0x5a => 10 ≤ cdb.length ∧ !hasModePage (byteAt cdb 2 &&& 0x3f)
  | _ => false

/-- The commands that end GOOD without touching the sense data: all that succeed
    except REQUEST SENSE, an eject and the reads of logical blocks. -/
def keepsSense (d : ScsiCdRomDevice) (cdb dataOut : List UInt8) : Bool :=
  let startFrames := msfFrames (byteAt cdb 3) (byteAt cdb 4) (byteAt cdb 5)
  let endFrames := msfFrames (byteAt cdb 7) (byteAt cdb 8) (byteAt cdb 9)
  match (byteAt cdb 0).toNat with
  | 0x00 | 0x12 | 0x1e | 0x25 => true
  | 0x15 => acceptsModeSelect false dataOut
  | 0x1a => hasModePage (if 2 < cdb.length then byteAt cdb 2 &&& 0x3f else 0x3f)
  | 0x1b => !ejects cdb
  | 0x43 => acceptsReadToc cdb
  | 0x55 => acceptsModeSelect true dataOut
  | 0x5a => 10 ≤ cdb.length ∧ hasModePage (byteAt cdb 2 &&& 0x3f)
  | 0xd8 =>
    12 ≤ cdb.length ∧ byteAt cdb 10 = 0 ∧ d.hasRawBlocks (be32At cdb 2) (be32At cdb 6)
  | 0xd9 =>
    12 ≤ cdb.length ∧ byteAt cdb 10 = 0 ∧ 150 ≤ startFrames ∧ startFrames ≤ endFrames ∧
      d.hasRawBlocks (startFrames - 150) (endFrames - startFrames)
  | _ => false

/-- Nothing is left to report: no unit attention, and a disc is there. -/
def Settled (d : ScsiCdRomDevice) : Prop := d.unitAttention = false ∧ d.ready = true

/-- The law for a command that ends with this answer in this state. -/
def Described (x : ScsiCommandResult × ScsiCdRomDevice) : Prop :=
  (x.1.status = 0x02 → x.2.senseKey = x.1.senseKey) ∧
    (x.1.status = 0x00 → Settled x.2 → x.2.senseKey = 0)

@[simp] theorem described_good (data : List UInt8) :
    Described (good data, d) ↔ (d.Settled → d.senseKey = 0) := by
  simp [Described, good]

@[simp] theorem described_refused (k : UInt8) : Described (refused k, d) ↔ d.senseKey = k := by
  simp [Described, refused]

@[simp] theorem described_checkCondition (k asc : UInt8) : Described (d.checkCondition k asc) := by
  simp [Described, checkCondition, refused]

@[simp] theorem described_eject (data : List UInt8) : Described (good data, d.eject) := by
  simp [eject, Settled]

@[simp] theorem described_read (lba blocks : Nat) : Described (d.read lba blocks) := by
  simp only [read]
  split_ifs <;> simp [senseNoSense]

@[simp] theorem described_requestSense (n : UInt8) : Described (d.requestSense n) := by
  rw [requestSense, described_good]
  rintro ⟨-, hr⟩
  have hd : d.ready = true := hr
  simp [acknowledgeMediaChange, hd, senseNoSense]

theorem described_readAppleRaw (lba blocks : Nat) :
    Described (d.readAppleRaw lba blocks) ↔
      (d.hasRawBlocks lba blocks → d.Settled → d.senseKey = 0) := by
  unfold readAppleRaw hasRawBlocks
  split_ifs with h
  · have hno : ¬ (lba ≤ d.blockCount ∧ blocks ≤ d.blockCount - lba) := by omega
    simp [hno]
  · have hyes : lba ≤ d.blockCount ∧ blocks ≤ d.blockCount - lba := by omega
    simp only [described_good, decide_eq_true hyes, true_implies]
    rfl

theorem described_modeSelect (tenByte : Bool) (parameters : List UInt8) :
    Described (d.modeSelect tenByte parameters) ↔
      (acceptsModeSelect tenByte parameters → d.Settled → d.senseKey = 0) := by
  simp only [modeSelect, acceptsModeSelect]
  generalize (if tenByte then 8 else 4 : Nat) = headerSize
  generalize (if tenByte then be16At parameters 6 else (byteAt parameters 3).toNat) = length
  generalize (byteAt parameters (headerSize + 5)).toNat <<< 16 ||| _ ||| _ = size
  split_ifs with h₁ h₂ h₃ h₄ h₅
  · simp [h₁]
  · simp [h₁, Nat.not_le.mpr h₂]
  · simp [Nat.not_lt.mp h₂, h₃]
  · have hno : ¬ (8 ≤ length ∧ headerSize + length ≤ parameters.length) := by omega
    simp only [described_checkCondition, h₁, h₃, false_or, ← and_assoc, hno, false_and, and_false]
    simp
  · have hno : ¬ (size = 512 ∨ size = 1024 ∨ size = blockSize) := by tauto
    simp [h₁, h₃, hno]
  · have hfit : 8 ≤ length ∧ headerSize + length ≤ parameters.length := by omega
    have hsize : size = 512 ∨ size = 1024 ∨ size = blockSize := by tauto
    simp only [described_good, h₁, h₃, hfit, hsize, Nat.not_lt.mp h₂, and_self, or_true, decide_true,
      true_implies]
    rfl

theorem described_modeSense (tenByte dbd : Bool) (pageCode : UInt8) (n : Nat) :
    Described (d.modeSense tenByte dbd pageCode n, d) ↔
      (hasModePage pageCode = false → d.senseKey = 5) ∧
      (hasModePage pageCode → d.Settled → d.senseKey = 0) := by
  simp only [modeSense]
  cases h : hasModePage pageCode <;> simp [senseIllegalRequest]

theorem described_readToc :
    Described (d.readToc cdb, d) ↔
      (acceptsReadToc cdb = false → d.senseKey = 5) ∧
      (acceptsReadToc cdb → d.Settled → d.senseKey = 0) := by
  rw [readToc, acceptsReadToc]
  by_cases h₁ : cdb.length < 10
  · rw [if_pos h₁]
    simp [Nat.not_le.mpr h₁, senseIllegalRequest]
  rw [if_neg h₁]
  by_cases h₂ : byteAt cdb 6 ≠ 0 ∧ byteAt cdb 6 ≠ 1 ∧ byteAt cdb 6 ≠ 0xaa
  · simp only [if_pos h₂]
    simp [h₂.1, h₂.2.1, h₂.2.2, senseIllegalRequest]
  · have hyes : byteAt cdb 6 = 0 ∨ byteAt cdb 6 = 1 ∨ byteAt cdb 6 = 0xaa := by tauto
    simp only [if_neg h₂, described_good]
    simp [Nat.not_lt.mp h₁, hyes]

theorem described_dispatch :
    Described (d.dispatch cdb dataOut) ↔
      (refusesQuietly cdb → d.senseKey = 5) ∧
      (d.keepsSense cdb dataOut → d.Settled → d.senseKey = 0) := by
  unfold dispatch refusesQuietly keepsSense
  split <;> rename_i h
  all_goals try simp only [h, described_good, described_checkCondition, described_requestSense,
    described_modeSelect, described_modeSense, described_readToc]
  case h_3 => split_ifs <;> simp
  case h_4 => simp [inquiry]
  case h_6 => simp
  case h_7 => cases ejects cdb <;> simp [Settled, eject]
  case h_9 => simp [readCapacity]
  case h_10 => split_ifs <;> simp
  case h_11 => simp
  case h_13 =>
    split_ifs with h₁
    · simp [Nat.not_le.mpr h₁]
    · simp [Nat.not_lt.mp h₁, described_modeSense]
  case h_14 => split_ifs <;> simp
  case h_15 =>
    split_ifs with h₁
    · rcases h₁ with h₁ | h₁
      · simp [Nat.not_le.mpr h₁]
      · simp [h₁]
    · rw [not_or, Decidable.not_not] at h₁
      simp [Nat.not_lt.mp h₁.1, h₁.2, described_readAppleRaw]
  case h_16 =>
    split_ifs with h₁ h₂
    · rcases h₁ with h₁ | h₁
      · simp [Nat.not_le.mpr h₁]
      · simp [h₁]
    · rcases h₂ with h₂ | h₂
      · simp [Nat.not_le.mpr h₂]
      · simp [Nat.not_le.mpr h₂]
    · rw [not_or, Decidable.not_not] at h₁
      rw [not_or] at h₂
      simp [Nat.not_lt.mp h₁.1, h₁.2, Nat.not_lt.mp h₂.1, Nat.not_lt.mp h₂.2,
        described_readAppleRaw]
  all_goals simp

theorem described_executeCommand (hne : cdb ≠ []) :
    Described (d.executeCommand cdb dataOut) ↔
      (d.unitAttention = false → d.ready = true ∨ allowedWithoutMedium (byteAt cdb 0) = true →
        (refusesQuietly cdb → d.senseKey = 5) ∧
        (d.keepsSense cdb dataOut → d.Settled → d.senseKey = 0)) := by
  simp only [executeCommand]
  rw [if_neg hne]
  split_ifs with h₁ h₂
  · simp [h₁.1]
  · simp_all
  · rw [described_dispatch]
    cases ha : d.unitAttention with
    | false =>
      have hr : d.ready = true ∨ allowedWithoutMedium (byteAt cdb 0) = true := by
        cases hd : d.ready <;> simp_all
      simp [hr]
    | true =>
      -- the command is REQUEST SENSE or INQUIRY, and there is something to report
      have hq : refusesQuietly cdb = false := by
        have hop : byteAt cdb 0 = 0x03 ∨ byteAt cdb 0 = 0x12 := by
          by_contra hno
          rw [not_or] at hno
          exact h₁ ⟨ha, hno⟩
        rcases hop with hop | hop <;> simp [refusesQuietly, hop]
      simp [hq, Settled, ha]

/-- The law at a step of a run. -/
def LawAt (d : ScsiCdRomDevice) : Host × Op → Prop
  | (_, .executeCommand cdb dataOut) =>
    cdb ≠ [] → SenseLaw executeCommand Settled d cdb dataOut
  | _ => True

/-- The key that is to be reported is stored before every command that does not
    store how it ends. -/
def StoredAt (d : ScsiCdRomDevice) : Host × Op → Prop
  | (_, .executeCommand cdb dataOut) =>
    cdb ≠ [] → d.unitAttention = false → d.ready = true ∨ allowedWithoutMedium (byteAt cdb 0) = true →
      (refusesQuietly cdb → d.senseKey = 5) ∧
      (d.keepsSense cdb dataOut → d.ready = true → d.senseKey = 0)
  | _ => True

theorem lawAt_iff (d : ScsiCdRomDevice) (a : Host × Op) : d.LawAt a ↔ d.StoredAt a := by
  rcases a with ⟨host, op⟩
  cases op with
  | executeCommand cdb dataOut =>
    refine forall_congr' fun hne => ?_
    rw [senseLaw_of_reports (fun d k => reports_iff d k)]
    refine (described_executeCommand hne).trans ?_
    refine forall_congr' fun ha => ?_
    simp [Settled, ha]
  | _ => exact Iff.rfl

end ScsiCdRomDevice

/-! ## Runs -/

/-- **Sense data of every run.**  In a run of either device every command obeys
    the law if and only if every command that stores no sense data of its own
    finds the key that is to be reported stored already. -/
theorem senseLaw_iff (disk : ScsiBlockDevice) (diskOps : List (Host × ScsiBlockDevice.Op))
    (drive : ScsiCdRomDevice) (driveOps : List (Host × ScsiCdRomDevice.Op)) :
    (Guarded ScsiBlockDevice.apply ScsiBlockDevice.LawAt disk diskOps ↔
      Guarded ScsiBlockDevice.apply ScsiBlockDevice.StoredAt disk diskOps) ∧
    (Guarded ScsiCdRomDevice.apply ScsiCdRomDevice.LawAt drive driveOps ↔
      Guarded ScsiCdRomDevice.apply ScsiCdRomDevice.StoredAt drive driveOps) :=
  ⟨Machine.guarded_congr ScsiBlockDevice.lawAt_iff disk diskOps,
    Machine.guarded_congr ScsiCdRomDevice.lawAt_iff drive driveOps⟩

/-- A host with one file, which is shorter than a block. -/
def oneByteHost : Host where
  readAll _ := some [0]
  writeAt _ _ _ := true

/-- A READ behind the end fails, TEST UNIT READY succeeds, and the failure is
    still reported; a MODE SENSE of a page that the empty drive does not have
    fails, and no failure is reported. -/
theorem stale_and_lost_sense :
    (¬ Guarded ScsiBlockDevice.apply ScsiBlockDevice.LawAt {}
      [(oneByteHost, .loadImage "disk" false),
        (oneByteHost, .executeCommand [0x08, 0, 0, 1, 1, 0] []),
        (oneByteHost, .executeCommand [0x00, 0, 0, 0, 0, 0] [])]) ∧
    ¬ Guarded ScsiCdRomDevice.apply ScsiCdRomDevice.LawAt {}
      [(oneByteHost, .executeCommand [0x1a, 0, 0x08, 0, 255, 0] [])] := by
  constructor
  · rintro ⟨-, -, h, -⟩
    have hs := (ScsiBlockDevice.lawAt_iff _ _).mp h (by decide) rfl rfl
    exact absurd hs (by decide)
  · rintro ⟨h, -⟩
    have hs := (ScsiCdRomDevice.lawAt_iff _ _).mp h (by decide) rfl (.inr rfl)
    exact absurd (hs.1 rfl) (by decide)

end CuteMac.Scsi
