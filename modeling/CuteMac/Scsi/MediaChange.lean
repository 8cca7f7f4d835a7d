/-
  Media changes of the CD-ROM drive are reported once.

  * `mediaStep`: the abstract view, one bit: whether a change of the medium is
    still to be reported;
  * `Reporting`: the drive keeps exactly this bit, and the sense data that belong
    to it;
  * `reported_once`: in every run the first command after a change that is not
    INQUIRY reports it, and no other command does.
-/
import CuteMac.Scsi.CdRomDevice

namespace CuteMac.Scsi

open Machine (run)

namespace ScsiCdRomDevice

variable {d : ScsiCdRomDevice} {cdb dataOut : List UInt8}

/-! ## The abstract view -/

/-- Whether `loadImage` accepts the file. -/
def loads (host : Host) (path : String) : Bool :=
  match host.readAll path with
  | none => false
  | some image => image ≠ [] ∧ image.length % blockSize = 0

def isInquiry (cdb : List UInt8) : Bool := byteAt cdb 0 == 0x12

def isRequestSense (cdb : List UInt8) : Bool := byteAt cdb 0 == 0x03

/-- The guest ejects the disc. -/
def guestEjects (cdb : List UInt8) : Bool := byteAt cdb 0 == 0x1b && ejects cdb

/-- Whether a change of the medium is to be reported: a change makes it so, its
    acknowledgement or the first command that is not INQUIRY ends it.  A command
    that reports the change is not executed, so it ejects nothing. -/
def mediaStep (due : Bool) : Host × Op → Bool
  | (host, .loadImage path) => loads host path || due
  | (_, .eject) => true
  | (_, .acknowledgeMediaChange) => false
  | (_, .executeCommand cdb _) => if isInquiry cdb then due else !due && guestEjects cdb

/-- The sense data of a changed medium. -/
def mediumChangedSense : List UInt8 :=
  [0x70, 0, 0x06, 0, 0, 0, 0, 10, 0, 0, 0, 0, 0x28, 0, 0, 0, 0, 0]

/-- The command reports the change: REQUEST SENSE gives the sense data of a
    changed medium as far as there is room for it, any other command fails with
    UNIT ATTENTION and is not executed. -/
def ReportsChange (d : ScsiCdRomDevice) (cdb dataOut : List UInt8) : Prop :=
  if isRequestSense cdb then
    (d.executeCommand cdb dataOut).1 =
      good (mediumChangedSense.take (if 4 < cdb.length then byteAt cdb 4 else 18).toNat)
  else
    (d.executeCommand cdb dataOut).1 = refused senseUnitAttention ∧
      (d.executeCommand cdb dataOut).2 = { d with
        unitAttention := false
        senseKey := senseUnitAttention
        additionalSenseCode := ascMediumChanged }

/-- The command fails with UNIT ATTENTION. -/
def FailsWithAttention (d : ScsiCdRomDevice) (cdb dataOut : List UInt8) : Prop :=
  (d.executeCommand cdb dataOut).1.status = 0x02 ∧
    (d.executeCommand cdb dataOut).1.senseKey = senseUnitAttention

/-! ## The drive follows it -/

/-- The drive has the attention pending exactly if a change is due, with the
    sense data of a changed medium. -/
structure Reporting (due : Bool) (d : ScsiCdRomDevice) : Prop where
  attention : d.unitAttention = due
  sense : due = true → d.senseKey = senseUnitAttention ∧ d.additionalSenseCode = ascMediumChanged

/-- Neither UNIT ATTENTION is answered nor the attention or, while it is
    pending, the sense data changed. -/
def Plain (d : ScsiCdRomDevice) (x : ScsiCommandResult × ScsiCdRomDevice) : Prop :=
  x.1.senseKey ≠ senseUnitAttention ∧ x.2.unitAttention = d.unitAttention

@[simp] theorem plain_good (data : List UInt8) : Plain d (good data, d) := by
  simp [Plain, good, senseNoSense, senseUnitAttention]

@[simp] theorem plain_refused : Plain d (refused senseIllegalRequest, d) := by
  simp [Plain, refused, senseIllegalRequest, senseUnitAttention]

@[simp] theorem plain_checkCondition {k : UInt8} (asc : UInt8) (hk : k ≠ senseUnitAttention) :
    Plain d (d.checkCondition k asc) :=
  ⟨hk, rfl⟩

@[simp] theorem plain_illegalRequest (asc : UInt8) :
    Plain d (d.checkCondition senseIllegalRequest asc) :=
  plain_checkCondition asc (by decide)

@[simp] theorem plain_read (lba blocks : Nat) : Plain d (d.read lba blocks) := by
  simp only [read]
  split_ifs
  · exact plain_illegalRequest _
  · exact ⟨by simp [good, senseNoSense, senseUnitAttention], rfl⟩

@[simp] theorem plain_readAppleRaw (lba blocks : Nat) : Plain d (d.readAppleRaw lba blocks) := by
  unfold readAppleRaw
  split_ifs
  · exact plain_illegalRequest _
  · exact ⟨by simp [good, senseNoSense, senseUnitAttention], rfl⟩

@[simp] theorem plain_modeSelect (tenByte : Bool) (parameters : List UInt8) :
    Plain d (d.modeSelect tenByte parameters) := by
  simp only [modeSelect]
  split_ifs
  all_goals first
    | exact plain_good _
    | exact plain_illegalRequest _

@[simp] theorem plain_modeSense (tenByte dbd : Bool) (pageCode : UInt8) (n : Nat) :
    Plain d (d.modeSense tenByte dbd pageCode n, d) := by
  simp only [modeSense]
  split_ifs
  all_goals first
    | exact plain_refused
    | exact plain_good _

@[simp] theorem plain_readToc : Plain d (d.readToc cdb, d) := by
  rw [readToc]
  by_cases h₁ : cdb.length < 10
  · rw [if_pos h₁]
    exact plain_refused
  rw [if_neg h₁]
  by_cases h₂ : byteAt cdb 6 ≠ 0 ∧ byteAt cdb 6 ≠ 1 ∧ byteAt cdb 6 ≠ 0xaa
  · simp only [if_pos h₂]
    exact plain_refused
  · simp only [if_neg h₂]
    exact plain_good _

/-- Of the commands that are executed only REQUEST SENSE and an eject touch the
    attention. -/
theorem plain_dispatch (hs : isRequestSense cdb = false) (he : guestEjects cdb = false) :
    Plain d (d.dispatch cdb dataOut) := by
  unfold dispatch
  split <;> rename_i h
  case h_2 =>
    have hop : byteAt cdb 0 = 0x03 := UInt8.toNat_inj.mp h
    simp [isRequestSense, hop] at hs
  case h_7 =>
    have hop : byteAt cdb 0 = 0x1b := UInt8.toNat_inj.mp h
    have hno : ejects cdb = false := by simpa [guestEjects, hop] using he
    simp [hno]
  case h_4 => exact plain_good _
  case h_9 => exact plain_good _
  all_goals (try simp only)
  all_goals (try split_ifs)
  all_goals simp

theorem executeCommand_attention (hne : cdb ≠ []) (ha : d.unitAttention = true)
    (hs : isRequestSense cdb = false) (hi : isInquiry cdb = false) :
    d.executeCommand cdb dataOut =
      { d with unitAttention := false }.checkCondition senseUnitAttention ascMediumChanged := by
  have h3 : byteAt cdb 0 ≠ 0x03 := by simpa [isRequestSense] using hs
  have h12 : byteAt cdb 0 ≠ 0x12 := by simpa [isInquiry] using hi
  simp only [executeCommand]
  rw [if_neg hne, if_pos ⟨ha, h3, h12⟩]

theorem executeCommand_requestSense' (hne : cdb ≠ []) (hs : isRequestSense cdb = true) :
    d.executeCommand cdb dataOut =
      d.requestSense (if 4 < cdb.length then byteAt cdb 4 else 18) := by
  have hop : byteAt cdb 0 = 0x03 := by simpa [isRequestSense] using hs
  simp only [executeCommand, hop]
  rw [if_neg hne, if_neg (by simp), if_neg (by simp [allowedWithoutMedium]), dispatch, hop]
  rfl

theorem executeCommand_inquiry (hne : cdb ≠ []) (hi : isInquiry cdb = true) :
    d.executeCommand cdb dataOut = (inquiry (if 4 < cdb.length then byteAt cdb 4 else 36), d) := by
  have hop : byteAt cdb 0 = 0x12 := by simpa [isInquiry] using hi
  simp only [executeCommand, hop]
  rw [if_neg hne, if_neg (by simp), if_neg (by simp [allowedWithoutMedium]), dispatch, hop]
  rfl

/-- Without an attention the only command that changes it is an eject. -/
theorem executeCommand_noAttention (hne : cdb ≠ []) (ha : d.unitAttention = false)
    (hs : isRequestSense cdb = false) :
    guestEjects cdb = true ∧ d.executeCommand cdb dataOut = (good, d.eject) ∨
      guestEjects cdb = false ∧ Plain d (d.executeCommand cdb dataOut) := by
  simp only [executeCommand]
  rw [if_neg hne, if_neg (by simp [ha])]
  cases he : guestEjects cdb with
  | true =>
    obtain ⟨hop, hej⟩ : byteAt cdb 0 = 0x1b ∧ ejects cdb = true := by
      simpa [guestEjects] using he
    left
    rw [if_neg (by simp [hop, allowedWithoutMedium]), dispatch, hop]
    simp [hej]
  | false =>
    right
    refine ⟨rfl, ?_⟩
    split_ifs
    · exact plain_checkCondition _ (by decide)
    · exact plain_dispatch hs he

/-! ## Steps and runs -/

/-- The commands of a run are not empty. -/
def HasCdb : Host × Op → Prop
  | (_, .executeCommand cdb _) => cdb ≠ []
  | _ => True

theorem reporting_eject (d : ScsiCdRomDevice) : Reporting true d.eject :=
  ⟨rfl, fun _ => ⟨rfl, rfl⟩⟩

theorem reporting_acknowledge (d : ScsiCdRomDevice) :
    Reporting false d.acknowledgeMediaChange :=
  ⟨rfl, by simp⟩

theorem reporting_loadImage {due : Bool} (h : Reporting due d) (host : Host) (path : String) :
    Reporting (loads host path || due) (d.loadImage host path).2 := by
  unfold loadImage loads
  cases host.readAll path with
  | none => exact h
  | some image =>
    by_cases hbad : image = [] ∨ image.length % blockSize ≠ 0
    · have hno : ¬ (image ≠ [] ∧ image.length % blockSize = 0) := by tauto
      simpa only [if_pos hbad, decide_eq_false hno, Bool.false_or] using h
    · have hyes : image ≠ [] ∧ image.length % blockSize = 0 := by tauto
      simp only [if_neg hbad, decide_eq_true hyes, Bool.true_or]
      exact ⟨rfl, fun _ => ⟨rfl, rfl⟩⟩

theorem reporting_executeCommand {due : Bool} (h : Reporting due d) (hne : cdb ≠ []) :
    Reporting (if isInquiry cdb then due else !due && guestEjects cdb)
      (d.executeCommand cdb dataOut).2 := by
  cases hi : isInquiry cdb with
  | true =>
    rw [executeCommand_inquiry hne hi]
    exact h
  | false =>
    cases hs : isRequestSense cdb with
    | true =>
      have hop : byteAt cdb 0 = 0x03 := by simpa [isRequestSense] using hs
      have he : guestEjects cdb = false := by simp [guestEjects, hop]
      rw [executeCommand_requestSense' hne hs, he]
      exact (Bool.and_false _).symm ▸ reporting_acknowledge d
    | false =>
      cases due with
      | true =>
        rw [executeCommand_attention hne h.attention hs hi]
        exact ⟨rfl, by simp⟩
      | false =>
        rcases @executeCommand_noAttention _ _ dataOut hne h.attention hs with
          ⟨he, hx⟩ | ⟨he, hx⟩
        · rw [he, hx]
          exact reporting_eject d
        · rw [he]
          exact ⟨hx.2.trans h.attention, by simp⟩

theorem reporting_apply {due : Bool} (h : Reporting due d) {a : Host × Op} (ha : HasCdb a) :
    Reporting (mediaStep due a) (d.apply a) := by
  rcases a with ⟨host, op⟩
  cases op with
  | loadImage path => exact reporting_loadImage h host path
  | eject => exact reporting_eject d
  | acknowledgeMediaChange => exact reporting_acknowledge d
  | executeCommand cdb dataOut => exact reporting_executeCommand h ha

theorem reporting_run {due : Bool} (h : Reporting due d) {ops : List (Host × Op)}
    (hops : ∀ a ∈ ops, HasCdb a) :
    Reporting (run mediaStep due ops) (run apply d ops) := by
  induction ops generalizing due d with
  | nil => exact h
  | cons a ops ih =>
    obtain ⟨ha, hops⟩ := List.forall_mem_cons.mp hops
    exact ih (reporting_apply h ha) hops

/-- A due change is reported by the next command that is not INQUIRY. -/
theorem Reporting.reportsChange (h : Reporting true d) (hne : cdb ≠ [])
    (hi : isInquiry cdb = false) : ReportsChange d cdb dataOut := by
  unfold ReportsChange
  cases hs : isRequestSense cdb with
  | true =>
    obtain ⟨hkey, hasc⟩ := h.sense rfl
    rw [if_pos rfl, executeCommand_requestSense' hne hs, requestSense, senseData, hkey, hasc]
    rfl
  | false =>
    rw [if_neg (by simp), executeCommand_attention hne h.attention hs hi]
    exact ⟨rfl, rfl⟩

/-- No command fails with UNIT ATTENTION when no change is due, and INQUIRY never. -/
theorem Reporting.not_failsWithAttention {due : Bool} (h : Reporting due d) (hne : cdb ≠ [])
    (hd : due = false ∨ isInquiry cdb = true) : ¬ FailsWithAttention d cdb dataOut := by
  rintro ⟨hstatus, hkey⟩
  rcases hd with rfl | hi
  · cases hs : isRequestSense cdb with
    | true =>
      rw [executeCommand_requestSense' hne hs] at hstatus
      exact absurd hstatus (by simp [requestSense, good])
    | false =>
      rcases @executeCommand_noAttention _ _ dataOut hne h.attention hs with
        ⟨-, hx⟩ | ⟨-, hx⟩
      · rw [hx] at hstatus
        exact absurd hstatus (by simp [good])
      · exact hx.1 hkey
  · rw [executeCommand_inquiry hne hi] at hstatus
    exact absurd hstatus (by simp [inquiry, good])

/-- **Media changes are reported once.**  In every run of the drive, if a change
    is due the next command that is not INQUIRY reports it; no other command
    fails with UNIT ATTENTION. -/
theorem reported_once (ops : List (Host × Op)) (hops : ∀ a ∈ ops, HasCdb a) (cdb dataOut : List UInt8)
    (hne : cdb ≠ []) :
    (run mediaStep false ops = true ∧ isInquiry cdb = false →
      ReportsChange (run apply {} ops) cdb dataOut) ∧
    (run mediaStep false ops = false ∨ isInquiry cdb = true →
      ¬ FailsWithAttention (run apply {} ops) cdb dataOut) := by
  have h0 : Reporting false {} := ⟨rfl, by simp⟩
  have h := reporting_run h0 hops
  constructor
  · rintro ⟨hdue, hi⟩
    rw [hdue] at h
    exact h.reportsChange hne hi
  · exact h.not_failsWithAttention hne

/-- A host without files. -/
def noFiles : Host where
  readAll _ := none
  writeAt _ _ _ := false

/-- The guest polls with INQUIRY and TEST UNIT READY after an eject. -/
theorem reported_once_eject :
    ReportsChange (run apply {} [(noFiles, .eject), (noFiles, .executeCommand [0x12, 0, 0, 0, 36, 0] [])])
      [0x00, 0, 0, 0, 0, 0] [] :=
  (reported_once [(noFiles, .eject), (noFiles, .executeCommand [0x12, 0, 0, 0, 36, 0] [])]
    (by simp [HasCdb]) [0x00, 0, 0, 0, 0, 0] [] (by decide)).1 (by decide)

/-- After an acknowledgement the next command does not report the change, and a
    REQUEST SENSE with little room does not show all of the sense data. -/
theorem acknowledged_and_clipped :
    ((run apply {} [(noFiles, .eject), (noFiles, .acknowledgeMediaChange)]).executeCommand
      [0x00, 0, 0, 0, 0, 0] []).1 = refused senseNotReady ∧
    ((run apply {} [(noFiles, .eject)]).executeCommand [0x03, 0, 0, 0, 4, 0] []).1.data =
      [0x70, 0, 0x06, 0] := by
  decide

end ScsiCdRomDevice

end CuteMac.Scsi
