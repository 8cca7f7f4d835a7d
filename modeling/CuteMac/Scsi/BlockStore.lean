/-
  The SCSI disk as a block store.

  * `latest`: the abstract store: a block holds what the latest write that covers
    it wrote, or what it held at first;
  * `Session`: the disk with the log of the writes that it answered GOOD, which
    no command reads;
  * `InReach`: the address of a transfer fits the 32-bit arithmetic of the disk,
    and the data of a WRITE(6) have the length that its CDB names, as far as the
    command is not refused anyway;
  * `blockStore`: in every run of commands in reach, reads return the blocks of
    the store, transfers of at least one block succeed exactly if they are
    permitted, and writes change nothing but their blocks.
-/
import CuteMac.Scsi.BlockDevice

namespace CuteMac.Scsi

open Machine (run Guarded)
open Slice

/-! ## The abstract store -/

section
variable {α : Type} (size : Nat) (init : Nat → List α)

/-- What block `b` holds after the writes of the log (the latest one first),
    each of some whole blocks from a block number on. -/
def latest : List (Nat × List α) → Nat → List α
  | [], b => init b
  | (lba, data) :: log, b =>
    if lba ≤ b ∧ b < lba + data.length / size then block size data (b - lba) else latest log b

end

namespace ScsiBlockDevice

variable {host : Host} {d : ScsiBlockDevice} {cdb dataOut : List UInt8}

/-! ## Transfers -/

/-- What a READ or WRITE asks for. -/
structure Transfer where
  writes : Bool
  lba : Nat
  count : Nat
deriving DecidableEq, Repr

/-- The transfer that a CDB names, if it is a READ or WRITE of full length. -/
def transfer (cdb : List UInt8) : Option Transfer :=
  match (byteAt cdb 0).toNat with
  | 0x08 => if 6 ≤ cdb.length then some ⟨false, sixByteLba cdb, sixByteBlocks cdb⟩ else none
  | 0x0a => if 6 ≤ cdb.length then some ⟨true, sixByteLba cdb, sixByteBlocks cdb⟩ else none
  | 0x28 => if 10 ≤ cdb.length then some ⟨false, be32At cdb 2, be16At cdb 7⟩ else none
  | 0x2a => if 10 ≤ cdb.length then some ⟨true, be32At cdb 2, be16At cdb 7⟩ else none
  | _ => none

/-- The number of whole blocks, of any size. -/
def capacity (d : ScsiBlockDevice) : Nat := d.image.length / blockSize

/-- When a transfer of at least one block is to succeed. -/
def Permitted (d : ScsiBlockDevice) (t : Transfer) (dataOut : List UInt8) : Prop :=
  d.ready = true ∧ t.lba + t.count ≤ d.capacity ∧
    (t.writes = true → d.readOnly = false ∧ dataOut.length = t.count * blockSize)

/-- The block number fits: below the capacity it is below the 32-bit block count
    and its byte offset is a 32-bit number. -/
def Addressable (d : ScsiBlockDevice) (lba : Nat) : Prop :=
  lba < d.capacity → lba < 2 ^ 23 ∧ lba < d.blockCount

/-- A WRITE(6) brings the data that its CDB names, or is refused for another
    reason. -/
def LengthFits (d : ScsiBlockDevice) (t : Transfer) (dataOut : List UInt8) : Prop :=
  dataOut.length = t.count * blockSize ∨ d.readOnly = true ∨ dataOut.length % blockSize ≠ 0 ∨
    d.capacity ≤ t.lba ∨ d.image.length < t.lba * blockSize + dataOut.length

/-- **The condition on a command.** -/
def InReach (d : ScsiBlockDevice) (cdb dataOut : List UInt8) : Prop :=
  ∀ t, transfer cdb = some t →
    d.Addressable t.lba ∧ (byteAt cdb 0 = 0x0a → d.LengthFits t dataOut)

theorem be16At_lt (bytes : List UInt8) (i : Nat) : be16At bytes i < 2 ^ 16 := by
  have h₁ := (byteAt bytes i).toNat_lt
  have h₂ := (byteAt bytes (i + 1)).toNat_lt
  rw [be16At]
  exact Nat.or_lt_two_pow (by rw [Nat.shiftLeft_eq]; omega) (by omega)

theorem sixByteBlocks_pos (cdb : List UInt8) : 0 < sixByteBlocks cdb := by
  unfold sixByteBlocks
  split_ifs with h
  · decide
  · exact Nat.pos_of_ne_zero fun h0 => h (UInt8.toNat_inj.mp h0)

theorem sixByteBlocks_le (cdb : List UInt8) : sixByteBlocks cdb ≤ 256 := by
  unfold sixByteBlocks
  have := (byteAt cdb 4).toNat_lt
  split_ifs <;> omega

theorem transfer_count_lt {t : Transfer} (h : transfer cdb = some t) : t.count < 2 ^ 16 := by
  have h6 := sixByteBlocks_le cdb
  have h10 := be16At_lt cdb 7
  unfold transfer at h
  split at h
  all_goals first
    | contradiction
    | (split_ifs at h; obtain rfl := Option.some.inj h; simp only; omega)

/-- Only a ten-byte CDB can name no blocks. -/
theorem sixByte_of_count_zero {t : Transfer} (h : transfer cdb = some t) (h0 : t.count = 0) :
    byteAt cdb 0 ≠ 0x0a := by
  intro hop
  have h6 := sixByteBlocks_pos cdb
  rw [transfer, hop] at h
  simp only [show (0x0a : UInt8).toNat = 0x0a from rfl] at h
  split_ifs at h
  obtain rfl := Option.some.inj h
  exact absurd h0 (Nat.pos_iff_ne_zero.mp h6)

/-! ## Reading and writing -/

/-- A transfer whose address fits is stopped exactly if it does not start and end
    in the image. -/
theorem outOfRange_iff {lba : Nat} (ha : d.Addressable lba) (length : Nat) :
    (d.blockCount ≤ lba ∨ d.image.length < byteOffset lba + length) ↔
      (d.capacity ≤ lba ∨ d.image.length < lba * blockSize + length) := by
  by_cases hlba : lba < d.capacity
  · obtain ⟨h23, hcount⟩ := ha hlba
    have hoff : byteOffset lba = lba * blockSize := by
      simp only [byteOffset, blockSize]
      omega
    rw [hoff]
    omega
  · have hmod : d.blockCount ≤ d.capacity := Nat.mod_le _ _
    omega

/-- Whole blocks start and end in the image exactly if they are blocks of it. -/
theorem blocks_outOfRange_iff {lba n : Nat} (hn : 0 < n) :
    (d.capacity ≤ lba ∨ d.image.length < lba * blockSize + n * blockSize) ↔
      ¬ lba + n ≤ d.capacity := by
  simp only [capacity, blockSize]
  omega

theorem byteOffset_count {n : Nat} (hn : n < 2 ^ 16) : byteOffset n = n * blockSize := by
  simp only [byteOffset, blockSize]
  omega

/-- READ of some blocks. -/
theorem read_eq {lba n : Nat} (ha : d.Addressable lba) (hn : 0 < n) (hlt : n < 2 ^ 16) :
    d.read lba n =
      if lba + n ≤ d.capacity then
        (good (mid d.image (lba * blockSize) (n * blockSize)), { d with
          senseKey := senseNoSense
          activityCounter := d.activityCounter + UInt64.ofNat n })
      else d.checkCondition senseIllegalRequest := by
  have hr := outOfRange_iff ha (n * blockSize)
  rw [blocks_outOfRange_iff hn] at hr
  simp only [read, readBlocks, byteOffset_count hlt, hr]
  by_cases h : lba + n ≤ d.capacity
  · have hoff : byteOffset lba = lba * blockSize := by
      have h23 := (ha (by omega)).1
      simp only [byteOffset, blockSize]
      omega
    rw [if_neg (not_not.mpr h), if_pos h, hoff]
    rfl
  · rw [if_pos h, if_neg h]
    rfl

/-- WRITE of any data, if the file can be written. -/
theorem write_eq (hw : ∀ path offset bytes, host.writeAt path offset bytes = true) {lba : Nat}
    (ha : d.Addressable lba) (bytes : List UInt8) :
    d.write host lba bytes =
      if bytes.length % blockSize ≠ 0 ∨ d.capacity ≤ lba ∨
          d.image.length < lba * blockSize + bytes.length then
        d.checkCondition senseIllegalRequest
      else
        (good, { d with
          image := overwrite d.image (lba * blockSize) bytes
          senseKey := senseNoSense
          activityCounter := d.activityCounter + UInt64.ofNat (bytes.length / blockSize) }) := by
  have hr := outOfRange_iff ha bytes.length
  simp only [write, writeBlocks, hr, hw]
  by_cases h : bytes.length % blockSize ≠ 0 ∨ d.capacity ≤ lba ∨
      d.image.length < lba * blockSize + bytes.length
  · rw [if_pos h, if_pos h]
    rfl
  · have hoff : byteOffset lba = lba * blockSize := by
      have h23 := (ha (by omega)).1
      simp only [byteOffset, blockSize]
      omega
    rw [if_neg h, if_neg h, hoff]
    rfl

/-! ## Commands -/

theorem opcode_of_transfer {t : Transfer} (h : transfer cdb = some t) :
    cdb ≠ [] ∧ byteAt cdb 0 ≠ 0x03 ∧ byteAt cdb 0 ≠ 0x12 := by
  refine ⟨?_, ?_, ?_⟩
  · rintro rfl
    exact absurd h (by simp [transfer, byteAt])
  all_goals
    intro hop
    rw [transfer, hop] at h
    exact absurd h (by simp)

theorem executeCommand_notReady {t : Transfer} (h : transfer cdb = some t) (hr : d.ready = false) :
    d.executeCommand host cdb dataOut = d.checkCondition senseNotReady := by
  obtain ⟨hne, h3, h12⟩ := opcode_of_transfer h
  rw [executeCommand, if_neg hne, if_pos ⟨by simp [hr], h3, h12⟩]

theorem executeCommand_ready (hne : cdb ≠ []) (hr : d.ready = true) :
    d.executeCommand host cdb dataOut = d.dispatch host cdb dataOut := by
  rw [executeCommand, if_neg hne, if_neg (by simp [hr])]

/-- READ(6), READ(10) -/
theorem dispatch_read {t : Transfer} (h : transfer cdb = some t) (ht : t.writes = false) :
    d.dispatch host cdb dataOut = if t.count = 0 then (good, d) else d.read t.lba t.count := by
  have h6 := Nat.pos_iff_ne_zero.mp (sixByteBlocks_pos cdb)
  unfold transfer at h
  unfold dispatch
  split at h <;> rename_i hop
  case h_1 =>
    split_ifs at h with hlen
    obtain rfl := Option.some.inj h
    simp only [hop, if_neg (Nat.not_lt.mpr hlen), if_neg h6]
  case h_3 =>
    split_ifs at h with hlen
    obtain rfl := Option.some.inj h
    simp only [hop, if_neg (Nat.not_lt.mpr hlen)]
  case h_5 => contradiction
  all_goals
    split_ifs at h
    obtain rfl := Option.some.inj h
    contradiction

/-- WRITE(6), WRITE(10): only the latter checks the length of the data. -/
theorem dispatch_write {t : Transfer} (h : transfer cdb = some t) (ht : t.writes = true) :
    d.dispatch host cdb dataOut =
      if d.readOnly = true ∨ byteAt cdb 0 ≠ 0x0a ∧ dataOut.length ≠ t.count * blockSize then
        d.checkCondition senseIllegalRequest
      else if t.count = 0 then (good, d)
      else d.write host t.lba dataOut := by
  have h6 := Nat.pos_iff_ne_zero.mp (sixByteBlocks_pos cdb)
  unfold transfer at h
  unfold dispatch
  split at h <;> rename_i hop
  case h_2 =>
    split_ifs at h with hlen
    obtain rfl := Option.some.inj h
    have hop' : byteAt cdb 0 = 0x0a := UInt8.toNat_inj.mp hop
    simp only [hop, Nat.not_lt.mpr hlen, false_or]
    simp only [hop', ne_eq, not_true_eq_false, false_and, or_false, if_neg h6]
  case h_4 =>
    split_ifs at h with hlen
    obtain rfl := Option.some.inj h
    have hop' : byteAt cdb 0 ≠ 0x0a := by
      intro h0
      rw [h0] at hop
      exact absurd hop (by decide)
    simp only [hop, Nat.not_lt.mpr hlen, false_or]
    simp only [hop', ne_eq, not_false_eq_true, true_and]
    split_ifs <;> tauto
  case h_5 => contradiction
  all_goals
    split_ifs at h
    obtain rfl := Option.some.inj h
    contradiction

/-- Every other command leaves the image and the write protection alone. -/
def SameMedium (d d' : ScsiBlockDevice) : Prop := d'.image = d.image ∧ d'.readOnly = d.readOnly

theorem SameMedium.refl (d : ScsiBlockDevice) : SameMedium d d := ⟨rfl, rfl⟩

theorem sameMedium_checkCondition (k : UInt8) : SameMedium d (d.checkCondition k).2 := ⟨rfl, rfl⟩

theorem sameMedium_inquiry (evpd : Bool) (pageCode n : UInt8) :
    SameMedium d (d.inquiry evpd pageCode n).2 := by
  unfold inquiry
  split_ifs
  · split
    · exact .refl d
    · exact sameMedium_checkCondition _
  · exact sameMedium_checkCondition _
  · exact .refl d

theorem sameMedium_modeSense (dbd : Bool) (pageCode n : UInt8) :
    SameMedium d (d.modeSense dbd pageCode n).2 := by
  simp only [modeSense]
  cases hasModePage pageCode with
  | true => exact .refl d
  | false => exact sameMedium_checkCondition _

theorem sameMedium_dispatch (h : transfer cdb = none) :
    SameMedium d (d.dispatch host cdb dataOut).2 := by
  unfold transfer at h
  unfold dispatch
  split <;> rename_i hop
  case h_5 =>
    rw [hop] at h
    have hlen : ¬ 6 ≤ cdb.length := by simpa using h
    rw [if_pos (Nat.not_le.mp hlen)]
    exact sameMedium_checkCondition _
  case h_6 =>
    rw [hop] at h
    have hlen : ¬ 6 ≤ cdb.length := by simpa using h
    rw [if_pos (.inl (Nat.not_le.mp hlen))]
    exact sameMedium_checkCondition _
  case h_8 => exact sameMedium_inquiry _ _ _
  case h_10 => exact sameMedium_modeSense _ _ _
  case h_12 =>
    rw [hop] at h
    have hlen : ¬ 10 ≤ cdb.length := by simpa using h
    rw [if_pos (Nat.not_le.mp hlen)]
    exact sameMedium_checkCondition _
  case h_13 =>
    rw [hop] at h
    have hlen : ¬ 10 ≤ cdb.length := by simpa using h
    rw [if_pos (.inl (Nat.not_le.mp hlen))]
    exact sameMedium_checkCondition _
  all_goals (try split_ifs)
  all_goals exact .refl d

theorem sameMedium_executeCommand (h : transfer cdb = none) :
    SameMedium d (d.executeCommand host cdb dataOut).2 := by
  unfold executeCommand
  split_ifs
  · exact sameMedium_checkCondition _
  · exact sameMedium_checkCondition _
  · exact sameMedium_dispatch h

/-! ## What one transfer does -/

/-- Whether a command is a write that the disk answered GOOD. -/
def Written (t : Transfer) (x : ScsiCommandResult × ScsiBlockDevice) : Prop :=
  t.writes = true ∧ x.1.status = statusGood

instance (t : Transfer) (x : ScsiCommandResult × ScsiBlockDevice) : Decidable (Written t x) :=
  inferInstanceAs (Decidable (_ ∧ _))

/-- The specification of a transfer from `d` to the answer and state `x`. -/
structure Transferred (d : ScsiBlockDevice) (t : Transfer) (dataOut : List UInt8)
    (x : ScsiCommandResult × ScsiBlockDevice) : Prop where
  /-- a transfer of some blocks succeeds if and only if it is permitted -/
  status : 0 < t.count → (x.1.status = statusGood ↔ d.Permitted t dataOut)
  /-- a read that succeeds returns the bytes of its blocks -/
  data : t.writes = false → x.1.status = statusGood →
    x.1.data = mid d.image (t.lba * blockSize) (t.count * blockSize)
  /-- a write that succeeds has written its data, and nothing else is changed -/
  image : x.2.image =
    if Written t x then overwrite d.image (t.lba * blockSize) dataOut else d.image
  /-- the data of a write that succeeds are whole blocks inside the image -/
  fits : Written t x → dataOut.length = t.count * blockSize ∧
    (0 < t.count → t.lba * blockSize + dataOut.length ≤ d.image.length)
  readOnly : x.2.readOnly = d.readOnly

theorem transferred_refused {t : Transfer} (k : UInt8)
    (h : 0 < t.count → ¬ d.Permitted t dataOut) :
    Transferred d t dataOut (d.checkCondition k) := by
  have hbad : (d.checkCondition k).1.status ≠ statusGood := by
    simp [checkCondition, statusCheckCondition, statusGood]
  refine ⟨fun hn => iff_of_false hbad (h hn), fun _ hs => absurd hs hbad, ?_, fun hw => absurd hw.2 hbad,
    rfl⟩
  rw [if_neg fun hw => hbad hw.2]
  rfl

/-- **One READ or WRITE in reach.** -/
theorem transferred (hw : ∀ path offset bytes, host.writeAt path offset bytes = true)
    {t : Transfer} (h : transfer cdb = some t) (hreach : d.InReach cdb dataOut) :
    Transferred d t dataOut (d.executeCommand host cdb dataOut) := by
  obtain ⟨ha, hlength⟩ := hreach t h
  have hlt := transfer_count_lt h
  cases hr : d.ready with
  | false =>
    rw [executeCommand_notReady h hr]
    exact transferred_refused _ fun _ hp => absurd hp.1 (by simp [hr])
  | true =>
    rw [executeCommand_ready (opcode_of_transfer h).1 hr]
    cases ht : t.writes with
    | false =>
      have hnw (x : ScsiCommandResult × ScsiBlockDevice) : ¬ Written t x := by simp [Written, ht]
      rw [dispatch_read h ht]
      by_cases h0 : t.count = 0
      · rw [if_pos h0]
        refine ⟨by omega, fun _ _ => ?_, by rw [if_neg (hnw _)], fun hx => absurd hx (hnw _), rfl⟩
        simp [good, h0, mid]
      rw [if_neg h0, read_eq ha (Nat.pos_of_ne_zero h0) hlt]
      by_cases hin : t.lba + t.count ≤ d.capacity
      · rw [if_pos hin]
        refine ⟨fun _ => iff_of_true rfl ⟨hr, hin, by simp [ht]⟩, fun _ _ => rfl,
          by rw [if_neg (hnw _)], fun hx => absurd hx (hnw _), rfl⟩
      · rw [if_neg hin]
        exact transferred_refused _ fun _ hp => hin hp.2.1
    | true =>
      rw [dispatch_write h ht]
      by_cases hbad : d.readOnly = true ∨ byteAt cdb 0 ≠ 0x0a ∧ dataOut.length ≠ t.count * blockSize
      · rw [if_pos hbad]
        refine transferred_refused _ fun _ hp => ?_
        obtain ⟨hro, hlen⟩ := hp.2.2 ht
        rcases hbad with hbad | hbad
        · exact absurd hbad (by simp [hro])
        · exact hbad.2 hlen
      rw [if_neg hbad]
      obtain ⟨hro, h10⟩ : d.readOnly = false ∧
          (byteAt cdb 0 ≠ 0x0a → dataOut.length = t.count * blockSize) := by
        rw [not_or, Bool.not_eq_true] at hbad
        exact ⟨hbad.1, fun hop => by_contra fun hl => hbad.2 ⟨hop, hl⟩⟩
      by_cases h0 : t.count = 0
      · -- only a WRITE(10) names no blocks
        have hlen : dataOut.length = t.count * blockSize := h10 (sixByte_of_count_zero h h0)
        have hnil : dataOut = [] := List.eq_nil_of_length_eq_zero (by rw [hlen, h0, Nat.zero_mul])
        rw [if_pos h0]
        refine ⟨by omega, by simp [ht], ?_, fun _ => ⟨hlen, by omega⟩, rfl⟩
        simp [hnil, overwrite]
      rw [if_neg h0, write_eq hw ha]
      have hpos := Nat.pos_of_ne_zero h0
      by_cases hout : dataOut.length % blockSize ≠ 0 ∨ d.capacity ≤ t.lba ∨
          d.image.length < t.lba * blockSize + dataOut.length
      · rw [if_pos hout]
        refine transferred_refused _ fun _ hp => ?_
        obtain ⟨-, hlen⟩ := hp.2.2 ht
        rw [hlen, Nat.mul_mod_left] at hout
        rcases hout with hout | hout
        · exact hout rfl
        · exact (blocks_outOfRange_iff hpos).mp hout hp.2.1
      · rw [if_neg hout]
        have hlen : dataOut.length = t.count * blockSize := by
          by_cases hop : byteAt cdb 0 = 0x0a
          · rcases hlength hop with hl | hl | hl
            · exact hl
            · exact absurd hl (by simp [hro])
            · exact absurd hl hout
          · exact h10 hop
        have hin : t.lba + t.count ≤ d.capacity := by
          by_contra hno
          rw [hlen] at hout
          exact hout (.inr ((blocks_outOfRange_iff hpos).mpr hno))
        refine ⟨fun _ => iff_of_true rfl ⟨hr, hin, fun _ => ⟨hro, hlen⟩⟩, by simp [ht], ?_,
          fun _ => ⟨hlen, fun _ => by omega⟩, rfl⟩
        rw [if_pos ⟨ht, rfl⟩]

/-! ## Runs -/

/-- The disk, and the log of the writes it answered GOOD, the latest one first. -/
structure Session where
  disk : ScsiBlockDevice
  log : List (Nat × List UInt8)

/-- A command and its data. -/
def Session.step (host : Host) (s : Session) (command : List UInt8 × List UInt8) : Session :=
  let x := s.disk.executeCommand host command.1 command.2
  { disk := x.2
    log := match transfer command.1 with
      | some t => if Written t x then (t.lba, command.2) :: s.log else s.log
      | none => s.log }

/-- The disk holds the blocks of the store. -/
structure Session.Holds (image : List UInt8) (s : Session) : Prop where
  length : s.disk.image.length = image.length
  block : ∀ b, (b + 1) * blockSize ≤ image.length →
    block blockSize s.disk.image b = latest blockSize (Slice.block blockSize image) s.log b

theorem Session.Holds.start (d : ScsiBlockDevice) : Session.Holds d.image ⟨d, []⟩ :=
  ⟨rfl, fun _ _ => rfl⟩

/-- **A command in reach keeps the disk and the store in step.** -/
theorem Session.Holds.step (hw : ∀ path offset bytes, host.writeAt path offset bytes = true)
    {image : List UInt8} {s : Session} (hs : s.Holds image)
    (hreach : s.disk.InReach cdb dataOut) : (s.step host (cdb, dataOut)).Holds image := by
  cases ht : transfer cdb with
  | none =>
    obtain ⟨himage, -⟩ : SameMedium s.disk _ := @sameMedium_executeCommand host _ _ dataOut ht
    refine ⟨?_, fun b hb => ?_⟩
    · exact (congrArg List.length himage).trans hs.length
    · simp only [Session.step, ht]
      exact (congrArg (fun l => Slice.block blockSize l b) himage).trans (hs.block b hb)
  | some t =>
    have hx := @transferred host _ _ dataOut hw _ ht hreach
    by_cases hwr : Written t (s.disk.executeCommand host cdb dataOut)
    · obtain ⟨hlen, hfits⟩ := hx.fits hwr
      have himage := hx.image
      rw [if_pos hwr] at himage
      have hcount : dataOut.length / blockSize = t.count := by
        rw [hlen]
        exact Nat.mul_div_cancel _ (by decide)
      rcases Nat.eq_zero_or_pos t.count with h0 | hpos
      · have hnil : dataOut = [] := List.eq_nil_of_length_eq_zero (by rw [hlen, h0, Nat.zero_mul])
        have hsame : (s.step host (cdb, dataOut)).disk.image = s.disk.image := by
          refine himage.trans ?_
          simp [hnil, overwrite]
        refine ⟨by rw [hsame, hs.length], fun b hb => ?_⟩
        rw [hsame, hs.block b hb]
        simp only [Session.step, ht, if_pos hwr, latest, hcount, h0]
        rw [if_neg (by omega)]
      · refine ⟨?_, fun b hb => ?_⟩
        · exact (congrArg List.length himage).trans ((length_overwrite (hfits hpos)).trans hs.length)
        · have hblock := block_overwrite hlen (hfits hpos) b
          simp only [Session.step, ht, if_pos hwr, latest, hcount]
          rw [himage, hblock, hs.block b hb]
    · have himage := hx.image
      rw [if_neg hwr] at himage
      refine ⟨?_, fun b hb => ?_⟩
      · exact (congrArg List.length himage).trans hs.length
      · simp only [Session.step, ht, if_neg hwr]
        rw [himage]
        exact hs.block b hb

theorem Session.Holds.run (hw : ∀ path offset bytes, host.writeAt path offset bytes = true)
    (d : ScsiBlockDevice) {commands : List (List UInt8 × List UInt8)}
    (hg : Guarded (Session.step host) (fun s c => s.disk.InReach c.1 c.2) ⟨d, []⟩ commands) :
    (Machine.run (Session.step host) ⟨d, []⟩ commands).Holds d.image :=
  Machine.guarded_run_inv (fun _ _ hreach hs => hs.step hw hreach) (Session.Holds.start d) hg

/-- What a READ of some blocks of the store returns. -/
def storeBlocks (image : List UInt8) (s : Session) (t : Transfer) : List UInt8 :=
  (List.range t.count).flatMap fun i =>
    latest blockSize (Slice.block blockSize image) s.log (t.lba + i)

/-- **The disk is a block store.**  In every run of commands in reach, a READ or
    WRITE of some blocks succeeds if and only if it is permitted; a READ that
    succeeds returns, block by block, what the latest GOOD write of the block
    wrote or the initial image held; a WRITE changes only the blocks it names,
    and these only if it succeeds. -/
theorem blockStore (host : Host) (hw : ∀ path offset bytes, host.writeAt path offset bytes = true)
    (d : ScsiBlockDevice) (commands : List (List UInt8 × List UInt8))
    (hg : Guarded (Session.step host) (fun s c => s.disk.InReach c.1 c.2) ⟨d, []⟩ commands)
    (cdb dataOut : List UInt8) (t : Transfer) (ht : transfer cdb = some t)
    (hreach : (run (Session.step host) ⟨d, []⟩ commands).disk.InReach cdb dataOut) :
    let s := run (Session.step host) ⟨d, []⟩ commands
    let x := s.disk.executeCommand host cdb dataOut
    (0 < t.count → (x.1.status = statusGood ↔ s.disk.Permitted t dataOut)) ∧
    (t.writes = false → x.1.status = statusGood → x.1.data = storeBlocks d.image s t) ∧
    x.2.image =
      if Written t x then overwrite s.disk.image (t.lba * blockSize) dataOut else s.disk.image := by
  intro s x
  have hx := transferred hw ht hreach
  have hs := Session.Holds.run hw d hg
  refine ⟨hx.status, fun hr hgood => ?_, hx.image⟩
  rw [hx.data hr hgood, mid_eq_flatMap_block, storeBlocks]
  rcases Nat.eq_zero_or_pos t.count with h0 | hpos
  · rw [h0]
    rfl
  have hin := ((hx.status hpos).mp hgood).2.1
  refine List.flatMap_congr fun i hi => hs.block _ ?_
  have hi' := List.mem_range.mp hi
  have hlen := hs.length
  simp only [capacity, blockSize] at hin ⊢
  omega

/-- On an image below 4 GiB only the data length of WRITE(6) matters. -/
theorem inReach_of_length (hd : d.image.length < 2 ^ 32)
    (hl : byteAt cdb 0 = 0x0a → dataOut.length = sixByteBlocks cdb * blockSize) :
    d.InReach cdb dataOut := by
  intro t ht
  refine ⟨fun hlt => ?_, fun hop => .inl ?_⟩
  · simp only [capacity, blockCount, blockSize] at hlt ⊢
    omega
  · rw [hl hop]
    rw [transfer, hop] at ht
    simp only [show (0x0a : UInt8).toNat = 0x0a from rfl] at ht
    split_ifs at ht
    obtain rfl := Option.some.inj ht
    rfl

/-- A host that can write every file. -/
def writableHost : Host where
  readAll _ := none
  writeAt _ _ _ := true

/-- A block is written, then two are read. -/
theorem blockStore_writeRead :
    ∃ d : ScsiBlockDevice, d.image = List.replicate 1024 0 ∧
      let s := run (Session.step writableHost) ⟨d, []⟩
        [([0x0a, 0, 0, 1, 1, 0], List.replicate 512 7)];
      let x := s.disk.executeCommand writableHost [0x28, 0, 0, 0, 0, 0, 0, 0, 2, 0] [];
      x.1.status = statusGood → x.1.data = storeBlocks d.image s ⟨false, 0, 2⟩ := by
  obtain ⟨d, hd⟩ : ∃ d : ScsiBlockDevice, d.image = List.replicate 1024 0 :=
    ⟨{ image := List.replicate 1024 0 }, rfl⟩
  refine ⟨d, hd, ?_⟩
  intro s x
  have hlen : d.image.length < 2 ^ 32 := by
    rw [hd, List.length_replicate]
    decide
  have hfirst : InReach d [0x0a, 0, 0, 1, 1, 0] (List.replicate 512 7) :=
    inReach_of_length hlen fun _ => List.length_replicate
  have hg : Guarded (Session.step writableHost) (fun s c => s.disk.InReach c.1 c.2) ⟨d, []⟩
      [([0x0a, 0, 0, 1, 1, 0], List.replicate 512 7)] := ⟨hfirst, trivial⟩
  have hs : s.disk.image.length = d.image.length :=
    (Session.Holds.run (fun _ _ _ => rfl) d hg).length
  have hreach : InReach s.disk [0x28, 0, 0, 0, 0, 0, 0, 0, 2, 0] [] :=
    inReach_of_length (lt_of_eq_of_lt hs hlen) fun hop => absurd hop (by decide)
  have h := blockStore writableHost (fun _ _ _ => rfl) d _ hg
    [0x28, 0, 0, 0, 0, 0, 0, 0, 2, 0] [] ⟨false, 0, 2⟩ rfl hreach
  exact h.2.1 rfl

/-- The byte offset of block 2^23 is zero. -/
theorem read_wraps {first rest : List UInt8} (hf : first.length = 512) (hr : rest.length = 2 ^ 32) :
    (ScsiBlockDevice.executeCommand host { image := first ++ rest }
      [0x28, 0, 0, 0x80, 0, 0, 0, 0, 1, 0] []).1 = good first := by
  have hlen : (first ++ rest).length = 512 + 2 ^ 32 := by rw [List.length_append, hf, hr]
  have hready : ({ image := first ++ rest } : ScsiBlockDevice).ready = true := by
    cases first with
    | nil => exact absurd hf (by decide)
    | cons a l => rfl
  have ht : transfer [0x28, 0, 0, 0x80, 0, 0, 0, 0, 1, 0] = some ⟨false, 2 ^ 23, 1⟩ := rfl
  have hblocks : (readBlocks { image := first ++ rest } (2 ^ 23) 1) =
      (first, { image := first ++ rest, activityCounter := 0 + UInt64.ofNat 1 }) := by
    simp only [readBlocks, blockCount, hlen]
    rw [if_neg (by decide), show byteOffset (2 ^ 23) = 0 from rfl, show byteOffset 1 = 512 from rfl,
      mid_append_left (by omega), ← hf, mid_self]
    rfl
  rw [executeCommand_ready (by simp) hready, dispatch_read ht rfl, if_neg (by decide), read]
  simp only [hblocks]
  rfl

/-- WRITE(6) with one block of data, whatever its CDB says. -/
theorem write_short {image data : List UInt8} (hi : image.length = 1024) (hd : data.length = 512) :
    (ScsiBlockDevice.executeCommand writableHost { image := image } [0x0a, 0, 0, 0, 2, 0] data).1 =
      good := by
  have hready : ({ image := image } : ScsiBlockDevice).ready = true := by
    cases image with
    | nil => exact absurd hi (by decide)
    | cons a l => rfl
  have ht : transfer [0x0a, 0, 0, 0, 2, 0] = some ⟨true, 0, 2⟩ := rfl
  have ha : Addressable { image := image } 0 := by
    simp only [Addressable, capacity, blockCount, blockSize, hi]
    decide
  rw [executeCommand_ready (by simp) hready, dispatch_write ht rfl, if_neg (by simp [byteAt]),
    if_neg (by decide), write_eq (fun _ _ _ => rfl) ha,
    if_neg (by simp only [capacity, blockSize, hi, hd]; decide)]

/-- WRITE(6) of two blocks with the data of one succeeds; on an image of more
    than 4 GiB a READ(10) returns another block than the one it names. -/
theorem shortWrite_and_wrap :
    (∃ d : ScsiBlockDevice, d.image = List.replicate 1024 0 ∧
      (d.executeCommand writableHost [0x0a, 0, 0, 0, 2, 0] (List.replicate 512 7)).1.status =
        statusGood ∧ ¬ d.Permitted ⟨true, 0, 2⟩ (List.replicate 512 7)) ∧
    ∃ d : ScsiBlockDevice, d.image.length = 512 + 2 ^ 32 ∧
      (d.executeCommand writableHost [0x28, 0, 0, 0x80, 0, 0, 0, 0, 1, 0] []).1.status = statusGood ∧
      (d.executeCommand writableHost [0x28, 0, 0, 0x80, 0, 0, 0, 0, 1, 0] []).1.data ≠
        mid d.image (2 ^ 23 * blockSize) blockSize := by
  constructor
  · refine ⟨{ image := List.replicate 1024 0 }, rfl, ?_, fun h => ?_⟩
    · rw [write_short List.length_replicate List.length_replicate]
      rfl
    · have hlen := (h.2.2 rfl).2
      rw [List.length_replicate] at hlen
      exact absurd hlen (by decide)
  · -- ones in the first block, zeros behind it
    obtain ⟨first, hf, hone⟩ : ∃ first : List UInt8, first.length = 512 ∧ first[0]? = some 1 :=
      ⟨List.replicate 512 1, List.length_replicate, by
        rw [List.getElem?_replicate, if_pos (by decide)]⟩
    obtain ⟨rest, hr, hzero⟩ : ∃ rest : List UInt8, rest.length = 2 ^ 32 ∧
        ∀ i, i < 2 ^ 32 → rest[i]? = some 0 :=
      ⟨List.replicate (2 ^ 32) 0, List.length_replicate, fun i hi => by
        rw [List.getElem?_replicate, if_pos hi]⟩
    refine ⟨{ image := first ++ rest }, by rw [List.length_append, hf, hr], ?_, ?_⟩
    · rw [read_wraps hf hr]
      rfl
    · rw [read_wraps hf hr]
      intro h
      have h0 := congrArg (fun l : List UInt8 => l[0]?) h
      simp only [good, getElem?_mid, hone] at h0
      rw [if_pos (by decide), List.getElem?_append_right (by rw [hf]; decide), hf,
        hzero _ (by decide)] at h0
      exact absurd h0 (by decide)

end ScsiBlockDevice

end CuteMac.Scsi
