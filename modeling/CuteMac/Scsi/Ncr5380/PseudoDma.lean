/-
  The Macintosh glue around the NCR5380 (`MacintoshNcr5380Bus.cpp`).

  * `Wiring`, `readRegister`, `readPseudoDma`: the lanes of a transaction and the
    DACK strobes that it makes;
  * `GuestRead`: reads of the pseudo-DMA aperture and of the status registers, in
    any order;
  * `Offers`: a target has bytes left, and the chip requests or will request;
  * `pseudoDma_in_order`: the aperture delivers what the target gave.

  `clampAccess` is `std::clamp` of the access width.
-/
import CuteMac.Core.PhysicalMemoryMap
import CuteMac.Scsi.Ncr5380.Transfer

namespace CuteMac.Core

/-! ## Bytes of numbers -/

theorem bytesOf_add (k value : Nat) {n m : Nat} (h : m ≤ n) :
    bytesOf (k * 256 ^ n + value) m = bytesOf value m := by
  induction m with
  | zero => rfl
  | succ m ih =>
    have hpow : 256 ^ n = 256 * 256 ^ (n - m - 1) * 256 ^ m := by
      rw [← Nat.pow_succ', ← Nat.pow_add]
      congr 1
      omega
    have hdiv : (k * 256 ^ n + value) / 256 ^ m =
        256 * (k * 256 ^ (n - m - 1)) + value / 256 ^ m := by
      rw [hpow, show k * (256 * 256 ^ (n - m - 1) * 256 ^ m) + value =
        value + 256 ^ m * (256 * (k * 256 ^ (n - m - 1))) by ring,
        Nat.add_mul_div_left _ _ (Nat.pow_pos (by decide)), Nat.add_comm]
    rw [bytesOf, bytesOf, ih (by omega), hdiv]
    refine congrArg (· :: bytesOf value m) (UInt8.toNat_inj.1 ?_)
    rw [UInt8.toNat_ofNat', UInt8.toNat_ofNat']
    omega

theorem bytesOf_bigEndian (bytes : List UInt8) :
    bytesOf (bigEndian bytes) bytes.length = bytes := by
  induction bytes with
  | nil => rfl
  | cons b bytes ih =>
    have hlt := bigEndian_lt bytes
    have hone : bigEndian [b] = b.toNat := Nat.zero_add _
    have hcons : bigEndian (b :: bytes) = b.toNat * 256 ^ bytes.length + bigEndian bytes := by
      rw [← List.singleton_append, bigEndian_append, hone]
    have hhead : (b.toNat * 256 ^ bytes.length + bigEndian bytes) / 256 ^ bytes.length =
        b.toNat := by
      rw [Nat.add_comm, Nat.add_mul_div_right _ _ (Nat.pow_pos (by decide)),
        Nat.div_eq_of_lt hlt, Nat.zero_add]
    rw [List.length_cons, bytesOf, hcons, hhead, bytesOf_add _ _ (Nat.le_refl _), ih,
      UInt8.ofNat_toNat]

/-- A byte behind the bytes that a register holds. -/
theorem toNat_shiftIn {value : UInt32} (h : value.toNat < 2 ^ 24) (byte : UInt8) :
    ((value <<< 8) ||| byte.toUInt32).toNat = value.toNat * 256 + byte.toNat := by
  have hbyte := byte.toNat_lt
  rw [UInt32.toNat_or, UInt32.toNat_shiftLeft, UInt8.toNat_toUInt32,
    show (8 : UInt32).toNat % 32 = 8 from rfl, Nat.mod_eq_of_lt (by rw [Nat.shiftLeft_eq]; omega),
    ← Nat.shiftLeft_add_eq_or_of_lt hbyte, Nat.shiftLeft_eq]

end CuteMac.Core

namespace CuteMac.Scsi

open Core (bytesOf bigEndian)

/-! ## The glue -/

inductive RegisterLane where
  | mostSignificant
  | leastSignificant
  deriving DecidableEq, Repr

structure Wiring where
  registerLane : RegisterLane := .mostSignificant
  pseudoDmaLane : RegisterLane := .mostSignificant
  pseudoDmaBurst : Bool := false
  waitForDrq : Bool := true
  deriving DecidableEq, Repr

namespace MacintoshNcr5380Bus

def clampAccess (accessBytes : Nat) : Nat := max 1 (min 4 accessBytes)

def laneShift (lane : RegisterLane) (accessBytes : Nat) : Nat :=
  if accessBytes = 1 ∨ lane = .leastSignificant then 0 else (accessBytes - 1) * 8

def selectedByte (value : UInt32) (lane : RegisterLane) (accessBytes : Nat) : UInt8 :=
  (value >>> UInt32.ofNat (laneShift lane accessBytes)).toUInt8

/-- A byte on a lane, with zeros on the others. -/
def onLane (byte : UInt8) (lane : RegisterLane) (accessBytes : Nat) : UInt32 :=
  byte.toUInt32 <<< UInt32.ofNat (laneShift lane accessBytes)

variable {ι ω : Type} (wiring : Wiring)

def readRegister (s : Ncr5380 ι ω) (index : UInt8) (accessBytes : Nat) : UInt32 × Ncr5380 ι ω :=
  let (byte, s) := s.readRegister index false
  (onLane byte wiring.registerLane (clampAccess accessBytes), s)

def readDack (s : Ncr5380 ι ω) : UInt8 × Ncr5380 ι ω :=
  (if wiring.waitForDrq then (s.readRegister 5 false).2 else s).readRegister 6 true

/-- The loop of a burst. -/
def readBurst : Nat → UInt32 → Ncr5380 ι ω → UInt32 × Ncr5380 ι ω
  | 0, value, s => (value, s)
  | bytes + 1, value, s =>
    let (byte, s) := readDack wiring s
    readBurst bytes ((value <<< 8) ||| byte.toUInt32) s

def readPseudoDma (s : Ncr5380 ι ω) (accessBytes : Nat) : UInt32 × Ncr5380 ι ω :=
  let accessBytes := clampAccess accessBytes
  if !wiring.pseudoDmaBurst ∨ accessBytes = 1 then
    let (byte, s) := readDack wiring s
    (onLane byte wiring.pseudoDmaLane accessBytes, s)
  else readBurst wiring accessBytes 0 s

section
variable [ScsiTarget ι ω]

def writeRegister (s : Ncr5380 ι ω) (index : UInt8) (accessBytes : Nat) (value : UInt32) :
    Ncr5380 ι ω :=
  s.writeRegister index false (selectedByte value wiring.registerLane (clampAccess accessBytes))

def writeDack (s : Ncr5380 ι ω) (value : UInt8) : Ncr5380 ι ω :=
  (if wiring.waitForDrq then (s.readRegister 5 false).2 else s).writeRegister 0 true value

def writePseudoDma (s : Ncr5380 ι ω) (accessBytes : Nat) (value : UInt32) : Ncr5380 ι ω :=
  let accessBytes := clampAccess accessBytes
  if !wiring.pseudoDmaBurst ∨ accessBytes = 1 then
    writeDack wiring s (selectedByte value wiring.pseudoDmaLane accessBytes)
  else
    (List.range accessBytes).foldl (fun s byte =>
      writeDack wiring s (value >>> UInt32.ofNat ((accessBytes - byte - 1) * 8)).toUInt8) s

end

/-! ## Reads of a guest -/

/-- The bytes that a guest finds in what the aperture returned: the one on its lane, or those
    of a burst, the most significant one first. -/
def delivered (accessBytes : Nat) (value : UInt32) : List UInt8 :=
  let accessBytes := clampAccess accessBytes
  if !wiring.pseudoDmaBurst ∨ accessBytes = 1 then
    [selectedByte value wiring.pseudoDmaLane accessBytes]
  else bytesOf value.toNat accessBytes

/-- The registers that a guest may look at during a transfer. -/
inductive StatusRegister where
  | currentScsiBusStatus
  | busAndStatus
  | reset
  deriving DecidableEq, Repr

def StatusRegister.index : StatusRegister → UInt8
  | currentScsiBusStatus => 4
  | busAndStatus => 5
  | reset => 7

inductive GuestRead where
  | pseudoDma (accessBytes : Nat)
  | status (register : StatusRegister) (accessBytes : Nat)
  deriving DecidableEq, Repr

/-- The bytes that the aperture delivers in one read. -/
def guestRead (s : Ncr5380 ι ω) : GuestRead → List UInt8 × Ncr5380 ι ω
  | .pseudoDma accessBytes =>
    let (value, s) := readPseudoDma wiring s accessBytes
    (delivered wiring accessBytes value, s)
  | .status register accessBytes => ([], (readRegister wiring s register.index accessBytes).2)

/-- The bytes that the aperture delivers in a sequence of reads. -/
def guestReads (s : Ncr5380 ι ω) : List GuestRead → List UInt8 × Ncr5380 ι ω
  | [] => ([], s)
  | read :: reads =>
    let (bytes, s) := guestRead wiring s read
    let (more, s) := guestReads s reads
    (bytes ++ more, s)

/-! ## What a target offers -/

/-- The target has the bytes `rest` left, and REQ is asserted or about to be; without bytes
    left the chip is in the status phase. -/
structure Offers (s : Ncr5380 ι ω) (rest : List UInt8) (status : UInt8) : Prop where
  status : s.status = status
  requests : s.request = true ∨ s.requestReassertPending = true
  dataIn : rest ≠ [] → s.phase = .dataIn
  data : rest ≠ [] → s.dataBuffer.drop s.dataIndex = rest
  finished : rest = [] → s.phase = .status

theorem Offers.reassert {s : Ncr5380 ι ω} {rest : List UInt8} {status : UInt8}
    (h : Offers s rest status) :
    Offers s.reassertRequest rest status ∧ s.reassertRequest.request = true := by
  unfold Ncr5380.reassertRequest
  by_cases hpending : s.requestReassertPending = true
  · rw [if_pos hpending]
    exact ⟨⟨h.status, .inl rfl, h.dataIn, h.data, h.finished⟩, rfl⟩
  · rw [if_neg hpending]
    exact ⟨h, h.requests.resolve_right hpending⟩

/-- A look at a status register takes nothing from the target. -/
theorem Offers.look {s : Ncr5380 ι ω} {rest : List UInt8} {status : UInt8}
    (h : Offers s rest status) (register : StatusRegister) :
    Offers (s.readRegister register.index false).2 rest status := by
  cases register with
  | currentScsiBusStatus => exact h.reassert.1
  | busAndStatus => exact h.reassert.1
  | reset => exact h

/-- A DACK strobe takes one byte, and the status once there is none left. -/
theorem Offers.dack {s : Ncr5380 ι ω} {rest : List UInt8} {status : UInt8}
    (h : Offers s rest status) (hrequest : s.request = true) :
    (s.readRegister 6 true).1 = rest.headD status ∧
      Offers (s.readRegister 6 true).2 rest.tail status := by
  unfold Ncr5380.readRegister
  rw [if_pos rfl, hrequest, Bool.not_true, if_neg (by decide)]
  cases rest with
  | nil =>
    have hphase : s.phase = .status := h.finished rfl
    have hread : s.readDataByte = (s.status, s) := by
      unfold Ncr5380.readDataByte
      rw [hphase]
    rw [hread]
    dsimp only
    rw [if_neg (fun hdata => by rw [hphase] at hdata; exact absurd hdata.1 (by decide))]
    exact ⟨h.status, h⟩
  | cons b rest =>
    have hphase : s.phase = .dataIn := h.dataIn (List.cons_ne_nil _ _)
    have hdrop : s.dataBuffer.drop s.dataIndex = b :: rest := h.data (List.cons_ne_nil _ _)
    have hlength : s.dataBuffer.length - s.dataIndex = rest.length + 1 := by
      rw [← List.length_drop, hdrop, List.length_cons]
    have hbyte : byteAt s.dataBuffer s.dataIndex = b := by
      have hhead : (s.dataBuffer.drop s.dataIndex)[0]? = some b := by
        rw [hdrop]
        rfl
      rw [List.getElem?_drop, Nat.add_zero] at hhead
      rw [byteAt, List.getD_eq_getElem?_getD, hhead]
      rfl
    have hrest : s.dataBuffer.drop (s.dataIndex + 1) = rest := by
      rw [← List.drop_drop, hdrop]
      rfl
    have hread : s.readDataByte = (b, { s with dataIndex := s.dataIndex + 1 }) := by
      unfold Ncr5380.readDataByte
      rw [hphase]
      dsimp only
      rw [if_pos (by omega), hbyte]
    rw [hread]
    dsimp only
    rw [if_pos ⟨hphase, hrequest⟩]
    refine ⟨rfl, ?_⟩
    by_cases hlast : s.dataBuffer.length ≤ s.dataIndex + 1
    · -- the last byte: the chip goes on to the status
      have hnil : rest = [] := by
        rw [← hrest]
        exact List.drop_eq_nil_of_le hlast
      rw [if_pos hlast, Ncr5380.setPhase_ne (by decide)]
      rw [List.tail_cons, hnil]
      exact ⟨h.status, .inl rfl, fun hne => absurd rfl hne, fun hne => absurd rfl hne, fun _ => rfl⟩
    · rw [if_neg hlast]
      refine ⟨h.status, .inr rfl, fun _ => hphase, fun _ => hrest, fun hnil => ?_⟩
      rw [List.tail_cons] at hnil
      rw [hnil, List.length_nil] at hlength
      omega

variable {wiring}

theorem Offers.readDack {s : Ncr5380 ι ω} {rest : List UInt8} {status : UInt8}
    (hwait : wiring.waitForDrq = true) (h : Offers s rest status) :
    (readDack wiring s).1 = rest.headD status ∧
      Offers (readDack wiring s).2 rest.tail status := by
  obtain ⟨hreassert, hrequest⟩ := h.reassert
  unfold MacintoshNcr5380Bus.readDack
  rw [if_pos hwait]
  exact hreassert.dack hrequest

/-- What `count` strobes take from `rest`: its bytes, and then the status again and again. -/
def taken (rest : List UInt8) (status : UInt8) (count : Nat) : List UInt8 :=
  (rest ++ List.replicate count status).take count

theorem taken_succ (rest : List UInt8) (status : UInt8) (count : Nat) :
    taken rest status (count + 1) = rest.headD status :: taken rest.tail status count := by
  unfold taken
  cases rest with
  | nil => simp [List.replicate_succ]
  | cons b rest =>
    have hmore : rest ++ List.replicate (count + 1) status =
        (rest ++ List.replicate count status) ++ [status] := by
      rw [List.replicate_succ', List.append_assoc]
    rw [List.cons_append, List.take_succ_cons, hmore, List.take_append_of_le_length (by simp)]
    rfl

theorem length_taken (rest : List UInt8) (status : UInt8) (count : Nat) :
    (taken rest status count).length = count := by
  unfold taken
  simp

theorem taken_add (rest : List UInt8) (status : UInt8) (a b : Nat) :
    taken rest status (a + b) = taken rest status a ++ taken (rest.drop a) status b := by
  induction a generalizing rest with
  | zero => simp [taken]
  | succ a ih =>
    rw [Nat.add_right_comm, taken_succ, taken_succ, ih, List.cons_append, List.drop_tail]

/-- The bytes of a burst, the first one the most significant. -/
theorem Offers.readBurst {status : UInt8} (hwait : wiring.waitForDrq = true) (bytes : Nat)
    (value : UInt32) (s : Ncr5380 ι ω) (rest : List UInt8) (h : Offers s rest status)
    (hbytes : bytes ≤ 4) (hvalue : value.toNat < 256 ^ (4 - bytes)) :
    (readBurst wiring bytes value s).1.toNat =
        value.toNat * 256 ^ bytes + bigEndian (taken rest status bytes) ∧
      Offers (readBurst wiring bytes value s).2 (rest.drop bytes) status := by
  induction bytes generalizing value s rest with
  | zero =>
    refine ⟨?_, h⟩
    show value.toNat = value.toNat * 256 ^ 0 + bigEndian (taken rest status 0)
    simp [taken, bigEndian]
  | succ bytes ih =>
    obtain ⟨hbyte, hoffers⟩ := h.readDack hwait
    have hsmall : value.toNat < 2 ^ 24 := by
      have hle : 256 ^ (4 - (bytes + 1)) ≤ 256 ^ 3 := Nat.pow_le_pow_right (by decide) (by omega)
      omega
    have hshift := Core.toNat_shiftIn hsmall (MacintoshNcr5380Bus.readDack wiring s).1
    have hnext : ((value <<< 8) ||| (MacintoshNcr5380Bus.readDack wiring s).1.toUInt32).toNat <
        256 ^ (4 - bytes) := by
      have hlt := (MacintoshNcr5380Bus.readDack wiring s).1.toNat_lt
      have hpow : 256 ^ (4 - bytes) = 256 ^ (4 - (bytes + 1)) * 256 := by
        rw [← Nat.pow_succ]
        congr 1
        omega
      rw [hshift, hpow]
      omega
    obtain ⟨hvalue', hoffers'⟩ := ih _ _ _ hoffers (by omega) hnext
    refine ⟨?_, ?_⟩
    · have hone : bigEndian [rest.headD status] = (rest.headD status).toNat := Nat.zero_add _
      rw [MacintoshNcr5380Bus.readBurst]
      dsimp only
      rw [hvalue', hshift, hbyte, taken_succ, ← List.singleton_append, Core.bigEndian_append, hone,
        length_taken]
      ring
    · rw [List.drop_tail] at hoffers'
      exact hoffers'

theorem clampAccess_bounds (accessBytes : Nat) :
    1 ≤ clampAccess accessBytes ∧ clampAccess accessBytes ≤ 4 := by
  unfold clampAccess
  omega

/-- A byte is found where it was put. -/
theorem selectedByte_onLane (byte : UInt8) (lane : RegisterLane) {accessBytes : Nat}
    (h : accessBytes ≤ 4) :
    selectedByte (onLane byte lane accessBytes) lane accessBytes = byte := by
  have hshift : laneShift lane accessBytes ≤ 24 := by
    unfold laneShift
    split_ifs <;> omega
  have hbyte := byte.toNat_lt
  have hcount : (UInt32.ofNat (laneShift lane accessBytes)).toNat % 32 =
      laneShift lane accessBytes := by
    rw [UInt32.toNat_ofNat', Nat.mod_eq_of_lt (by omega), Nat.mod_eq_of_lt (by omega)]
  have hpow : 2 ^ laneShift lane accessBytes ≤ 2 ^ 24 := Nat.pow_le_pow_right (by decide) hshift
  have hput : (onLane byte lane accessBytes).toNat =
      byte.toNat * 2 ^ laneShift lane accessBytes := by
    rw [onLane, UInt32.toNat_shiftLeft, UInt8.toNat_toUInt32, hcount, Nat.shiftLeft_eq,
      Nat.mod_eq_of_lt]
    calc byte.toNat * 2 ^ laneShift lane accessBytes
        ≤ 255 * 2 ^ 24 := Nat.mul_le_mul (by omega) hpow
      _ < 2 ^ 32 := by decide
  refine UInt8.toNat_inj.1 ?_
  rw [selectedByte, UInt32.toNat_toUInt8, UInt32.toNat_shiftRight, hcount, hput,
    Nat.shiftRight_eq_div_pow, Nat.mul_div_cancel _ (Nat.pow_pos (by decide))]
  omega

/-- A read delivers the next bytes of the target, and leaves it the others. -/
theorem Offers.guestRead {s : Ncr5380 ι ω} {rest : List UInt8} {status : UInt8}
    (hwait : wiring.waitForDrq = true) (h : Offers s rest status) (read : GuestRead) :
    let r := guestRead wiring s read
    r.1 = taken rest status r.1.length ∧ Offers r.2 (rest.drop r.1.length) status := by
  cases read with
  | status register accessBytes => exact ⟨rfl, h.look register⟩
  | pseudoDma accessBytes =>
    obtain ⟨hone, hfour⟩ := clampAccess_bounds accessBytes
    unfold MacintoshNcr5380Bus.guestRead readPseudoDma delivered
    dsimp only
    generalize clampAccess accessBytes = accessBytes at hone hfour
    by_cases hsingle : (!wiring.pseudoDmaBurst) = true ∨ accessBytes = 1
    · obtain ⟨hbyte, hoffers⟩ := h.readDack hwait
      rw [if_pos hsingle, if_pos hsingle]
      dsimp only
      rw [selectedByte_onLane _ _ hfour, hbyte]
      refine ⟨(taken_succ rest status 0).symm, ?_⟩
      rw [List.length_singleton, List.drop_one]
      exact hoffers
    · obtain ⟨hvalue, hoffers⟩ := h.readBurst hwait accessBytes 0 s rest hfour
        (Nat.pow_pos (by decide))
      rw [if_neg hsingle, if_neg hsingle, hvalue]
      have hbytes : bytesOf (bigEndian (taken rest status accessBytes)) accessBytes =
          taken rest status accessBytes := by
        have hall := Core.bytesOf_bigEndian (taken rest status accessBytes)
        rwa [length_taken] at hall
      rw [show (0 : UInt32).toNat * 256 ^ accessBytes +
        bigEndian (taken rest status accessBytes) = bigEndian (taken rest status accessBytes) by
          simp, hbytes, length_taken]
      exact ⟨rfl, hoffers⟩

theorem Offers.guestReads {rest : List UInt8} {status : UInt8} (hwait : wiring.waitForDrq = true)
    (reads : List GuestRead) (s : Ncr5380 ι ω) (h : Offers s rest status) :
    let r := guestReads wiring s reads
    r.1 = taken rest status r.1.length ∧ Offers r.2 (rest.drop r.1.length) status := by
  induction reads generalizing s rest with
  | nil => exact ⟨rfl, h⟩
  | cons read reads ih =>
    obtain ⟨hbytes, hoffers⟩ := h.guestRead hwait read
    obtain ⟨hmore, hoffers'⟩ := ih _ hoffers
    have hcons : MacintoshNcr5380Bus.guestReads wiring s (read :: reads) =
        ((MacintoshNcr5380Bus.guestRead wiring s read).1 ++
          (MacintoshNcr5380Bus.guestReads wiring
            (MacintoshNcr5380Bus.guestRead wiring s read).2 reads).1,
          (MacintoshNcr5380Bus.guestReads wiring
            (MacintoshNcr5380Bus.guestRead wiring s read).2 reads).2) := rfl
    intro r
    have hr : r = _ := hcons
    rw [hr]
    dsimp only
    rw [List.length_append, taken_add, ← hbytes, ← hmore, ← List.drop_drop]
    exact ⟨rfl, hoffers'⟩

/-! ## Commands -/

section
variable [ScsiTarget ι ω]

/-- A command that is run offers the data that its target gave, or the status at once. -/
theorem offers_runCommand (s : Ncr5380 ι ω) (target : ι) :
    let result := (ScsiTarget.executeCommand s.world target s.command []).1
    Offers (s.runCommand target) result.data result.status := by
  intro result
  obtain ⟨hphase, -⟩ := Ncr5380.runCommand_fields s target
  obtain ⟨hdata, hindex, hstatus, hrequest, -⟩ := Ncr5380.runCommand_data s target
  refine ⟨hstatus, .inl hrequest, fun hne => ?_, fun _ => ?_, fun hnil => ?_⟩
  · rw [hphase, if_neg hne]
  · rw [hdata, hindex, List.drop_zero]
  · rw [hphase, if_pos hnil]

/-- **Pseudo-DMA reads lose and repeat nothing.**  However a guest reads, through an aperture
    that waits for DRQ, it gets the data that the target gave, in order; and once it has all
    of it, the chip is in the status phase with the target's status. -/
theorem pseudoDma_in_order (wiring : Wiring) (hwait : wiring.waitForDrq = true) (s : Ncr5380 ι ω)
    (target : ι) (reads : List GuestRead) :
    let result := (ScsiTarget.executeCommand s.world target s.command []).1
    let r := guestReads wiring (s.runCommand target) reads
    r.1.take result.data.length = result.data.take r.1.length ∧
      (result.data.length ≤ r.1.length → r.2.phase = .status ∧ r.2.status = result.status) := by
  intro result r
  obtain ⟨hbytes, hoffers⟩ := (offers_runCommand s target).guestReads hwait reads
  have hbytes' : r.1 = taken result.data result.status r.1.length := hbytes
  refine ⟨?_, fun hall => ⟨hoffers.finished (List.drop_eq_nil_of_le hall), hoffers.status⟩⟩
  rw [hbytes', length_taken]
  unfold taken
  rw [List.take_take, List.take_append]
  rcases Nat.le_total result.data.length r.1.length with hle | hle
  · rw [Nat.min_eq_left hle, Nat.sub_self, List.take_zero, List.append_nil, List.take_length,
      List.take_of_length_le hle]
  · rw [Nat.min_eq_right hle, Nat.sub_eq_zero_of_le hle, List.take_zero, List.append_nil]

end

/-- A word burst, a look at the bus and a byte, from a target with three bytes. -/
theorem pseudoDma_in_order_three :
    let wiring : Wiring := { pseudoDmaBurst := true }
    let target : FixedTarget := ⟨{ data := [0x11, 0x22, 0x33] }⟩
    let r := guestReads wiring ((Ncr5380.initial (fun _ => some target) ()).runCommand target)
      [.pseudoDma 2, .status .currentScsiBusStatus 1, .pseudoDma 1]
    r.1 = [0x11, 0x22, 0x33] ∧ r.2.phase = .status := by
  have h := pseudoDma_in_order { pseudoDmaBurst := true } rfl
    (Ncr5380.initial (fun _ => some (⟨{ data := [0x11, 0x22, 0x33] }⟩ : FixedTarget)) ())
    ⟨{ data := [0x11, 0x22, 0x33] }⟩
    [.pseudoDma 2, .status .currentScsiBusStatus 1, .pseudoDma 1]
  exact ⟨h.1, (h.2 (by decide)).1⟩

end MacintoshNcr5380Bus

end CuteMac.Scsi
