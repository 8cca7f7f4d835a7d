/-
  The parameter RAM behind the pins is an array.

  * `Pins`, `observed`: a waveform at the pins, and the data line after each call;
  * `sessions`, `edges`: the calls between two changes of the enable line, and the
    rising edges of the clock in them;
  * `transactions`: the reads and writes that the bits of a session spell;
  * `Memory.apply`: what they mean for 256 bytes and a write protection;
  * `run_refines`: the chip reads and writes these bytes, on every waveform.
-/
import CuteMac.Rtc.MacRtc

namespace CuteMac.Rtc

open Machine ShiftRegister

/-! ## Waveforms -/

/-- One call of `setPins`, and the time at which it is made. -/
structure Pins where
  seconds : UInt32
  enabled : Bool
  clockHigh : Bool
  dataHigh : Bool

def step (s : MacRtc) (p : Pins) : MacRtc := s.setPins p.seconds p.enabled p.clockHigh p.dataHigh

/-- The calls, each with the data line after it. -/
def observed : MacRtc → List Pins → List (Pins × Bool)
  | _, [] => []
  | s, p :: ps => (p, (step s p).dataLine) :: observed (step s p) ps

/-- The stretches in which the chip is enabled. -/
def sessions (w : List (Pins × Bool)) : List (List (Pins × Bool)) := w.splitOnP fun p => !p.1.enabled

/-- A rising edge of the clock: the bit and the time that are sampled, and the bit on the data
    line. -/
structure Edge where
  seconds : UInt32
  data : Bool
  line : Bool

def edgesFrom : Bool → List (Pins × Bool) → List Edge
  | _, [] => []
  | level, (p, line) :: w =>
    if !level && p.clockHigh then ⟨p.seconds, p.dataHigh, line⟩ :: edgesFrom p.clockHigh w
    else edgesFrom p.clockHigh w

/-- The rising edges of a session, the first call of which sets the level of the clock. -/
def edges : List (Pins × Bool) → List Edge
  | [] => []
  | p :: w => edgesFrom p.1.clockHigh w

/-! ## Transactions -/

/-- What the guest sends, and what the chip answers. -/
def received (es : List Edge) : UInt8 := byteOf (es.map Edge.data)
def answered (es : List Edge) : UInt8 := byteOf (es.map Edge.line)

def timeOf (es : List Edge) : UInt32 := (es.map Edge.seconds).getLastD 0

/-- A complete read or write, of a register or of an address; `seen` is what the guest reads. -/
inductive Transaction where
  | write (register value : UInt8)
  | read (register : UInt8) (seconds : UInt32) (seen : UInt8)
  | writeCell (address value : UInt8)
  | readCell (address seen : UInt8)
  deriving DecidableEq

/-- The transactions of a session; one that the end of the session cuts off is none. -/
def transactions (es : List Edge) : List Transaction :=
  let command := received (es.take 8)
  let read := command &&& 0x80 ≠ 0
  if command &&& 0x78 = 0x38 then
    if _h : 24 ≤ es.length then
      let address := MacRtc.sectorOf command (received ((es.drop 8).take 8))
      let data := (es.drop 16).take 8
      (if read then .readCell address (answered data) else .writeCell address (received data)) ::
        transactions (es.drop 24)
    else []
  else
    if _h : 16 ≤ es.length then
      let register := MacRtc.register command
      let data := (es.drop 8).take 8
      (if read then .read register (timeOf (es.take 8)) (answered data)
        else .write register (received data)) :: transactions (es.drop 16)
    else []
termination_by es.length
decreasing_by all_goals rw [List.length_drop]; omega

/-- The bytes, and whether they may be written. -/
structure Memory where
  ram : ParameterRam
  writeProtected : Bool

namespace Memory

/-- The byte behind a register. -/
def cell (register : UInt8) : Option UInt8 :=
  if register < 8 then none
  else if register < 12 then some (0x08 + (register &&& 3))
  else if register < 16 then none
  else some (0x10 + (register &&& 0x0f))

def store (m : Memory) (address value : UInt8) : Memory :=
  if m.writeProtected then m else { m with ram := m.ram.write address value }

/-- The value of a register at a time. -/
def value (m : Memory) (register : UInt8) (seconds : UInt32) : UInt8 :=
  if register < 8 then MacRtc.secondsByte seconds register
  else ((cell register).map m.ram.read).getD 0

/-- What a transaction does; a read is one of the memory where the guest has seen the value. -/
def apply (m : Memory) : Transaction → Option Memory
  | .write register value =>
    match cell register with
    | some address => some (m.store address value)
    | none =>
      if register = 13 then some { m with writeProtected := value &&& 0x80 != 0 } else some m
  | .read register seconds seen => if seen = m.value register seconds then some m else none
  | .writeCell address value => some (m.store address value)
  | .readCell address seen => if seen = m.ram.read address then some m else none

end Memory

def MacRtc.memory (s : MacRtc) : Memory := ⟨s.parameterRam, s.writeProtected⟩

/-! ## Eight edges -/

/-- The chip after rising edges, apart from the level of the clock. -/
def clocked (s : MacRtc) (es : List Edge) : MacRtc :=
  es.foldl (fun s e => s.clockEdge e.seconds e.data) s

/-- The lines of the edges are what the chip answers. -/
def Answers : MacRtc → List Edge → Prop
  | _, [] => True
  | s, e :: es =>
    e.line = (s.clockEdge e.seconds e.data).dataLine ∧ Answers (s.clockEdge e.seconds e.data) es

theorem clocked_append (s : MacRtc) (es fs : List Edge) :
    clocked s (es ++ fs) = clocked (clocked s es) fs := List.foldl_append

theorem answers_append {s : MacRtc} {es fs : List Edge} :
    Answers s (es ++ fs) ↔ Answers s es ∧ Answers (clocked s es) fs := by
  induction es generalizing s with
  | nil => exact (iff_of_eq (true_and _)).symm
  | cons e es ih => rw [List.cons_append, Answers, Answers, ih, and_assoc]; rfl

section
variable {s : MacRtc} {es : List Edge}

/-- Fewer edges than a byte has. -/
theorem clocked_input (hout : s.outputActive = false) (h : s.bits + es.length < 8) :
    clocked s es =
      { s with
        shift := (es.map Edge.data).foldl shiftIn s.shift
        bits := s.bits + es.length } := by
  induction es generalizing s with
  | nil => rfl
  | cons e es ih =>
    rw [List.length_cons] at h
    have hedge : s.clockEdge e.seconds e.data =
        { s with shift := shiftIn s.shift e.data, bits := s.bits + 1 } := by
      simp only [MacRtc.clockEdge, hout, Bool.false_eq_true, if_false]
      exact if_neg (by omega)
    have htail := ih (s := s.clockEdge e.seconds e.data) (by rw [hedge]; exact hout)
      (by rw [hedge]; show s.bits + 1 + es.length < 8; omega)
    show clocked (s.clockEdge e.seconds e.data) es = _
    rw [htail, hedge, List.length_cons]
    simp only [List.map_cons, List.foldl_cons, Nat.add_assoc, Nat.add_comm 1]

/-- A byte comes in. -/
theorem clocked_byte (hout : s.outputActive = false) (hbits : s.bits = 0) (h : es.length = 8) :
    clocked s es =
      MacRtc.receiveByte { s with shift := received es } (timeOf es) (received es) := by
  obtain ⟨fs, e, rfl⟩ : ∃ fs e, es = fs ++ [e] :=
    ⟨es.dropLast, es.getLast (by rintro rfl; simp at h), (List.dropLast_append_getLast _).symm⟩
  have hfs : fs.length = 7 := by simpa using h
  have htime : timeOf (fs ++ [e]) = e.seconds := by simp [timeOf]
  have hlength : ((fs ++ [e]).map Edge.data).length = 8 := by simpa using h
  have hall := foldl_shiftIn_eight hlength s.shift
  rw [List.map_append, List.foldl_append, ← List.map_append] at hall
  have hall' : shiftIn ((fs.map Edge.data).foldl shiftIn s.shift) e.data =
      received (fs ++ [e]) := hall
  rw [clocked_append, clocked_input hout (by omega), htime]
  show MacRtc.clockEdge _ e.seconds e.data = _
  simp only [MacRtc.clockEdge, hout, Bool.false_eq_true, if_false, hbits, hfs, hall']
  rfl

/-- The edges of a byte that is cut off write nothing. -/
theorem clocked_short (h : s.bits + es.length < 8) : (clocked s es).memory = s.memory := by
  induction es generalizing s with
  | nil => rfl
  | cons e es ih =>
    rw [List.length_cons] at h
    have hedge : (s.clockEdge e.seconds e.data).memory = s.memory ∧
        (s.clockEdge e.seconds e.data).bits = s.bits + 1 := by
      unfold MacRtc.clockEdge
      cases s.outputActive with
      | true => simp only [if_true]; rw [if_neg (by omega)]; exact ⟨rfl, rfl⟩
      | false =>
        simp only [Bool.false_eq_true, if_false]; rw [if_neg (by omega)]; exact ⟨rfl, rfl⟩
    show (clocked (s.clockEdge e.seconds e.data) es).memory = _
    rw [ih (by omega), hedge.1]

theorem clockEdge_output (hout : s.outputActive = true) (seconds : UInt32) (data : Bool) :
    s.clockEdge seconds data =
      { s with
        dataLine := shiftOut s.shift s.bits
        bits := if s.bits = 7 then 0 else s.bits + 1
        outputActive := s.bits != 7 } := by
  simp only [MacRtc.clockEdge, hout, if_true]
  by_cases h : s.bits = 7
  · simp [h]
  · have h8 : s.bits + 1 ≠ 8 := by omega
    simp [h, h8]

/-- What is left of a byte goes out. -/
theorem clocked_output (hout : s.outputActive = true) (hbits : s.bits + es.length = 8)
    (hpos : es ≠ []) (ha : Answers s es) :
    (∃ line, clocked s es = { s with bits := 0, outputActive := false, dataLine := line }) ∧
      es.map Edge.line = (List.range es.length).map fun i => shiftOut s.shift (s.bits + i) := by
  induction es generalizing s with
  | nil => exact absurd rfl hpos
  | cons e es ih =>
    obtain ⟨hline, ha'⟩ := ha
    have hedge := clockEdge_output hout e.seconds e.data
    rw [List.length_cons] at hbits
    rw [List.length_cons, List.range_succ_eq_map, List.map_cons, List.map_cons, hline,
      show clocked s (e :: es) = clocked (s.clockEdge e.seconds e.data) es from rfl]
    rw [hedge] at ha' ⊢
    rcases eq_or_ne es [] with rfl | hne
    · have h7 : s.bits = 7 := by simpa using hbits
      simp [h7, clocked]
    · have h7 : s.bits ≠ 7 := by
        have := List.length_pos_iff.2 hne
        omega
      simp only [if_neg h7, bne_iff_ne.2 h7] at ha' ⊢
      obtain ⟨⟨line, hc⟩, hl⟩ := ih rfl (by show s.bits + 1 + es.length = 8; omega) hne ha'
      refine ⟨⟨line, hc⟩, ?_⟩
      rw [hl, List.map_map]
      refine congrArg _ (List.map_congr_left fun i _ => ?_)
      simp only [Function.comp_apply, Nat.add_assoc, Nat.add_comm 1]

/-- A byte goes out. -/
theorem clocked_answer (hout : s.outputActive = true) (hbits : s.bits = 0) (h : es.length = 8)
    (ha : Answers s es) :
    (∃ line, clocked s es = { s with bits := 0, outputActive := false, dataLine := line }) ∧
      answered es = s.shift := by
  obtain ⟨hc, hl⟩ := clocked_output hout (by omega) (by rintro rfl; simp at h) ha
  refine ⟨hc, ?_⟩
  rw [answered, hl, h]
  simp only [hbits, Nat.zero_add]
  exact byteOf_shiftOut s.shift

/-! ## One transaction -/

/-- The chip waits for a command. -/
structure Ready (s : MacRtc) : Prop where
  mode : s.mode = 0
  bits : s.bits = 0
  input : s.outputActive = false

/-- The first byte of the edges comes in. -/
theorem byte_phase (ha : Answers s es) (hout : s.outputActive = false) (hbits : s.bits = 0)
    (h : 8 ≤ es.length) {t : MacRtc}
    (ht : t = MacRtc.receiveByte { s with shift := received (es.take 8) } (timeOf (es.take 8))
      (received (es.take 8))) :
    clocked s es = clocked t (es.drop 8) ∧ Answers t (es.drop 8) := by
  have hlen : (es.take 8).length = 8 := List.length_take_of_le h
  have hbyte := clocked_byte hout hbits hlen
  rw [← List.take_append_drop 8 es, answers_append, hbyte, ← ht] at ha
  refine ⟨?_, ha.2⟩
  conv_lhs => rw [← List.take_append_drop 8 es, clocked_append, hbyte, ← ht]

/-- The first byte of the edges goes out. -/
theorem answer_phase (ha : Answers s es) (hout : s.outputActive = true) (hbits : s.bits = 0)
    (hmode : s.mode = 0) (h : 8 ≤ es.length) :
    ∃ s', Ready s' ∧ s'.memory = s.memory ∧ answered (es.take 8) = s.shift ∧
      clocked s es = clocked s' (es.drop 8) ∧ Answers s' (es.drop 8) := by
  have hlen : (es.take 8).length = 8 := List.length_take_of_le h
  rw [← List.take_append_drop 8 es, answers_append] at ha
  obtain ⟨⟨line, hc⟩, hshift⟩ := clocked_answer hout hbits hlen ha.1
  refine ⟨clocked s (es.take 8), ?_, ?_, hshift, ?_, ha.2⟩
  · rw [hc]; exact ⟨hmode, rfl, rfl⟩
  · rw [hc]; rfl
  · conv_lhs => rw [← List.take_append_drop 8 es, clocked_append]

theorem store_eq (s : MacRtc) (address value : UInt8) :
    ∃ saved, s.store address value =
      { s with parameterRam := (s.memory.store address value).ram, saved := saved } ∧
      (s.memory.store address value).writeProtected = s.writeProtected := by
  unfold MacRtc.store Memory.store MacRtc.memory
  cases h : s.writeProtected with
  | true => exact ⟨s.saved, by simp [← h], by simp⟩
  | false => exact ⟨s.saved ++ [s.parameterRam.write address value], by simp [MacRtc.saveNvram], by simp⟩

theorem accessRegister_read (s : MacRtc) (seconds : UInt32) (command : UInt8) :
    s.accessRegister seconds command 0 false =
      (s.memory.value (MacRtc.register command) seconds, s) := by
  unfold MacRtc.accessRegister Memory.value Memory.cell
  simp only [Bool.false_eq_true, if_false, false_and]
  split_ifs <;> rfl

theorem accessRegister_write (s : MacRtc) (seconds : UInt32) (command value : UInt8) :
    ∃ m saved, (s.accessRegister seconds command value true).2 =
        { s with parameterRam := m.ram, writeProtected := m.writeProtected, saved := saved } ∧
      s.memory.apply (.write (MacRtc.register command) value) = some m := by
  obtain ⟨r, hr⟩ : ∃ r, r = MacRtc.register command := ⟨_, rfl⟩
  unfold MacRtc.accessRegister Memory.apply Memory.cell
  rw [← hr]
  by_cases h8 : r < 8
  · have h13 : r ≠ 13 := by rintro rfl; exact absurd h8 (by decide)
    exact ⟨s.memory, s.saved, by simp [h8, MacRtc.memory], by simp [h8, h13]⟩
  by_cases h12 : r < 12
  · obtain ⟨saved, he, hp⟩ := store_eq s (MacRtc.group2Base + (r &&& 3)) value
    refine ⟨s.memory.store (MacRtc.group2Base + (r &&& 3)) value, saved, ?_, ?_⟩
    · simp [h8, h12, he, hp]
    · simp [h8, h12, MacRtc.group2Base]
  by_cases h16 : r < 16
  · by_cases h13 : r = 13
    · exact ⟨⟨s.parameterRam, value &&& 0x80 != 0⟩, s.saved, by simp [h13],
        by simp [h13, MacRtc.memory]⟩
    · exact ⟨s.memory, s.saved, by simp [h8, h12, h16, h13, MacRtc.memory],
        by simp [h8, h12, h16, h13]⟩
  · obtain ⟨saved, he, hp⟩ := store_eq s (MacRtc.group1Base + (r &&& 0x0f)) value
    refine ⟨s.memory.store (MacRtc.group1Base + (r &&& 0x0f)) value, saved, ?_, ?_⟩
    · simp [h8, h12, h16, he, hp]
    · simp [h8, h12, h16, MacRtc.group1Base]

/-- The edges are a transaction that is cut off, or begin with one. -/
def Progress (s : MacRtc) (es : List Edge) : Prop :=
  (transactions es = [] ∧ (clocked s es).memory = s.memory) ∨
    ∃ t rest s', transactions es = t :: transactions rest ∧ rest.length < es.length ∧ Ready s' ∧
      Answers s' rest ∧ clocked s es = clocked s' rest ∧ s.memory.apply t = some s'.memory

/-- A command of one byte. -/
theorem classic_progress (hr : Ready s) (ha : Answers s es)
    (hcmd : received (es.take 8) &&& 0x78 ≠ 0x38) (h8 : 8 ≤ es.length) : Progress s es := by
  obtain ⟨c, hc⟩ : ∃ c, c = received (es.take 8) := ⟨_, rfl⟩
  rw [Progress, transactions]
  rw [← hc] at hcmd ⊢
  have hlen : (es.drop 8).length = es.length - 8 := List.length_drop
  rw [if_neg hcmd]
  by_cases hread : c &&& 0x80 = 0
  · -- the value comes in behind the command
    obtain ⟨hs1, ha1⟩ := byte_phase (t := { s with shift := c, command := c, mode := 1 })
      ha hr.input hr.bits h8 (by rw [← hc]; simp [MacRtc.receiveByte, hr.mode, hcmd, hread])
    by_cases h16 : 16 ≤ es.length
    · obtain ⟨v, hv⟩ : ∃ v, v = received ((es.drop 8).take 8) := ⟨_, rfl⟩
      obtain ⟨m, saved, haccess, happly⟩ := accessRegister_write
        { s with shift := v, command := c, mode := 1 } (timeOf ((es.drop 8).take 8)) c v
      obtain ⟨hs2, ha2⟩ := byte_phase (t := { s with
          parameterRam := m.ram
          writeProtected := m.writeProtected
          saved := saved
          shift := v
          command := c
          mode := 0 }) ha1 hr.input hr.bits (by omega)
        (by rw [← hv]; simp [MacRtc.receiveByte, haccess])
      rw [List.drop_drop] at hs2 ha2
      refine .inr ⟨.write (MacRtc.register c) v, es.drop 16, _, ?_, ?_, ?_, ha2, hs1.trans hs2, happly⟩
      · rw [dif_pos h16]
        simp only [hread, ne_eq, not_true_eq_false, if_false, ← hv]
      · rw [List.length_drop]; omega
      · exact ⟨rfl, hr.bits, hr.input⟩
    · refine .inl ⟨dif_neg h16, ?_⟩
      rw [hs1, clocked_short (by show s.bits + _ < 8; rw [hr.bits]; omega)]
      rfl
  · -- the register goes out
    obtain ⟨v, hv⟩ : ∃ v, v = s.memory.value (MacRtc.register c) (timeOf (es.take 8)) := ⟨_, rfl⟩
    obtain ⟨hs1, ha1⟩ := byte_phase (t := { s with shift := v, outputActive := true })
      ha hr.input hr.bits h8 (by
        rw [← hc]
        simp only [MacRtc.receiveByte, hr.mode, hcmd, hread, if_true, if_false, ne_eq,
          not_false_eq_true, accessRegister_read]
        rw [hv]; rfl)
    by_cases h16 : 16 ≤ es.length
    · obtain ⟨s2, hr2, hm2, hans, hs2, ha2⟩ := answer_phase ha1 rfl hr.bits hr.mode (by omega)
      rw [List.drop_drop] at hs2 ha2
      refine .inr ⟨.read (MacRtc.register c) (timeOf (es.take 8)) v, es.drop 16, s2, ?_, ?_, hr2, ha2,
        hs1.trans hs2, ?_⟩
      · rw [dif_pos h16]
        simp only [hread, ne_eq, not_false_eq_true, if_true, hans]
      · rw [List.length_drop]; omega
      · rw [Memory.apply, if_pos hv, hm2]; rfl
    · refine .inl ⟨dif_neg h16, ?_⟩
      rw [hs1, clocked_short (by show s.bits + _ < 8; rw [hr.bits]; omega)]
      rfl

/-- A command of two bytes. -/
theorem extended_progress (hr : Ready s) (ha : Answers s es)
    (hcmd : received (es.take 8) &&& 0x78 = 0x38) (h8 : 8 ≤ es.length) : Progress s es := by
  obtain ⟨c, hc⟩ : ∃ c, c = received (es.take 8) := ⟨_, rfl⟩
  rw [Progress, transactions]
  rw [← hc] at hcmd ⊢
  have hlen : (es.drop 8).length = es.length - 8 := List.length_drop
  rw [if_pos hcmd]
  obtain ⟨hs1, ha1⟩ := byte_phase (t := { s with shift := c, command := c, mode := 2 })
    ha hr.input hr.bits h8 (by rw [← hc]; simp [MacRtc.receiveByte, hr.mode, hcmd])
  by_cases h16 : 16 ≤ es.length
  swap
  · refine .inl ⟨dif_neg (by omega), ?_⟩
    rw [hs1, clocked_short (by show s.bits + _ < 8; rw [hr.bits]; omega)]
    rfl
  obtain ⟨w, hw⟩ : ∃ w, w = received ((es.drop 8).take 8) := ⟨_, rfl⟩
  have hlen2 : (es.drop (8 + 8)).length = es.length - 16 := List.length_drop
  by_cases hread : c &&& 0x80 = 0
  · obtain ⟨hs2, ha2⟩ := byte_phase (t := { s with
        shift := w
        command := c
        sector := MacRtc.sectorOf c w
        mode := 3 }) ha1 hr.input hr.bits (by omega)
      (by rw [← hw]; simp [MacRtc.receiveByte, hread])
    rw [List.drop_drop] at hs2 ha2
    by_cases h24 : 24 ≤ es.length
    · obtain ⟨v, hv⟩ : ∃ v, v = received ((es.drop 16).take 8) := ⟨_, rfl⟩
      obtain ⟨saved, hstore, hp⟩ := store_eq
        { s with shift := v, command := c, sector := MacRtc.sectorOf c w, mode := 3 }
        (MacRtc.sectorOf c w) v
      obtain ⟨hs3, ha3⟩ := byte_phase (t := { s with
          parameterRam := (s.memory.store (MacRtc.sectorOf c w) v).ram
          saved := saved
          shift := v
          command := c
          sector := MacRtc.sectorOf c w
          mode := 0 }) ha2 hr.input hr.bits (by omega)
        (by rw [← hv]; simp [MacRtc.receiveByte, hstore]; rfl)
      rw [List.drop_drop] at hs3 ha3
      refine .inr ⟨.writeCell (MacRtc.sectorOf c w) v, es.drop 24, _, ?_, ?_, ?_, ha3,
        hs1.trans (hs2.trans hs3), ?_⟩
      · rw [dif_pos h24]
        simp only [hread, ne_eq, not_true_eq_false, if_false, ← hv, ← hw]
      · rw [List.length_drop]; omega
      · exact ⟨rfl, hr.bits, hr.input⟩
      · exact congrArg (fun p => some (Memory.mk _ p)) hp
    · refine .inl ⟨dif_neg h24, ?_⟩
      rw [hs1, hs2, clocked_short (by show s.bits + _ < 8; rw [hr.bits]; omega)]
      rfl
  · obtain ⟨hs2, ha2⟩ := byte_phase (t := { s with
        shift := s.parameterRam.read (MacRtc.sectorOf c w)
        command := c
        sector := MacRtc.sectorOf c w
        outputActive := true
        mode := 0 }) ha1 hr.input hr.bits (by omega)
      (by rw [← hw]; simp [MacRtc.receiveByte, hread])
    rw [List.drop_drop] at hs2 ha2
    by_cases h24 : 24 ≤ es.length
    · obtain ⟨s3, hr3, hm3, hans, hs3, ha3⟩ := answer_phase ha2 rfl hr.bits rfl (by omega)
      rw [List.drop_drop] at hs3 ha3
      refine .inr ⟨.readCell (MacRtc.sectorOf c w) (s.parameterRam.read (MacRtc.sectorOf c w)),
        es.drop 24, s3, ?_, ?_, hr3, ha3, hs1.trans (hs2.trans hs3), ?_⟩
      · rw [dif_pos h24]
        simp only [hread, ne_eq, not_false_eq_true, if_true, hans, ← hw]
      · rw [List.length_drop]; omega
      · have hsame : s.parameterRam = s.memory.ram := rfl
        rw [Memory.apply, hsame, if_pos rfl, hm3]
        rfl
    · refine .inl ⟨dif_neg h24, ?_⟩
      rw [hs1, hs2, clocked_short (by show s.bits + _ < 8; rw [hr.bits]; omega)]
      rfl

theorem progress (hr : Ready s) (ha : Answers s es) : Progress s es := by
  by_cases h8 : 8 ≤ es.length
  · by_cases hcmd : received (es.take 8) &&& 0x78 = 0x38
    · exact extended_progress hr ha hcmd h8
    · exact classic_progress hr ha hcmd h8
  · refine .inl ⟨?_, clocked_short (by rw [hr.bits]; omega)⟩
    rw [transactions, dif_neg (by omega), dif_neg (by omega), ite_self]

/-- What the edges of a session spell is what the chip does. -/
theorem read_transactions (hr : Ready s) (ha : Answers s es) :
    read Memory.apply s.memory (transactions es) = some (clocked s es).memory := by
  obtain ⟨n, hn⟩ : ∃ n, es.length ≤ n := ⟨_, Nat.le_refl _⟩
  induction n generalizing s es with
  | zero =>
    obtain rfl : es = [] := List.length_eq_zero_iff.1 (by omega)
    rcases progress hr ha with ⟨ht, hm⟩ | ⟨t, rest, s', -, hlt, -⟩
    · rw [ht, hm]; rfl
    · exact absurd hlt (Nat.not_lt_zero _)
  | succ n ih =>
    rcases progress hr ha with ⟨ht, hm⟩ | ⟨t, rest, s', ht, hlt, hr', ha', hs', happly⟩
    · rw [ht, hm]; rfl
    · rw [ht, read_cons, happly, hs']
      exact ih hr' ha' (by omega)

end

/-! ## Sessions -/

def MacRtc.atLevel (s : MacRtc) (level : Bool) : MacRtc := { s with clockHigh := level }

/-- A byte does not look at the clock. -/
theorem receiveByte_atLevel (s : MacRtc) (level : Bool) (seconds : UInt32) (value : UInt8) :
    (s.atLevel level).receiveByte seconds value = (s.receiveByte seconds value).atLevel level := by
  have hstore : ∀ (t : MacRtc) (address value : UInt8),
      (t.atLevel level).store address value = (t.store address value).atLevel level := by
    intro t address value
    unfold MacRtc.store
    rw [show (t.atLevel level).writeProtected = t.writeProtected from rfl]
    split <;> rfl
  have haccess : ∀ (t : MacRtc) (command value : UInt8) (write : Bool),
      (t.atLevel level).accessRegister seconds command value write =
        ((t.accessRegister seconds command value write).1,
          (t.accessRegister seconds command value write).2.atLevel level) := by
    intro t command value write
    simp only [MacRtc.accessRegister, hstore]
    split_ifs <;> rfl
  have hmode : (s.atLevel level).mode = s.mode := rfl
  have hcommand : (s.atLevel level).command = s.command := rfl
  simp only [MacRtc.receiveByte, haccess, hstore, hmode, hcommand]
  split_ifs <;> rfl

theorem clockEdge_atLevel (s : MacRtc) (level : Bool) (seconds : UInt32) (data : Bool) :
    (s.atLevel level).clockEdge seconds data = (s.clockEdge seconds data).atLevel level := by
  have hreceive := receiveByte_atLevel
    { s with shift := shiftIn s.shift data, bits := 0 } level seconds (shiftIn s.shift data)
  unfold MacRtc.clockEdge
  rw [show (s.atLevel level).outputActive = s.outputActive from rfl]
  split
  · simp only [show (s.atLevel level).bits = s.bits from rfl]
    split <;> rfl
  · simp only [show (s.atLevel level).bits = s.bits from rfl]
    split
    · exact hreceive
    · rfl

section
variable {s : MacRtc} {ps : List Pins}

theorem step_enabled (hs : s.enabled = true) {p : Pins} (hp : p.enabled = true) :
    step s p =
      (if !s.clockHigh && p.clockHigh then s.clockEdge p.seconds p.dataHigh else s).atLevel
        p.clockHigh := by
  simp only [step, MacRtc.setPins, hp, hs, Bool.not_true, Bool.false_eq_true, if_false, if_true]
  rfl

theorem clockEdge_enabled (s : MacRtc) (seconds : UInt32) (data : Bool) :
    (s.clockEdge seconds data).enabled = s.enabled := by
  have hstore : ∀ (t : MacRtc) (address value : UInt8), (t.store address value).enabled = t.enabled := by
    intro t address value
    unfold MacRtc.store
    split <;> rfl
  have haccess : ∀ (t : MacRtc) (command value : UInt8) (write : Bool),
      (t.accessRegister seconds command value write).2.enabled = t.enabled := by
    intro t command value write
    simp only [MacRtc.accessRegister]
    split_ifs <;> first | rfl | exact hstore _ _ _
  simp only [MacRtc.clockEdge, MacRtc.receiveByte]
  split_ifs <;> first | rfl | exact haccess _ _ _ _ | exact hstore _ _ _

/-- The calls of a session are the rising edges in them. -/
theorem observed_edges (hs : s.enabled = true) (hps : ∀ p ∈ ps, p.enabled = true) (level : Bool) :
    Answers (s.atLevel level) (edgesFrom s.clockHigh (observed s ps)) ∧
      (clocked (s.atLevel level) (edgesFrom s.clockHigh (observed s ps))).memory =
        (run step s ps).memory ∧ (run step s ps).enabled = true := by
  induction ps generalizing s with
  | nil => exact ⟨trivial, rfl, hs⟩
  | cons p ps ih =>
    have hp := hps p List.mem_cons_self
    have hstep := step_enabled hs hp
    have hlevel : (step s p).clockHigh = p.clockHigh := by rw [hstep]; rfl
    have henabled : (step s p).enabled = true := by
      rw [hstep]
      show (if _ then _ else _ : MacRtc).enabled = true
      split
      · rw [clockEdge_enabled, hs]
      · exact hs
    have htail := ih henabled fun q hq => hps q (List.mem_cons_of_mem p hq)
    rw [hlevel] at htail
    have hat : (step s p).atLevel level =
        if !s.clockHigh && p.clockHigh then (s.atLevel level).clockEdge p.seconds p.dataHigh
        else s.atLevel level := by
      rw [hstep, clockEdge_atLevel]
      split <;> rfl
    rw [observed, edgesFrom, run_cons]
    by_cases hedge : (!s.clockHigh && p.clockHigh) = true
    · rw [if_pos hedge] at hat ⊢
      rw [hat] at htail
      refine ⟨⟨?_, htail.1⟩, htail.2⟩
      show (step s p).dataLine = _
      rw [← hat]
      rfl
    · rw [if_neg hedge] at hat ⊢
      rw [hat] at htail
      exact htail

/-- What a session spells is what the chip does. -/
theorem session_refines (hs : s.enabled = false) (hps : ∀ p ∈ ps, p.enabled = true) :
    read Memory.apply s.memory (transactions (edges (observed s ps))) =
      some (run step s ps).memory := by
  cases ps with
  | nil => rw [observed, edges, transactions]; rfl
  | cons p ps =>
    have hp := hps p List.mem_cons_self
    have hfirst : step s p =
        { s with
          enabled := true
          clockHigh := p.clockHigh
          shift := 0
          bits := 0
          mode := 0
          outputActive := false } := by
      simp only [step, MacRtc.setPins, hp, hs, Bool.not_true, Bool.false_eq_true, if_false]
      cases p.clockHigh <;> rfl
    have henabled : (step s p).enabled = true := by rw [hfirst]
    have hlevel : (step s p).clockHigh = p.clockHigh := by rw [hfirst]
    have hready : Ready (step s p) := by rw [hfirst]; exact ⟨rfl, rfl, rfl⟩
    have hmem : (step s p).memory = s.memory := by rw [hfirst]; rfl
    obtain ⟨ha, hm, -⟩ :=
      observed_edges henabled (fun q hq => hps q (List.mem_cons_of_mem p hq)) p.clockHigh
    rw [hlevel] at ha hm
    have hself : (step s p).atLevel p.clockHigh = step s p := by rw [← hlevel]; rfl
    rw [hself] at ha hm
    rw [observed, edges, run_cons, ← hm, ← hmem]
    exact read_transactions hready ha

theorem step_disabled {p : Pins} (hp : p.enabled = false) :
    (step s p).memory = s.memory ∧ (step s p).enabled = false := by
  simp only [step, MacRtc.setPins, hp, Bool.not_false, if_true]
  cases hs : s.enabled with
  | true => exact ⟨rfl, rfl⟩
  | false => exact ⟨rfl, hs⟩

theorem observed_append (s : MacRtc) (ps qs : List Pins) :
    observed s (ps ++ qs) = observed s ps ++ observed (run step s ps) qs := by
  induction ps generalizing s with
  | nil => rfl
  | cons p ps ih => rw [List.cons_append, observed, observed, ih, List.cons_append, run_cons]

theorem mem_observed {q : Pins × Bool} (h : q ∈ observed s ps) : q.1 ∈ ps := by
  induction ps generalizing s with
  | nil => exact absurd h List.not_mem_nil
  | cons p ps ih =>
    rcases List.mem_cons.1 h with rfl | h
    · exact List.mem_cons_self
    · exact List.mem_cons_of_mem p (ih h)

/-- A waveform is one session, or one and a call that ends it. -/
theorem first_session (ps : List Pins) :
    (∀ p ∈ ps, p.enabled = true) ∨
      ∃ xs p ys, ps = xs ++ p :: ys ∧ (∀ x ∈ xs, x.enabled = true) ∧ p.enabled = false := by
  induction ps with
  | nil => exact .inl fun p hp => absurd hp List.not_mem_nil
  | cons p ps ih =>
    cases hp : p.enabled with
    | false => exact .inr ⟨[], p, ps, rfl, fun x hx => absurd hx List.not_mem_nil, hp⟩
    | true =>
      rcases ih with hall | ⟨xs, q, ys, rfl, hxs, hq⟩
      · exact .inl (List.forall_mem_cons.2 ⟨hp, hall⟩)
      · exact .inr ⟨p :: xs, q, ys, rfl, List.forall_mem_cons.2 ⟨hp, hxs⟩, hq⟩

end

/-- On every waveform, the chip is an array of 256 bytes: its complete transactions, in order,
    lead from the bytes before to those after, and a read sees the byte that stands there. -/
theorem run_refines (s : MacRtc) (hs : s.enabled = false) (ps : List Pins) :
    read Memory.apply s.memory
        ((sessions (observed s ps)).flatMap fun w => transactions (edges w)) =
      some (run step s ps).memory := by
  obtain ⟨n, hn⟩ : ∃ n, ps.length ≤ n := ⟨_, Nat.le_refl _⟩
  induction n generalizing s ps with
  | zero =>
    obtain rfl : ps = [] := List.length_eq_zero_iff.1 (by omega)
    show read Memory.apply s.memory ([[]].flatMap fun w => transactions (edges w)) = _
    rw [List.flatMap_singleton, edges, transactions]
    rfl
  | succ n ih =>
    have hin : ∀ {t : MacRtc} {xs : List Pins}, (∀ x ∈ xs, x.enabled = true) →
        ∀ q ∈ observed t xs, (!q.1.enabled) = false := by
      intro t xs hxs q hq
      rw [hxs q.1 (mem_observed hq)]
      rfl
    rcases first_session ps with hall | ⟨xs, p, ys, rfl, hxs, hp⟩
    · rw [sessions, List.splitOnP_eq_singleton (hin hall), List.flatMap_singleton]
      exact session_refines hs hall
    · obtain ⟨hmem, henabled⟩ := step_disabled (s := run step s xs) hp
      have hlen : ys.length ≤ n := by
        rw [List.length_append, List.length_cons] at hn
        omega
      have hrest := ih (step (run step s xs) p) henabled ys hlen
      rw [observed_append, observed, sessions,
        List.splitOnP_append_cons_of_forall_mem (hin hxs) _ (by rw [hp]; rfl), List.flatMap_cons,
        read_append, session_refines hs hxs, run_append, run_cons, ← hrest, hmem]
      rfl

/-- The clock goes down and up for each bit of a byte. -/
def clockByte (value : UInt8) : List Pins :=
  (List.range 8).flatMap fun i =>
    [⟨0, true, false, shiftOut value i⟩, ⟨0, true, true, shiftOut value i⟩]

/-- A write of the register 16, a read that is cut off, and a read of it. -/
def writeRead : List Pins :=
  clockByte 0x40 ++ clockByte 0x5a ++ [⟨0, false, false, false⟩] ++ clockByte 0xc0 ++
    [⟨0, false, false, false⟩] ++ clockByte 0xc0 ++ clockByte 0

theorem run_refines_writeRead :
    (sessions (observed {} writeRead)).flatMap (fun w => transactions (edges w)) =
        [.write 16 0x5a, .read 16 0 0x5a] ∧
      read Memory.apply ({} : MacRtc).memory
          ((sessions (observed {} writeRead)).flatMap fun w => transactions (edges w)) =
        some (run step {} writeRead).memory :=
  ⟨by decide +kernel, run_refines {} rfl writeRead⟩

end CuteMac.Rtc
