/-
  Packets to the Cuda, as reads and writes of cells.

  * `storesFrom`, `storesIn`, `stores`: what a packet writes; `latest`: the cells afterwards;
  * `answer`: what a packet is answered, out of the cells;
  * `finishPacket_eq`: the controller stores and answers like that.
-/
import CuteMac.Cuda.CudaController
import CuteMac.Lib.WriteLog
import Mathlib.Logic.Function.Basic
import Mathlib.Tactic.SplitIfs

namespace CuteMac.Cuda

open WriteLog CudaController

/-! ## Cells -/

/-- The parameter RAM as cells. -/
def cellsOf (pram : Vector UInt8 256) (c : Nat) : UInt8 := pram[c]?.getD 0

/-- The cell at an address of the parameter RAM, and of the memory of the microcontroller,
    whose addresses have 16 bits. -/
def pramCell (address : Nat) : Option Nat := if address < 256 then some address else none

def memoryCell (address : Nat) : Option Nat :=
  if 0x100 ≤ address % 65536 ∧ address % 65536 < 0x200 then some (address % 65536 - 0x100)
  else none

/-- Bytes are stored from an address on, as far as the addresses have cells. -/
def storesFrom (cell : Nat → Option Nat) : Nat → List UInt8 → List (Nat × List UInt8)
  | _, [] => []
  | address, value :: values =>
    ((cell address).map fun c => (c, [value])).toList ++ storesFrom cell (address + 1) values

/-- What a packet stores, where `memory` are the cells of the memory of the microcontroller. -/
def storesIn (memory : Nat → Option Nat) (packet : List UInt8) : List (Nat × List UInt8) :=
  if packet.getD 0 0 ≠ 1 ∨ packet.length < 4 then []
  else if packet.getD 1 0 = 0x0c then
    storesFrom pramCell (addressOf packet).toNat (packet.drop 4)
  else if packet.getD 1 0 = 0x08 then
    storesFrom memory (addressOf packet).toNat (packet.drop 4)
  else []

def stores (packet : List UInt8) : List (Nat × List UInt8) := storesIn memoryCell packet

/-- The cells after some stores. -/
def latest (cells : Nat → UInt8) (ws : List (Nat × List UInt8)) (c : Nat) : UInt8 :=
  (lastWritten c ws).getD (cells c)

/-- All cells, from one on and round the end. -/
def cellsFrom (cells : Nat → UInt8) (start : Nat) : List UInt8 :=
  (List.range 256).map fun index => cells ((start + index) % 256)

/-- The bytes of an answer behind its header. -/
def answerPayload (cells : Nat → UInt8) (unixSeconds : Int) (packet : List UInt8) : List UInt8 :=
  let address := (addressOf packet).toNat
  if packet.getD 1 0 = 0x07 ∧ 4 ≤ packet.length ∧ address < 256 then cellsFrom cells address
  else if packet.getD 1 0 = 0x02 ∧ 4 ≤ packet.length ∧ 0x100 ≤ address ∧ address < 0x200 then
    cellsFrom cells (address - 0x100)
  else if packet.getD 1 0 = 0x02 ∧ 4 ≤ packet.length ∧ 0x0f00 ≤ address then
    [0, 0, 0x19, 0, 2, 0, 0x29]
  else if packet.getD 1 0 = 0x03 then
    let value := macintoshTime unixSeconds
    [(value >>> 24).toUInt8, (value >>> 16).toUInt8, (value >>> 8).toUInt8, value.toUInt8]
  else []

/-- The answer to a packet. -/
def answer (cells : Nat → UInt8) (unixSeconds : Int) (packet : List UInt8) : List UInt8 :=
  if packet.length < 2 then [2, 3, 0, 0]
  else if packet.getD 0 0 = 0 then [0, 0, packet.getD 1 0]
  else if packet.getD 0 0 ≠ 1 then [2, 1, packet.getD 0 0, packet.getD 1 0]
  else [1, 0, packet.getD 1 0] ++ answerPayload cells unixSeconds packet

/-! ## Packets -/

section
variable {pram : Vector UInt8 256} {cells : Nat → UInt8}

theorem latest_nil : latest cells [] = cells := rfl

theorem latest_append (ws ws' : List (Nat × List UInt8)) :
    latest cells (ws ++ ws') = latest (latest cells ws) ws' := by
  funext c
  rw [latest, latest, lastWritten_append]
  rcases lastWritten c ws' with _ | b
  · rfl
  · rfl

theorem latest_single (c : Nat) (value : UInt8) :
    latest cells [(c, [value])] = Function.update cells c value := by
  funext a
  rw [latest, lastWritten, lastWritten, Option.none_or, cellAt_cons, cellAt_nil,
    Function.update_apply]
  split_ifs <;> rfl

theorem cellsOf_setIfInBounds {i : Nat} (hi : i < 256) (value : UInt8) :
    cellsOf (pram.setIfInBounds i value) = Function.update (cellsOf pram) i value := by
  funext c
  rw [cellsOf, Vector.getElem?_setIfInBounds, Function.update_apply]
  by_cases h : i = c
  · rw [if_pos h, if_pos hi, if_pos h.symm]
    rfl
  · rw [if_neg h, if_neg (Ne.symm h)]
    rfl

theorem toNat_succ {address : UInt16} {n : Nat} (h : address.toNat = n % 65536) :
    (address + 1).toNat = (n + 1) % 65536 := by
  rw [UInt16.toNat_add, h]
  show (n % 65536 + 1) % 65536 = _
  omega

theorem cellsOf_writeMemory {values : List UInt8} {address : UInt16} {n : Nat}
    (h : address.toNat = n % 65536) :
    cellsOf (writeMemory pram address values)
      = latest (cellsOf pram) (storesFrom memoryCell n values) := by
  induction values generalizing pram address n with
  | nil => rfl
  | cons value values ih =>
    rw [writeMemory, storesFrom, latest_append, ih (toNat_succ h)]
    congr 1
    rw [memoryCell, ← h]
    by_cases hin : pramMcuBase ≤ address ∧ address < pramMcuBase + 256
    · obtain ⟨hlow, hhigh⟩ := hin
      have hsub : (address - pramMcuBase).toNat = address.toNat - 0x100 :=
        UInt16.toNat_sub_of_le _ _ hlow
      have hcell : 0x100 ≤ address.toNat ∧ address.toNat < 0x200 :=
        ⟨UInt16.le_iff_toNat_le.1 hlow, UInt16.lt_iff_toNat_lt.1 hhigh⟩
      rw [if_pos ⟨hlow, hhigh⟩, if_pos hcell, hsub, cellsOf_setIfInBounds (by omega)]
      exact (latest_single _ _).symm
    · have hcell : ¬ (0x100 ≤ address.toNat ∧ address.toNat < 0x200) := fun hcell =>
        hin ⟨UInt16.le_iff_toNat_le.2 hcell.1, UInt16.lt_iff_toNat_lt.2 hcell.2⟩
      rw [if_neg hin, if_neg hcell]
      rfl

theorem storesFrom_pramCell_of_le {values : List UInt8} {n : Nat} (h : 256 ≤ n) :
    storesFrom pramCell n values = [] := by
  induction values generalizing n with
  | nil => rfl
  | cons value values ih =>
    rw [storesFrom, ih (by omega), pramCell, if_neg (by omega)]
    rfl

theorem cellsOf_writePram {values : List UInt8} {address : UInt16} :
    cellsOf (writePram pram address values)
      = latest (cellsOf pram) (storesFrom pramCell address.toNat values) := by
  induction values generalizing pram address with
  | nil => rfl
  | cons value values ih =>
    rw [writePram]
    by_cases hlow : address < 256
    · have hin : address.toNat < 256 := UInt16.lt_iff_toNat_lt.1 hlow
      have hsucc : (address + 1).toNat = address.toNat + 1 := by
        rw [UInt16.toNat_add]
        exact Nat.mod_eq_of_lt (by show address.toNat + 1 < 65536; omega)
      rw [if_pos hlow, ih, hsucc, storesFrom, latest_append, pramCell, if_pos hin,
        cellsOf_setIfInBounds hin]
      congr 1
      exact (latest_single _ _).symm
    · have hin : ¬ address.toNat < 256 := fun h => hlow (UInt16.lt_iff_toNat_lt.2 h)
      rw [if_neg hlow, storesFrom_pramCell_of_le (Nat.not_lt.1 hin)]
      rfl

theorem readCells_eq (start : UInt8) :
    readCells pram start = cellsFrom (cellsOf pram) start.toNat := by
  refine List.map_congr_left fun index _ => ?_
  rw [cellsOf, UInt8.toNat_add, UInt8.toNat_ofNat']
  congr 2
  omega

theorem cellsOf_written {packet : List UInt8} (htype : packet.getD 0 0 = 1) :
    cellsOf (written pram packet) = latest (cellsOf pram) (stores packet) := by
  rw [stores, storesIn, written]
  by_cases hlen : 4 ≤ packet.length
  · have hpacket : ¬ (packet.getD 0 0 ≠ 1 ∨ packet.length < 4) := by
      rintro (h | h)
      · exact h htype
      · omega
    rw [if_neg hpacket, if_pos hlen, if_pos hlen]
    by_cases h8 : packet.getD 1 0 = 0x08
    · rw [if_pos h8, if_neg (by rw [h8]; decide), if_pos h8]
      exact cellsOf_writeMemory (Nat.mod_eq_of_lt (addressOf packet).toNat_lt).symm
    · rw [if_neg h8, if_neg h8]
      by_cases hc : packet.getD 1 0 = 0x0c
      · rw [if_pos hc, if_pos hc]
        exact cellsOf_writePram
      · rw [if_neg hc, if_neg hc]
        rfl
  · rw [if_pos (Or.inr (Nat.not_le.1 hlen)), if_neg hlen, if_neg hlen, ite_self, ite_self]
    rfl

theorem payload_eq (packet : List UInt8) (unixSeconds : Int) :
    payload pram packet unixSeconds = answerPayload (cellsOf pram) unixSeconds packet := by
  rw [payload, answerPayload]
  dsimp only
  generalize haddress : addressOf packet = address
  by_cases h2 : packet.getD 1 0 = 0x02
  · have h7 : packet.getD 1 0 ≠ 0x07 := by rw [h2]; decide
    have h3 : packet.getD 1 0 ≠ 0x03 := by rw [h2]; decide
    rw [if_pos h2, if_neg (show ¬ (packet.getD 1 0 = 0x07 ∧ 4 ≤ packet.length ∧
      address.toNat < 256) from fun h => h7 h.1), if_neg h3]
    by_cases hlen : 4 ≤ packet.length
    · rw [if_pos hlen]
      by_cases hin : pramMcuBase ≤ address ∧ address < pramMcuBase + 256
      · obtain ⟨hlow, hhigh⟩ := hin
        have hle : 0x100 ≤ address.toNat := UInt16.le_iff_toNat_le.1 hlow
        have hlt : address.toNat < 0x200 := UInt16.lt_iff_toNat_lt.1 hhigh
        have hsub : (address - pramMcuBase).toUInt8.toNat = address.toNat - 0x100 := by
          rw [UInt16.toNat_toUInt8, UInt16.toNat_sub_of_le _ _ hlow]
          exact Nat.mod_eq_of_lt (by show address.toNat - 256 < 256; omega)
        rw [if_pos ⟨hlow, hhigh⟩, if_pos ⟨h2, hlen, hle, hlt⟩, readCells_eq, hsub]
      · have hout : ¬ (packet.getD 1 0 = 0x02 ∧ 4 ≤ packet.length ∧ 0x100 ≤ address.toNat ∧
            address.toNat < 0x200) := fun h =>
          hin ⟨UInt16.le_iff_toNat_le.2 h.2.2.1, UInt16.lt_iff_toNat_lt.2 h.2.2.2⟩
        rw [if_neg hin, if_neg hout]
        by_cases hfirmware : 0x0f00 ≤ address
        · rw [if_pos hfirmware, if_pos ⟨h2, hlen, UInt16.le_iff_toNat_le.1 hfirmware⟩]
        · rw [if_neg hfirmware, if_neg fun h => hfirmware (UInt16.le_iff_toNat_le.2 h.2.2)]
    · rw [if_neg hlen, if_neg (fun h => hlen h.2.1), if_neg (fun h => hlen h.2.1)]
  · rw [if_neg h2, if_neg (show ¬ (packet.getD 1 0 = 0x02 ∧ 4 ≤ packet.length ∧
      0x100 ≤ address.toNat ∧ address.toNat < 0x200) from fun h => h2 h.1),
      if_neg (show ¬ (packet.getD 1 0 = 0x02 ∧ 4 ≤ packet.length ∧ 0x0f00 ≤ address.toNat)
        from fun h => h2 h.1)]
    by_cases h3 : packet.getD 1 0 = 0x03
    · have h7 : packet.getD 1 0 ≠ 0x07 := by rw [h3]; decide
      rw [if_pos h3, if_pos h3, if_neg (show ¬ (packet.getD 1 0 = 0x07 ∧ 4 ≤ packet.length ∧
        address.toNat < 256) from fun h => h7 h.1)]
    · rw [if_neg h3, if_neg h3]
      by_cases h7 : packet.getD 1 0 = 0x07 ∧ 4 ≤ packet.length ∧ address.toNat < 256
      · have hlow : address < 256 := UInt16.lt_iff_toNat_lt.2 h7.2.2
        have hstart : address.toUInt8.toNat = address.toNat := by
          rw [UInt16.toNat_toUInt8]
          exact Nat.mod_eq_of_lt h7.2.2
        rw [if_pos h7, if_pos h7.1, if_pos h7.2.1, if_pos hlow, readCells_eq, hstart]
      · rw [if_neg h7]
        split_ifs with hcommand hlen hlow
        · exact absurd ⟨hcommand, hlen, UInt16.lt_iff_toNat_lt.1 hlow⟩ h7
        · rfl
        · rfl
        · rfl

/-- What the controller makes of a packet. -/
theorem finishPacket_eq (s : CudaController) (unixSeconds : Int) :
    ∃ pram, cellsOf pram = latest (cellsOf s.pram) (stores s.input) ∧
      s.finishPacket unixSeconds =
        { s with
          output := answer (cellsOf s.pram) unixSeconds s.input
          outputPosition := 0
          pram := pram
          events := s.events ++ [.packet s.input] } := by
  rw [finishPacket, answer]
  dsimp only
  by_cases hlen : s.input.length < 2
  · refine ⟨s.pram, ?_, by rw [if_pos hlen, if_pos hlen]⟩
    rw [stores, storesIn, if_pos (Or.inr (by omega)), latest_nil]
  rw [if_neg hlen, if_neg hlen]
  by_cases h0 : s.input.getD 0 0 = 0
  · refine ⟨s.pram, ?_, by rw [if_pos h0, if_pos h0]; rfl⟩
    rw [stores, storesIn, if_pos (Or.inl (by rw [h0]; decide)), latest_nil]
  rw [if_neg h0, if_neg h0]
  by_cases h1 : s.input.getD 0 0 = 1
  · refine ⟨written s.pram s.input, cellsOf_written h1, ?_⟩
    have hp : ¬ s.input.getD 0 0 ≠ pseudoPacket := not_not.2 h1
    rw [if_neg (not_not.2 h1), if_neg hp, payload_eq]
    rfl
  · have hp : s.input.getD 0 0 ≠ pseudoPacket := h1
    refine ⟨s.pram, ?_, by rw [if_pos h1, if_pos hp]⟩
    rw [stores, storesIn, if_pos (Or.inl h1), latest_nil]

end

end CuteMac.Cuda
