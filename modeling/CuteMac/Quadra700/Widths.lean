/-
  The accesses of the Quadra 700 at each width.

  * `memoryByte`, `writtenByte`: the byte of memory behind an address;
  * `Current`: the page table is the one that the decoding makes;
  * `Place`: the parts of the address space that the widths are compared in;
  * `alike_plain`, `alike_vram`: memory answers alike at every width;
  * `alike16_alias_iff`: in the 24-bit slot spaces only the wide accesses reach a card.
-/
import CuteMac.Core.ByteAccess
import CuteMac.Quadra700.Memory

namespace CuteMac.Quadra700

open Core NuBus PhysicalMemoryMap Video

/-! ## The pages -/

theorem installed_sizes (installed : InstalledRam) :
    installed.val * 1024 = 0x400000 ∨ installed.val * 1024 = 0x800000 := by
  obtain ⟨kib, hkib⟩ := installed
  have hsizes : kib = 4096 ∨ kib = 8192 := by simpa [ramSizes] using hkib
  show kib * 1024 = _ ∨ kib * 1024 = _
  omega

theorem romWindow_iff (address : UInt32) :
    address &&& 0xf0000000 = romBase ↔ 0x40000000 ≤ address.toNat ∧ address.toNat < 0x50000000 := by
  rw [← UInt32.toNat_inj, toNat_and_window]
  have hbase : romBase.toNat = 0x40000000 := rfl
  omega

theorem toNat_sub_romBase {address : UInt32} (h : 0x40000000 ≤ address.toNat) :
    (address - romBase).toNat = address.toNat - 0x40000000 :=
  UInt32.toNat_sub_of_le _ _ (UInt32.le_iff_toNat_le.2 h)

open Quadra700Machine in
/-- The page of the table once the overlay has ended. -/
theorem decodedPages_apply (installed : InstalledRam) (n : Nat) :
    decodedPages (installed.val * 1024) false n =
      if 0x40000 ≤ n ∧ n < 0x50000 then Page.readOnly (.rom, (n - 0x40000) * 4096 % romSize)
      else if n < installed.val * 1024 / 4096 then Page.readWrite (.ram, n * 4096)
      else {} := by
  have hsize := installed_sizes installed
  unfold decodedPages
  dsimp only
  rw [if_neg Bool.false_ne_true, pageFor_mapReadOnlyMirrored _ _ rfl rfl (by decide) rfl (by decide)]
  have hkey : romBase.toNat / pageSize = 0x40000 := rfl
  have hlen : (0x10000000 : Nat) / pageSize = 0x10000 := rfl
  rw [hkey, hlen]
  by_cases hw : 0x40000 ≤ n ∧ n < 0x50000
  · rw [if_pos hw, if_pos hw, Nat.zero_add]
    rfl
  · rw [if_neg hw, if_neg hw, pageFor_mapPages _ _ _ _ rfl (by unfold pageSize; simp; omega)]
    have hzero : (0 : UInt32).toNat / pageSize = 0 := rfl
    rw [hzero, Nat.zero_add, Nat.sub_zero]
    unfold pageSize
    by_cases hn : n < installed.val * 1024 / 4096
    · rw [if_pos ⟨Nat.zero_le n, hn⟩, if_pos hn, if_pos (by omega)]
      rfl
    · rw [if_neg (fun h => hn h.2), if_neg hn]
      rfl

namespace Quadra700Machine

variable {δ κ : Type} {dev : Devices δ} {ops : Card κ} {s : Quadra700Machine δ κ} {address : UInt32}

/-! ## The byte behind an address -/

/-- The byte of memory that a read past the page table finds. -/
def memoryByte (s : Quadra700Machine δ κ) (address : UInt32) : Option (Region × Nat) :=
  if s.overlay ∧ address.toNat < romSize then some (.rom, address.toNat)
  else if address &&& 0xf0000000 = romBase then
    some (.rom, (address - romBase).toNat % romSize)
  else if s.isAliasedRom address then some (.rom, (address - rom24BitBase).toNat)
  else if s.overlay then none
  else
    match s.sizingRamIndex address with
    | some index => some (if s.bytes .sizingRamDirty index ≠ 0 then .sizingRam else .ram, index)
    | none => (s.ramIndex address).map fun index => (.ram, index)

/-- The byte of memory that a write past the page table changes. -/
def writtenByte (s : Quadra700Machine δ κ) (address : UInt32) : Option (Region × Nat) :=
  if s.overlay then none
  else
    match s.sizingRamIndex address with
    | some index => some (.sizingRam, index)
    | none => (s.ramIndex address).map fun index => (.ram, index)

/-- The sizes of the arrays. -/
def size (s : Quadra700Machine δ κ) : Region → Nat
  | .rom => romSize
  | _ => s.ramSize

theorem ramSize_pos (s : Quadra700Machine δ κ) : 0 < s.ramSize ∧ s.ramSize ≤ 0x800000 := by
  unfold ramSize
  rcases installed_sizes s.installed with h | h <;> omega

theorem ramIndex_lt {index : Nat} (h : s.ramIndex address = some index) : index < s.ramSize := by
  unfold ramIndex at h
  split_ifs at h with hlt
  cases h
  exact hlt

theorem sizingRamIndex_lt {index : Nat} (h : s.sizingRamIndex address = some index) :
    index < s.ramSize := by
  unfold sizingRamIndex at h
  split_ifs at h
  cases h
  exact Nat.mod_lt _ s.ramSize_pos.1

/-- The memory that is sized is not where the installed memory is. -/
theorem sizingRamIndex_of_lt (h : address.toNat < 0x30000000 ∨ 0x40000000 ≤ address.toNat) :
    s.sizingRamIndex address = none := by
  unfold sizingRamIndex
  rw [if_neg]
  rintro ⟨-, -, -, h1, h2⟩
  rw [UInt32.le_iff_toNat_le, show (0x30000000 : UInt32).toNat = 0x30000000 from rfl] at h1
  rw [UInt32.lt_iff_toNat_lt, show (0x40000000 : UInt32).toNat = 0x40000000 from rfl] at h2
  omega

theorem isAliasedRom_range (h : s.isAliasedRom address) :
    0x800000 ≤ address.toNat ∧ address.toNat < 0x900000 := by
  obtain ⟨-, h1, h2, -⟩ := h
  rw [UInt32.le_iff_toNat_le, show rom24BitBase.toNat = 0x800000 from rfl] at h1
  rw [UInt32.lt_iff_toNat_lt, show (rom24BitBase + UInt32.ofNat romSize).toNat = 0x900000 from rfl] at h2
  exact ⟨h1, h2⟩

theorem memoryByte_lt {p : Region × Nat} (h : s.memoryByte address = some p) : p.2 < s.size p.1 := by
  unfold memoryByte at h
  split_ifs at h with hover hw halias hov
  · cases h
    exact hover.2
  · cases h
    exact Nat.mod_lt _ (by decide)
  · cases h
    obtain ⟨h1, h2⟩ := isAliasedRom_range halias
    show (address - rom24BitBase).toNat < 1024 * 1024
    have hsub : (address - rom24BitBase).toNat = address.toNat - 0x800000 :=
      UInt32.toNat_sub_of_le address rom24BitBase (UInt32.le_iff_toNat_le.2 h1)
    omega
  · cases hi : s.sizingRamIndex address with
    | some index =>
      rw [hi] at h
      cases h
      have hlt := sizingRamIndex_lt hi
      dsimp only
      split_ifs
      · exact hlt
      · exact hlt
    | none =>
      rw [hi] at h
      obtain ⟨index, hr, rfl⟩ := Option.map_eq_some_iff.1 h
      exact ramIndex_lt hr

theorem writtenByte_lt {p : Region × Nat} (h : s.writtenByte address = some p) :
    p.1 ≠ .rom ∧ p.2 < s.ramSize := by
  unfold writtenByte at h
  split_ifs at h
  cases hi : s.sizingRamIndex address with
  | some index =>
    rw [hi] at h
    cases h
    exact ⟨nofun, sizingRamIndex_lt hi⟩
  | none =>
    rw [hi] at h
    obtain ⟨index, hr, rfl⟩ := Option.map_eq_some_iff.1 h
    exact ⟨nofun, ramIndex_lt hr⟩

/-! ## The page table is current -/

/-- The page table is empty, or the overlay has ended and it is the one that the decoding makes. -/
def Current (s : Quadra700Machine δ κ) : Prop :=
  s.physicalMemoryMap = PhysicalMemoryMap.clear ∨
    s.overlay = false ∧ s.physicalMemoryMap = decodedPages s.ramSize false

theorem rebuild_current {s : Quadra700Machine δ κ} (h : s.overlay = false) :
    s.rebuildPhysicalMemoryMap.Current := by
  unfold Current rebuildPhysicalMemoryMap ramSize
  dsimp only
  exact Or.inr ⟨h, by rw [h]⟩

theorem settle_current (h : s.Current) (turn : δ × DafbVideo) : (s.settle turn).Current := h

theorem settleNuBus_current (h : s.Current) (turn : NuBusBus κ × List SlotIrq) :
    (s.settleNuBus dev turn).Current := by
  have hstart : Current { s with nubus := turn.1 } := h
  exact Machine.run_inv (I := Current) (fun _ irq h => settle_current h _) hstart turn.2

theorem deviceRead8_current (h : s.Current) (address : UInt32) :
    (deviceRead8 dev ops s address).2.Current := by
  unfold deviceRead8 readIo8
  dsimp only
  split_ifs
  · exact h
  · exact settle_current h _
  · exact h
  · split <;> exact h
  · exact settle_current h _
  · exact settleNuBus_current h _
  · exact h

theorem decodedRead8_current (h : s.Current) (address : UInt32) :
    (decodedRead8 dev ops s address).2.Current := by
  unfold decodedRead8
  split_ifs
  · exact h
  · exact deviceRead8_current h _
  · cases s.sizingRamIndex address with
    | some index => exact h
    | none =>
      cases s.ramIndex address with
      | some index => exact h
      | none => exact h
  · cases s.sizingRamIndex address with
    | some index => exact h
    | none =>
      cases s.ramIndex address with
      | some index => exact h
      | none => exact deviceRead8_current h _

theorem read8_current (h : s.Current) (address : UInt32) : (read8 dev ops s address).2.Current := by
  unfold read8
  split_ifs with hover hw hov
  · exact h
  · exact rebuild_current rfl
  · exact h
  · cases s.physicalMemoryMap.tryRead8 s.bytes address with
    | some value => exact h
    | none => exact decodedRead8_current h _

theorem bytes16_current (h : s.Current) (address : UInt32) :
    (bytes16 dev ops s address).2.Current := read8_current (read8_current h _) _

theorem readIo8_current (h : s.Current) (address : UInt32) : (readIo8 dev s address).2.Current := by
  unfold readIo8
  dsimp only
  split_ifs
  · exact h
  · split <;> exact h
  · exact settle_current h _

theorem read16_current (h : s.Current) (address : UInt32) :
    (read16 dev ops s address).2.Current := by
  unfold read16
  by_cases hover : s.overlay ∧ address.toNat < romSize - 1
  · rw [if_pos hover]
    exact bytes16_current h _
  rw [if_neg hover]
  by_cases hw : address &&& 0xf0000000 = romBase
  · rw [if_pos hw]
    exact bytes16_current h _
  rw [if_neg hw]
  cases s.physicalMemoryMap.tryRead16 s.bytes address with
  | some value => exact h
  | none =>
    dsimp only
    split_ifs
    · exact h
    · exact settle_current h _
    · exact settle_current h _
    · exact readIo8_current h _
    · exact settleNuBus_current h _
    · exact bytes16_current h _

theorem words32_current (h : s.Current) (address : UInt32) :
    (words32 dev ops s address).2.Current := read16_current (read16_current h _) _

theorem read32_current (h : s.Current) (address : UInt32) :
    (read32 dev ops s address).2.Current := by
  unfold read32
  by_cases hw : address &&& 0xf0000000 = romBase
  · rw [if_pos hw]
    exact words32_current h _
  rw [if_neg hw]
  by_cases horwell :
      isIo address ∧ 0xe000 ≤ address &&& ioOffsetMask ∧ address &&& ioOffsetMask ≤ 0xe0f8
  · rw [if_pos horwell]
    exact h
  rw [if_neg horwell]
  cases s.directRead32 address with
  | some value => exact h
  | none =>
    dsimp only
    split_ifs
    · exact h
    · exact settle_current h _
    · exact settleNuBus_current h _
    · exact words32_current h _

theorem writeIo8_current (h : s.Current) (address : UInt32) (value : UInt8) :
    (writeIo8 dev s address value).Current := by
  have horwell : (s.writeOrwell (address &&& ioOffsetMask) value).Current := by
    unfold writeOrwell
    dsimp only
    split_ifs <;> exact h
  unfold writeIo8
  dsimp only
  split_ifs
  · refine settle_current ?_ _
    unfold observeVia1TimerCalibrationWrite
    split <;> split_ifs <;> exact horwell
  · exact settle_current horwell _

theorem deviceWrite8_current (h : s.Current) (address : UInt32) (value : UInt8) :
    (deviceWrite8 dev ops s address value).Current := by
  unfold deviceWrite8
  split_ifs
  · exact h
  · exact settle_current h _
  · exact writeIo8_current h _ _
  · exact settleNuBus_current h _
  · exact h

theorem write8_current (h : s.Current) (address : UInt32) (value : UInt8) :
    (write8 dev ops s address value).Current := by
  unfold write8
  cases s.physicalMemoryMap.tryWrite8 s.bytes address value with
  | some bytes => exact h
  | none =>
    unfold decodedWrite8
    dsimp only
    by_cases hov : s.overlay
    · rw [if_pos hov]
      exact deviceWrite8_current h _ _
    rw [if_neg hov]
    cases s.sizingRamIndex address with
    | some index => exact h
    | none =>
      cases s.ramIndex address with
      | some index => exact h
      | none =>
        dsimp only
        split_ifs
        · exact h
        · exact deviceWrite8_current h _ _

theorem write16_current (h : s.Current) (address : UInt32) (value : UInt16) :
    (write16 dev ops s address value).Current := by
  unfold write16
  cases s.physicalMemoryMap.tryWrite16 s.bytes address value with
  | some bytes => exact h
  | none =>
    dsimp only
    split_ifs
    · exact h
    · exact settle_current h _
    · exact settle_current h _
    · exact writeIo8_current h _ _
    · exact settleNuBus_current h _
    · exact write8_current (write8_current h _ _) _ _

theorem write32_current (h : s.Current) (address value : UInt32) :
    (write32 dev ops s address value).Current := by
  unfold write32
  cases s.physicalMemoryMap.tryWrite32 s.bytes address value with
  | some bytes => exact h
  | none =>
    dsimp only
    split_ifs
    · exact h
    · exact settle_current h _
    · exact settleNuBus_current h _
    · exact write16_current (write16_current h _ _) _ _

theorem step_current (h : s.Current) (input : Input δ κ) : (step dev ops s input).Current := by
  cases input with
  | read8 address => exact read8_current h address
  | read16 address => exact read16_current h address
  | read32 address => exact read32_current h address
  | write8 address value => exact write8_current h address value
  | write16 address value => exact write16_current h address value
  | write32 address value => exact write32_current h address value
  | device turn => exact h
  | card turn => exact settleNuBus_current h turn
  | installNuBusCard slot card =>
    unfold step
    dsimp only
    split_ifs <;> exact h
  | loadRom rom => exact h
  | reset => exact rebuild_current rfl

theorem run_current (dev : Devices δ) (ops : Card κ) (installed : InstalledRam) (devices : δ)
    (inputs : List (Input δ κ)) :
    (Machine.run (step dev ops) (powerOn installed devices) inputs).Current :=
  Machine.run_inv (I := Current) (fun _ input h => step_current h input) (Or.inl rfl) inputs

/-! ## Direct accesses -/

/-- A page that can be read: of the installed memory, or of the window of the ROM. -/
theorem direct_read {installed : InstalledRam} {p : Region × Nat}
    (h : ((decodedPages (installed.val * 1024) false).pageFor address).read = some p) :
    p.1 = .ram ∧ p.2 + pageOffset address = address.toNat ∧ address.toNat < installed.val * 1024 ∨
      p.1 = .rom ∧ p.2 + pageOffset address = (address - romBase).toNat % romSize ∧
        address &&& 0xf0000000 = romBase := by
  have hsize := installed_sizes installed
  have hrs : romSize = 0x100000 := rfl
  unfold PhysicalMemoryMap.pageFor at h
  rw [decodedPages_apply] at h
  unfold pageSize at h
  unfold pageOffset pageSize
  split_ifs at h with hwin hram
  · cases h
    refine Or.inr ⟨rfl, ?_, (romWindow_iff address).2 (by omega)⟩
    rw [toNat_sub_romBase (by omega), hrs]
    dsimp only
    omega
  · cases h
    refine Or.inl ⟨rfl, ?_, by omega⟩
    dsimp only
    omega

/-- Only pages of the installed memory can be written. -/
theorem direct_write {installed : InstalledRam} {p : Region × Nat}
    (h : ((decodedPages (installed.val * 1024) false).pageFor address).write = some p) :
    p = (.ram, address.toNat - pageOffset address) ∧ address.toNat < installed.val * 1024 := by
  have hsize := installed_sizes installed
  unfold PhysicalMemoryMap.pageFor at h
  rw [decodedPages_apply] at h
  unfold pageSize at h
  unfold pageOffset pageSize
  split_ifs at h with hwin hram
  · cases h
  · cases h
    refine ⟨?_, by omega⟩
    rw [Prod.mk.injEq]
    exact ⟨rfl, by omega⟩

theorem ramIndex_of_lt (h : address.toNat < s.ramSize) : s.ramIndex address = some address.toNat :=
  if_pos h

/-- Installed memory is found as such once the overlay has ended. -/
theorem memoryByte_ram (hov : s.overlay = false) (h : address.toNat < s.ramSize) :
    s.memoryByte address = some (.ram, address.toNat)
      ∧ s.writtenByte address = some (.ram, address.toNat) := by
  have hle := s.ramSize_pos.2
  have hwin : ¬ address &&& 0xf0000000 = romBase := by
    rw [romWindow_iff]
    omega
  have halias : ¬ s.isAliasedRom address := by
    intro halias
    have hnone := halias.2.2.2
    rw [ramIndex_of_lt h] at hnone
    cases hnone
  constructor
  · unfold memoryByte
    rw [hov, if_neg (fun h => Bool.false_ne_true h.1), if_neg hwin, if_neg halias,
      if_neg Bool.false_ne_true, sizingRamIndex_of_lt (by omega), ramIndex_of_lt h]
    rfl
  · unfold writtenByte
    rw [hov, if_neg Bool.false_ne_true, sizingRamIndex_of_lt (by omega), ramIndex_of_lt h]
    rfl

theorem memoryByte_rom (h : address &&& 0xf0000000 = romBase) :
    s.memoryByte address = some (.rom, (address - romBase).toNat % romSize) := by
  have hrange := (romWindow_iff address).1 h
  unfold memoryByte
  rw [if_neg (fun h => by have := h.2; unfold romSize at this; omega), if_pos h]

theorem tryRead8_memory (hc : s.Current) {value : UInt8}
    (h : s.physicalMemoryMap.tryRead8 s.bytes address = some value) :
    s.overlay = false ∧ ∃ p, s.memoryByte address = some p ∧ s.bytes p.1 p.2 = value := by
  rw [tryRead8_eq] at h
  obtain ⟨p, hp, rfl⟩ := Option.map_eq_some_iff.1 h
  rcases hc with hc | ⟨hov, hc⟩
  · rw [hc] at hp
    cases hp
  · rw [hc] at hp
    refine ⟨hov, (p.1, p.2 + pageOffset address), ?_, rfl⟩
    rcases direct_read hp with ⟨hram, hat, hlt⟩ | ⟨hrom, hat, hw⟩
    · rw [hram, hat]
      exact (memoryByte_ram hov hlt).1
    · rw [hrom, hat]
      exact memoryByte_rom hw

theorem tryWrite8_memory (hc : s.Current) {value : UInt8} {bytes : Bytes Region}
    (h : s.physicalMemoryMap.tryWrite8 s.bytes address value = some bytes) :
    s.overlay = false ∧ address.toNat < s.ramSize ∧
      bytes = writeBytes s.bytes .ram address.toNat [value] := by
  rw [tryWrite8_eq] at h
  obtain ⟨p, hp, rfl⟩ := Option.map_eq_some_iff.1 h
  rcases hc with hc | ⟨hov, hc⟩
  · rw [hc] at hp
    cases hp
  · rw [hc] at hp
    obtain ⟨rfl, hlt⟩ := direct_write hp
    have hoff : pageOffset address ≤ address.toNat := Nat.mod_le _ _
    refine ⟨hov, hlt, ?_⟩
    dsimp only
    rw [Nat.sub_add_cancel hoff]

/-- Where there is neither installed memory nor ROM, nothing is accessed directly. -/
theorem no_direct (hc : s.Current) (hram : s.ramSize ≤ address.toNat)
    (hrom : address.toNat < 0x40000000 ∨ 0x50000000 ≤ address.toNat) :
    (s.physicalMemoryMap.pageFor address).read = none ∧
      (s.physicalMemoryMap.pageFor address).write = none := by
  rcases hc with hc | ⟨-, hc⟩
  · rw [hc]
    exact ⟨rfl, rfl⟩
  · rw [hc]
    constructor
    · by_contra hsome
      obtain ⟨p, hp⟩ := Option.ne_none_iff_exists'.1 hsome
      rcases direct_read hp with ⟨-, -, hlt⟩ | ⟨-, -, hw⟩
      · exact absurd hlt (Nat.not_lt.2 hram)
      · have hrange := (romWindow_iff address).1 hw
        omega
    · by_contra hsome
      obtain ⟨p, hp⟩ := Option.ne_none_iff_exists'.1 hsome
      exact absurd (direct_write hp).2 (Nat.not_lt.2 hram)

/-- A byte that can be read directly is read as such. -/
theorem read8_of_direct (hc : s.Current) {value : UInt8}
    (h : s.physicalMemoryMap.tryRead8 s.bytes address = some value) :
    read8 dev ops s address = (value, s) := by
  obtain ⟨hov, p, hp, hv⟩ := tryRead8_memory hc h
  unfold read8
  rw [hov, if_neg (fun h => Bool.false_ne_true h.1)]
  by_cases hw : address &&& 0xf0000000 = romBase
  · rw [memoryByte_rom hw] at hp
    cases hp
    rw [if_pos hw, if_neg Bool.false_ne_true, hv]
  · rw [if_neg hw, h]

theorem decodedRead8_of_memory {p : Region × Nat} (hover : ¬ (s.overlay ∧ address.toNat < romSize))
    (hw : ¬ address &&& 0xf0000000 = romBase) (h : s.memoryByte address = some p) :
    decodedRead8 dev ops s address = (s.bytes p.1 p.2, s) := by
  unfold memoryByte at h
  rw [if_neg hover, if_neg hw] at h
  unfold decodedRead8
  by_cases halias : s.isAliasedRom address
  · rw [if_pos halias] at h ⊢
    cases h
    rfl
  rw [if_neg halias] at h ⊢
  by_cases hov : s.overlay
  · rw [if_pos hov] at h
    cases h
  rw [if_neg hov] at h ⊢
  cases hi : s.sizingRamIndex address with
  | some index =>
    rw [hi] at h
    cases h
    dsimp only
    split_ifs <;> rfl
  | none =>
    rw [hi] at h
    obtain ⟨index, hr, rfl⟩ := Option.map_eq_some_iff.1 h
    rw [hr]

/-- What a read of the byte at an address leaves of the overlay. -/
def endOverlay (s : Quadra700Machine δ κ) (address : UInt32) : Quadra700Machine δ κ :=
  if s.overlay ∧ address &&& 0xf0000000 = romBase then
    { s with overlay := false }.rebuildPhysicalMemoryMap
  else s

theorem endOverlay_of_ended (hov : s.overlay = false) : s.endOverlay address = s :=
  if_neg fun h => by rw [hov] at h; exact Bool.false_ne_true h.1

theorem endOverlay_of_not_rom (hw : ¬ address &&& 0xf0000000 = romBase) : s.endOverlay address = s :=
  if_neg fun h => hw h.2

/-- What is read of memory, directly or not. -/
theorem read8_of_memory (hc : s.Current) {p : Region × Nat} (h : s.memoryByte address = some p) :
    read8 dev ops s address = (s.bytes p.1 p.2, s.endOverlay address) := by
  cases hd : s.physicalMemoryMap.tryRead8 s.bytes address with
  | some value =>
    obtain ⟨hov, q, hq, hv⟩ := tryRead8_memory hc hd
    rw [h] at hq
    cases hq
    rw [read8_of_direct hc hd, hv, endOverlay_of_ended hov]
  | none =>
    by_cases hw : address &&& 0xf0000000 = romBase
    · rw [memoryByte_rom hw] at h
      cases h
      have hlow : ¬ (s.overlay ∧ address.toNat < romSize) := by
        have hrange := (romWindow_iff address).1 hw
        unfold romSize
        omega
      unfold read8 endOverlay
      rw [if_neg hlow, if_pos hw]
      by_cases hov : s.overlay
      · rw [if_pos hov, if_pos ⟨hov, hw⟩]
      · rw [if_neg hov, if_neg (fun h => hov h.1)]
    rw [endOverlay_of_not_rom hw]
    unfold read8
    by_cases hover : s.overlay ∧ address.toNat < romSize
    · unfold memoryByte at h
      rw [if_pos hover] at h ⊢
      cases h
      rfl
    · rw [if_neg hover, if_neg hw, hd]
      exact decodedRead8_of_memory hover hw h

/-- With an empty page table, the decoder alone answers. -/
def uncached (s : Quadra700Machine δ κ) : Quadra700Machine δ κ :=
  { s with physicalMemoryMap := PhysicalMemoryMap.clear }

theorem uncached_current (s : Quadra700Machine δ κ) : s.uncached.Current := Or.inl rfl

theorem uncached_memoryByte (s : Quadra700Machine δ κ) (address : UInt32) :
    s.uncached.memoryByte address = s.memoryByte address := rfl

/-- What can be read directly is what the decoder reaches. -/
theorem direct_read8 (hc : s.Current) {value : UInt8}
    (h : s.physicalMemoryMap.tryRead8 s.bytes address = some value) :
    (∃ p, s.memoryByte address = some p ∧ s.bytes p.1 p.2 = value) ∧
      read8 dev ops s.uncached address = (value, s.uncached) := by
  obtain ⟨hov, p, hp, hv⟩ := tryRead8_memory hc h
  refine ⟨⟨p, hp, hv⟩, ?_⟩
  have hov' : s.uncached.overlay = false := hov
  have hp' : s.uncached.memoryByte address = some p := hp
  have hv' : s.uncached.bytes p.1 p.2 = value := hv
  rw [read8_of_memory s.uncached_current hp', endOverlay_of_ended hov', hv']

/-- What can be written directly is what the decoder reaches. -/
theorem direct_write8 (hc : s.Current) {value : UInt8} {bytes : Bytes Region}
    (h : s.physicalMemoryMap.tryWrite8 s.bytes address value = some bytes) :
    (∃ index, s.writtenByte address = some (.ram, index) ∧
        bytes = writeBytes s.bytes .ram index [value]) ∧
      write8 dev ops s.uncached address value = { s.uncached with bytes := bytes } := by
  obtain ⟨hov, hlt, rfl⟩ := tryWrite8_memory hc h
  refine ⟨⟨_, (memoryByte_ram hov hlt).2, rfl⟩, ?_⟩
  have hnone : s.uncached.physicalMemoryMap.tryWrite8 s.uncached.bytes address value = none := by
    rw [tryWrite8_eq]
    rfl
  have hov' : s.uncached.overlay = false := hov
  have hlt' : address.toNat < s.uncached.ramSize := hlt
  have hle := s.uncached.ramSize_pos.2
  unfold write8
  rw [hnone]
  unfold decodedWrite8
  dsimp only
  rw [hov', if_neg Bool.false_ne_true, sizingRamIndex_of_lt (by omega), ramIndex_of_lt hlt']
  rfl

/-- A byte is written, and is marked as such where the memory is being sized. -/
def writeMemory (s : Quadra700Machine δ κ) (p : Region × Nat) (value : UInt8) :
    Quadra700Machine δ κ :=
  let bytes := writeBytes s.bytes p.1 p.2 [value]
  { s with bytes := if p.1 = .sizingRam then writeBytes bytes .sizingRamDirty p.2 [1] else bytes }

/-- What is written to memory, directly or not. -/
theorem write8_of_memory (hc : s.Current) {p : Region × Nat} (h : s.writtenByte address = some p)
    (value : UInt8) : write8 dev ops s address value = s.writeMemory p value := by
  cases hd : s.physicalMemoryMap.tryWrite8 s.bytes address value with
  | some bytes =>
    obtain ⟨hov, hlt, rfl⟩ := tryWrite8_memory hc hd
    rw [(memoryByte_ram hov hlt).2] at h
    cases h
    unfold write8
    rw [hd]
    rfl
  | none =>
    unfold writtenByte at h
    unfold write8 decodedWrite8
    rw [hd]
    dsimp only
    by_cases hov : s.overlay
    · rw [if_pos hov] at h
      cases h
    rw [if_neg hov] at h ⊢
    cases hi : s.sizingRamIndex address with
    | some index =>
      rw [hi] at h
      cases h
      rfl
    | none =>
      rw [hi] at h
      obtain ⟨index, hr, rfl⟩ := Option.map_eq_some_iff.1 h
      rw [hr]
      rfl

/-! ## The parts of the address space -/

/-- The machine as a bus. -/
def bus (dev : Devices δ) (ops : Card κ) : Bus (Quadra700Machine δ κ) where
  read8 := read8 dev ops
  read16 := read16 dev ops
  read32 := read32 dev ops
  write8 := write8 dev ops
  write16 := write16 dev ops
  write32 := write32 dev ops

/-- The cards of the machine as a bus. -/
def cardBus (dev : Devices δ) (ops : Card κ) : Bus (Quadra700Machine δ κ) where
  read8 s address := ((s.nubus.read8 ops address).1, s.settleNuBus dev (s.nubus.read8 ops address).2)
  read16 s address :=
    ((s.nubus.read16 ops address).1, s.settleNuBus dev (s.nubus.read16 ops address).2)
  read32 s address :=
    ((s.nubus.read32 ops address).1, s.settleNuBus dev (s.nubus.read32 ops address).2)
  write8 s address value := s.settleNuBus dev (s.nubus.write8 ops address value)
  write16 s address value := s.settleNuBus dev (s.nubus.write16 ops address value)
  write32 s address value := s.settleNuBus dev (s.nubus.write32 ops address value)

inductive Place where
  | ram
  | sizingRam
  | rom
  | aliasedRom
  | dafbVram
  | slotAlias
  deriving DecidableEq, Repr

/-- The addresses of a place, from the first to the one past the last. -/
def Place.range (ramSize : Nat) : Place → Nat × Nat
  | .ram => (0, ramSize)
  | .sizingRam => (0x30000000, 0x40000000)
  | .rom => (0x40000000, 0x50000000)
  | .aliasedRom => (0x00800000, 0x00900000)
  | .dafbVram => (0xf9000000, 0xf9000000 + dafbVramSize)
  | .slotAlias => (0x00900000, 0x00f00000)

/-- Each of some addresses is in a place. -/
def InPlace (s : Quadra700Machine δ κ) (place : Place) (address : UInt32) (size : Nat) : Prop :=
  ∀ i < size, (place.range s.ramSize).1 ≤ (address + UInt32.ofNat i).toNat ∧
    (address + UInt32.ofNat i).toNat < (place.range s.ramSize).2

instance (s : Quadra700Machine δ κ) (place : Place) (address : UInt32) (size : Nat) :
    Decidable (s.InPlace place address size) := by
  unfold InPlace
  infer_instance

/-- Addresses that neither a device nor a card is at. -/
def Plain (address : UInt32) : Prop :=
  address.toNat < 0x50000000 ∧ (address.toNat < 0x00900000 ∨ 0x00f00000 ≤ address.toNat)

theorem not_isIo (h : address.toNat < 0x50000000) : ¬ isIo address := by
  intro hio
  have hle := masked_le (address &&& ~~~ioMirrorMask) 0xfff00000
  have hle' := masked_le address (~~~ioMirrorMask)
  unfold isIo at hio
  rw [hio] at hle
  have hbase : ioBase.toNat = 0x50000000 := rfl
  omega

theorem isDafbVram_iff (address : UInt32) :
    isDafbVram address ↔ 0xf9000000 ≤ address.toNat ∧ address.toNat < 0xf9200000 := by
  unfold isDafbVram
  rw [UInt32.le_iff_toNat_le, UInt32.lt_iff_toNat_lt]
  rfl

theorem not_isDafbRegister (h : address.toNat < 0xf9800000) : ¬ isDafbRegister address := by
  rintro ⟨h1, -⟩
  rw [UInt32.le_iff_toNat_le, show dafbRegisterBase.toNat = 0xf9800000 from rfl] at h1
  omega

theorem superSlot_of_lt (h : address.toNat < 0x60000000) : superSlot address = -1 :=
  if_pos (Or.inl (UInt32.lt_iff_toNat_lt.2 h))

theorem not_isAliasedNuBus (h : Plain address) : ¬ s.isAliasedNuBus address := by
  rintro (hsuper | ⟨hstandard, -⟩)
  · rw [superSlot_of_lt (by have := h.1; omega)] at hsuper
    exact absurd hsuper (by decide)
  · rw [standardSlot_of_lt (by have := h.1; omega) h.2] at hstandard
    exact absurd hstandard (by decide)

/-- Neither the video nor the I/O space is below the I/O space. -/
theorem no_device (address : UInt32) (h : address.toNat < 0x50000000) :
    ¬ isDafbVram address ∧ ¬ isDafbRegister address ∧ ¬ isTurboScsiDma address ∧ ¬ isIo address := by
  have hio := not_isIo h
  refine ⟨?_, not_isDafbRegister (by omega), fun hdma => hio hdma.1, hio⟩
  rw [isDafbVram_iff]
  omega

/-! ## Memory -/

/-- A direct read is a read of each byte. -/
theorem byteReads_of_tryRead (hc : s.Current) {size : Nat} {values : List UInt8}
    (h : s.physicalMemoryMap.tryRead s.bytes size address = some values) :
    (bus dev ops).byteReads s address size = (values, s) := by
  have hlen : values.length = size := by
    unfold tryRead at h
    split_ifs at h
    obtain ⟨p, -, rfl⟩ := Option.map_eq_some_iff.1 h
    rw [List.length_map, List.length_range]
  subst hlen
  refine Bus.byteReads_of_reads fun i hi => ?_
  have hbyte := tryRead_bytes h hi
  rw [List.getElem?_eq_getElem hi] at hbyte
  exact read8_of_direct hc hbyte

/-- A direct write is a write of each byte. -/
theorem byteWrites_of_tryWrite (values : List UInt8) :
    ∀ {s : Quadra700Machine δ κ} {address : UInt32} {value : UInt8} {bytes : Bytes Region},
      s.physicalMemoryMap.tryWrite s.bytes address (value :: values) = some bytes →
      (bus dev ops).byteWrites s address (value :: values) = { s with bytes := bytes } := by
  induction values with
  | nil =>
    intro s address value bytes h
    have h8 : s.physicalMemoryMap.tryWrite8 s.bytes address value = some bytes := h
    show write8 dev ops s address value = _
    unfold write8
    rw [h8]
  | cons value' values ih =>
    intro s address value bytes h
    obtain ⟨bytes₁, h1, h2⟩ := tryWrite_cons h
    have hfirst : write8 dev ops s address value = { s with bytes := bytes₁ } := by
      unfold write8
      rw [h1]
    rw [Bus.byteWrites, show (bus dev ops).write8 s address value = _ from hfirst]
    exact ih (s := { s with bytes := bytes₁ }) h2

theorem bytes16_eq (dev : Devices δ) (ops : Card κ) (s : Quadra700Machine δ κ) (address : UInt32) :
    bytes16 dev ops s address = (UInt16.ofNat (bigEndian ((bus dev ops).byteReads s address 2).1),
      ((bus dev ops).byteReads s address 2).2) := (bus dev ops).word_of_reads s address

/-- A word outside of the devices is read as its bytes are. -/
theorem read16_plain (hc : s.Current) (hp : Plain address) :
    read16 dev ops s address = (UInt16.ofNat (bigEndian ((bus dev ops).byteReads s address 2).1),
      ((bus dev ops).byteReads s address 2).2) := by
  rw [← bytes16_eq]
  unfold read16
  by_cases hover : s.overlay ∧ address.toNat < romSize - 1
  · rw [if_pos hover]
  by_cases hw : address &&& 0xf0000000 = romBase
  · rw [if_neg hover, if_pos hw]
  rw [if_neg hover, if_neg hw]
  cases hd : s.physicalMemoryMap.tryRead16 s.bytes address with
  | some value =>
    unfold tryRead16 at hd
    obtain ⟨values, hv, rfl⟩ := Option.map_eq_some_iff.1 hd
    rw [bytes16_eq, byteReads_of_tryRead hc hv]
  | none =>
    obtain ⟨h1, h2, h3, h4⟩ := no_device _ hp.1
    dsimp only
    rw [if_neg h1, if_neg h2, if_neg h3, if_neg h4, if_neg (not_isAliasedNuBus hp)]

/-- A long word outside of the devices is read as its bytes are. -/
theorem read32_plain (hc : s.Current) (hp : Plain address) (hp' : Plain (address + 2)) :
    read32 dev ops s address = (UInt32.ofNat (bigEndian ((bus dev ops).byteReads s address 4).1),
      ((bus dev ops).byteReads s address 4).2) := by
  have hwords : words32 dev ops s address
      = (UInt32.ofNat (bigEndian ((bus dev ops).byteReads s address 4).1),
        ((bus dev ops).byteReads s address 4).2) :=
    Bus.long_of_words (read16_plain hc hp) (read16_plain (read16_current hc address) hp')
  obtain ⟨h1, h2, -, h4⟩ := no_device _ hp.1
  unfold read32
  by_cases hw : address &&& 0xf0000000 = romBase
  · rw [if_pos hw, hwords]
  rw [if_neg hw, if_neg (fun h => h4 h.1)]
  cases hd : s.directRead32 address with
  | some value =>
    unfold directRead32 at hd
    split_ifs at hd
    unfold tryRead32 at hd
    obtain ⟨values, hv, rfl⟩ := Option.map_eq_some_iff.1 hd
    rw [byteReads_of_tryRead hc hv]
  | none =>
    dsimp only
    rw [if_neg h1, if_neg h2, if_neg (not_isAliasedNuBus hp), hwords]

theorem write16_plain (hp : Plain address) (value : UInt16) :
    write16 dev ops s address value
      = (bus dev ops).byteWrites s address (bytesOf value.toNat 2) := by
  unfold write16
  cases hd : s.physicalMemoryMap.tryWrite16 s.bytes address value with
  | some bytes =>
    unfold tryWrite16 at hd
    rw [bytesOf_word] at hd ⊢
    rw [byteWrites_of_tryWrite _ hd]
  | none =>
    obtain ⟨h1, h2, h3, h4⟩ := no_device _ hp.1
    dsimp only
    rw [if_neg h1, if_neg h2, if_neg h3, if_neg h4, if_neg (not_isAliasedNuBus hp)]
    exact (bus dev ops).word_of_writes s address value

theorem write32_plain (hp : Plain address) (hp' : Plain (address + 2)) (value : UInt32) :
    write32 dev ops s address value
      = (bus dev ops).byteWrites s address (bytesOf value.toNat 4) := by
  unfold write32
  cases hd : s.physicalMemoryMap.tryWrite32 s.bytes address value with
  | some bytes =>
    unfold tryWrite32 at hd
    rw [bytesOf_long, bytesOf_word] at hd ⊢
    rw [List.cons_append] at hd ⊢
    rw [byteWrites_of_tryWrite _ hd]
  | none =>
    obtain ⟨h1, h2, -, -⟩ := no_device _ hp.1
    dsimp only
    rw [if_neg h1, if_neg h2, if_neg (not_isAliasedNuBus hp)]
    exact Bus.long_of_writes (bus dev ops) (write16_plain hp _) (write16_plain hp' _)

theorem alike_plain (hc : s.Current) (hp : Plain address) :
    (bus dev ops).Alike16 s address ∧
      (Plain (address + 2) → (bus dev ops).Alike32 s address) :=
  ⟨⟨read16_plain hc hp, write16_plain hp⟩,
    fun hp' => ⟨read32_plain hc hp hp', write32_plain hp hp'⟩⟩

/-! ## Past the page table -/

/-- An address past the installed memory, the overlay and the window of the ROM. -/
structure Past (s : Quadra700Machine δ κ) (address : UInt32) : Prop where
  current : s.Current
  ram : s.ramSize ≤ address.toNat
  low : romSize ≤ address.toNat
  rom : address.toNat < 0x40000000 ∨ 0x50000000 ≤ address.toNat
  aliasedRom : address.toNat < 0x800000 ∨ 0x900000 ≤ address.toNat
  sizingRam : address.toNat < 0x30000000 ∨ 0x40000000 ≤ address.toNat

namespace Past

variable (h : s.Past address)
include h

theorem not_overlay : ¬ (s.overlay ∧ address.toNat < romSize) :=
  fun hover => absurd hover.2 (Nat.not_lt.2 h.low)

theorem not_window : ¬ address &&& 0xf0000000 = romBase := by
  have hrom := h.rom
  rw [romWindow_iff]
  omega

theorem not_read (size : Nat) : s.physicalMemoryMap.tryRead s.bytes size address = none :=
  tryRead_none (no_direct h.current h.ram h.rom).1 size

theorem not_written (values : List UInt8) :
    s.physicalMemoryMap.tryWrite s.bytes address values = none :=
  tryWrite_none (no_direct h.current h.ram h.rom).2 values

theorem not_aliasedRom : ¬ s.isAliasedRom address := by
  intro halias
  have hrange := isAliasedRom_range halias
  have hout := h.aliasedRom
  omega

theorem read8_eq : read8 dev ops s address =
    if s.overlay = false ∧ address < 0x40000000 then (0xff, s) else deviceRead8 dev ops s address := by
  have hdirect : s.physicalMemoryMap.tryRead8 s.bytes address = none := by
    unfold tryRead8
    rw [h.not_read]
    rfl
  have hram : s.ramIndex address = none := if_neg (Nat.not_lt.2 h.ram)
  unfold read8 decodedRead8
  rw [if_neg h.not_overlay, if_neg h.not_window, hdirect]
  dsimp only
  rw [if_neg h.not_aliasedRom, sizingRamIndex_of_lt h.sizingRam, hram]
  dsimp only
  cases s.overlay with
  | true => simp
  | false => simp

theorem write8_eq (value : UInt8) : write8 dev ops s address value =
    if s.overlay = false ∧ address < 0x40000000 then s else deviceWrite8 dev ops s address value := by
  have hdirect : s.physicalMemoryMap.tryWrite8 s.bytes address value = none := h.not_written _
  have hram : s.ramIndex address = none := if_neg (Nat.not_lt.2 h.ram)
  unfold write8 decodedWrite8
  rw [hdirect]
  dsimp only
  rw [sizingRamIndex_of_lt h.sizingRam, hram]
  dsimp only
  cases s.overlay with
  | true => simp
  | false => simp

end Past

/-! ## The memory of the video -/

theorem Past.of_vram (hc : s.Current) (hv : isDafbVram address) : s.Past address := by
  have hrange := (isDafbVram_iff address).1 hv
  have hle := s.ramSize_pos.2
  have hrom : romSize = 0x100000 := rfl
  exact ⟨hc, by omega, by omega, by omega, by omega, by omega⟩

theorem not_low_of_vram (hv : isDafbVram address) :
    ¬ (s.overlay = false ∧ address < 0x40000000) := by
  rintro ⟨-, hlow⟩
  have hrange := (isDafbVram_iff address).1 hv
  rw [UInt32.lt_iff_toNat_lt, show (0x40000000 : UInt32).toNat = 0x40000000 from rfl] at hlow
  omega

theorem not_isIo_of_vram (hv : isDafbVram address) : ¬ isIo address := by
  intro hio
  have hrange := (isDafbVram_iff address).1 hv
  have hor : (address &&& 0xf0000000).toNat = 0xf0000000 := by
    rw [toNat_and_window]
    omega
  have hand : (address &&& ~~~ioMirrorMask &&& 0xfff00000) &&& 0xf0000000 = address &&& 0xf0000000 := by
    rw [UInt32.and_assoc, UInt32.and_assoc]
    rfl
  rw [show address &&& ~~~ioMirrorMask &&& 0xfff00000 = ioBase from hio] at hand
  rw [← hand] at hor
  exact absurd hor (by decide)

theorem read8_vram (hc : s.Current) (hv : isDafbVram address) :
    read8 dev ops s address = (s.dafb.readVram8 (address - dafbVramBase), s) := by
  rw [(Past.of_vram hc hv).read8_eq, if_neg (not_low_of_vram hv), deviceRead8, if_pos hv]

theorem write8_vram (hc : s.Current) (hv : isDafbVram address) (value : UInt8) :
    write8 dev ops s address value
      = { s with dafb := s.dafb.writeVram8 (address - dafbVramBase) value } := by
  rw [(Past.of_vram hc hv).write8_eq, if_neg (not_low_of_vram hv), deviceWrite8, if_pos hv]

theorem read16_vram (hc : s.Current) (hv : isDafbVram address) :
    read16 dev ops s address = (s.dafb.readVram16 (address - dafbVramBase), s) := by
  have h := Past.of_vram hc hv
  have hlow : ¬ (s.overlay ∧ address.toNat < romSize - 1) := by
    have hle := h.low
    omega
  unfold read16 tryRead16
  rw [if_neg hlow, if_neg h.not_window, h.not_read]
  exact if_pos hv

theorem read32_vram (hc : s.Current) (hv : isDafbVram address) :
    read32 dev ops s address = (s.dafb.readVram32 (address - dafbVramBase), s) := by
  have h := Past.of_vram hc hv
  unfold read32 directRead32 tryRead32
  rw [if_neg h.not_window, if_neg (fun hio => not_isIo_of_vram hv hio.1), h.not_read,
    Option.map_none, ite_self]
  exact if_pos hv

theorem write16_vram (hc : s.Current) (hv : isDafbVram address) (value : UInt16) :
    write16 dev ops s address value
      = { s with dafb := s.dafb.writeVram16 (address - dafbVramBase) value } := by
  unfold write16 tryWrite16
  rw [(Past.of_vram hc hv).not_written]
  exact if_pos hv

theorem write32_vram (hc : s.Current) (hv : isDafbVram address) (value : UInt32) :
    write32 dev ops s address value
      = { s with dafb := s.dafb.writeVram32 (address - dafbVramBase) value } := by
  unfold write32 tryWrite32
  rw [(Past.of_vram hc hv).not_written]
  exact if_pos hv

theorem add_sub_base (address i : UInt32) :
    address + i - dafbVramBase = address - dafbVramBase + i := by
  rw [UInt32.sub_eq_add_neg, UInt32.sub_eq_add_neg, UInt32.add_assoc, UInt32.add_comm i,
    ← UInt32.add_assoc]

theorem vram_word (hc : s.Current) (hv : isDafbVram address) (hv' : isDafbVram (address + 1)) :
    (s.dafb.readVram16 (address - dafbVramBase), s)
      = (UInt16.ofNat (bigEndian ((bus dev ops).byteReads s address 2).1),
        ((bus dev ops).byteReads s address 2).2) := by
  have hhigh : (bus dev ops).read8 s address = _ := read8_vram hc hv
  have hlow : (bus dev ops).read8 s (address + 1) = _ := read8_vram hc hv'
  rw [← Bus.word_of_reads, hhigh]
  dsimp only
  rw [hlow, add_sub_base]
  rfl

theorem vram_write16 (hc : s.Current) (hv : isDafbVram address) (hv' : isDafbVram (address + 1))
    (value : UInt16) :
    write16 dev ops s address value
      = (bus dev ops).byteWrites s address (bytesOf value.toNat 2) := by
  have hhigh : (bus dev ops).write8 s address (value >>> 8).toUInt8 = _ := write8_vram hc hv _
  rw [write16_vram hc hv, ← Bus.word_of_writes, hhigh]
  have hc' : Current { s with
      dafb := s.dafb.writeVram8 (address - dafbVramBase) (value >>> 8).toUInt8 } := hc
  have hlow : (bus dev ops).write8 _ (address + 1) value.toUInt8 = _ := write8_vram hc' hv' _
  rw [add_sub_base] at hlow
  exact hlow.symm

/-- The memory of the video answers alike. -/
theorem alike_vram (hc : s.Current) (hv : isDafbVram address) (hv' : isDafbVram (address + 1)) :
    (bus dev ops).Alike16 s address ∧
      (isDafbVram (address + 2) → isDafbVram (address + 3) → (bus dev ops).Alike32 s address) := by
  refine ⟨⟨?_, vram_write16 hc hv hv'⟩, fun h2 h3 => ⟨?_, fun value => ?_⟩⟩
  · rw [← vram_word hc hv hv']
    exact read16_vram hc hv
  · have h3' : isDafbVram (address + 2 + 1) := by
      rw [UInt32.add_assoc]
      exact h3
    rw [← Bus.long_of_words (vram_word hc hv hv') (vram_word hc h2 h3')]
    show read32 dev ops s address = _
    rw [read32_vram hc hv, DafbVideo.readVram32, add_sub_base]
  · have h3' : isDafbVram (address + 2 + 1) := by
      rw [UInt32.add_assoc]
      exact h3
    have hfirst : write16 dev ops s address (value >>> 16).toUInt16 = _ := vram_write16 hc hv hv' _
    have hc' : (write16 dev ops s address (value >>> 16).toUInt16).Current := write16_current hc _ _
    rw [← Bus.long_of_writes (bus dev ops) hfirst (vram_write16 hc' h2 h3' _)]
    show write32 dev ops s address value
      = write16 dev ops (write16 dev ops s address (value >>> 16).toUInt16) (address + 2) value.toUInt16
    rw [write16_vram hc' h2, write16_vram hc hv, write32_vram hc hv, DafbVideo.writeVram32,
      add_sub_base]


/-! ## The 24-bit slot spaces -/

/-- An address of the 24-bit slot spaces. -/
def InAlias (address : UInt32) : Prop := 0x00900000 ≤ address.toNat ∧ address.toNat < 0x00f00000

theorem standardSlot_of_alias (h : InAlias address) : 0 ≤ standardSlot address := by
  obtain ⟨h1, h2⟩ := h
  have hhigh : ¬ address &&& 0xf0000000 = 0xf0000000 := by
    rw [← UInt32.toNat_inj, toNat_and_window]
    have hval : (0xf0000000 : UInt32).toNat = 0xf0000000 := rfl
    omega
  have hin : 0x00900000 ≤ address ∧ address ≤ 0x00efffff := by
    rw [UInt32.le_iff_toNat_le, UInt32.le_iff_toNat_le]
    have e1 : (0x00900000 : UInt32).toNat = 0x00900000 := rfl
    have e2 : (0x00efffff : UInt32).toNat = 0x00efffff := rfl
    omega
  have hslot : ((address >>> 20) &&& 0x0f).toNat = address.toNat / 2 ^ 20 := by
    rw [UInt32.toNat_and, UInt32.toNat_shiftRight, show (20 : UInt32).toNat % 32 = 20 from rfl,
      Nat.shiftRight_eq_div_pow, show (0x0f : UInt32).toNat = 2 ^ 4 - 1 from rfl,
      Nat.and_two_pow_sub_one_eq_mod]
    omega
  unfold standardSlot
  rw [if_neg hhigh, if_pos hin, hslot]
  dsimp only
  rw [if_pos (by omega)]
  omega

theorem Past.of_alias (hc : s.Current) (ha : InAlias address) : s.Past address := by
  obtain ⟨h1, h2⟩ := ha
  have hle := s.ramSize_pos.2
  have hrom : romSize = 0x100000 := rfl
  exact ⟨hc, by omega, by omega, by omega, by omega, by omega⟩

theorem isAliasedNuBus_of_alias (s : Quadra700Machine δ κ) (ha : InAlias address) :
    s.isAliasedNuBus address := by
  have hle := s.ramSize_pos.2
  have h1 := ha.1
  exact Or.inr ⟨standardSlot_of_alias ha, if_neg (by omega)⟩

section Alias
variable (hc : s.Current) (ha : InAlias address)
include hc ha

theorem read8_alias : read8 dev ops s address =
    if s.overlay then (cardBus dev ops).read8 s address else (0xff, s) := by
  obtain ⟨h1, h2, -, h4⟩ := no_device address (by have := ha.2; omega)
  have hlow : address < 0x40000000 := UInt32.lt_iff_toNat_lt.2 (lt_trans ha.2 (by decide))
  rw [(Past.of_alias hc ha).read8_eq]
  cases hov : s.overlay with
  | true =>
    rw [if_neg (fun h => Bool.false_ne_true h.1.symm), if_pos rfl, deviceRead8, if_neg h1, if_neg h2,
      if_neg h4, if_pos (s.isAliasedNuBus_of_alias ha)]
    rfl
  | false => rw [if_pos ⟨rfl, hlow⟩, if_neg Bool.false_ne_true]

theorem write8_alias (value : UInt8) : write8 dev ops s address value =
    if s.overlay then (cardBus dev ops).write8 s address value else s := by
  obtain ⟨h1, h2, -, h4⟩ := no_device address (by have := ha.2; omega)
  have hlow : address < 0x40000000 := UInt32.lt_iff_toNat_lt.2 (lt_trans ha.2 (by decide))
  rw [(Past.of_alias hc ha).write8_eq]
  cases hov : s.overlay with
  | true =>
    rw [if_neg (fun h => Bool.false_ne_true h.1.symm), if_pos rfl, deviceWrite8, if_neg h1,
      if_neg h2, if_neg h4, if_pos (s.isAliasedNuBus_of_alias ha)]
    rfl
  | false => rw [if_pos ⟨rfl, hlow⟩, if_neg Bool.false_ne_true]

/-- The wide accesses reach the card whatever the overlay is. -/
theorem read16_alias : read16 dev ops s address = (cardBus dev ops).read16 s address := by
  have h := Past.of_alias hc ha
  obtain ⟨h1, h2, h3, h4⟩ := no_device address (by have := ha.2; omega)
  have hlow : ¬ (s.overlay ∧ address.toNat < romSize - 1) := by
    have hle := h.low
    omega
  unfold read16 tryRead16
  rw [if_neg hlow, if_neg h.not_window, h.not_read, Option.map_none]
  dsimp only
  rw [if_neg h1, if_neg h2, if_neg h3, if_neg h4, if_pos (s.isAliasedNuBus_of_alias ha)]
  rfl

theorem read32_alias : read32 dev ops s address = (cardBus dev ops).read32 s address := by
  have h := Past.of_alias hc ha
  obtain ⟨h1, h2, -, h4⟩ := no_device address (by have := ha.2; omega)
  unfold read32 directRead32 tryRead32
  rw [if_neg h.not_window, if_neg (fun hio => h4 hio.1), h.not_read, Option.map_none, ite_self]
  dsimp only
  rw [if_neg h1, if_neg h2, if_pos (s.isAliasedNuBus_of_alias ha)]
  rfl

theorem write16_alias (value : UInt16) :
    write16 dev ops s address value = (cardBus dev ops).write16 s address value := by
  obtain ⟨h1, h2, h3, h4⟩ := no_device address (by have := ha.2; omega)
  unfold write16 tryWrite16
  rw [(Past.of_alias hc ha).not_written]
  dsimp only
  rw [if_neg h1, if_neg h2, if_neg h3, if_neg h4, if_pos (s.isAliasedNuBus_of_alias ha)]
  rfl

theorem write32_alias (value : UInt32) :
    write32 dev ops s address value = (cardBus dev ops).write32 s address value := by
  obtain ⟨h1, h2, -, -⟩ := no_device address (by have := ha.2; omega)
  unfold write32 tryWrite32
  rw [(Past.of_alias hc ha).not_written]
  dsimp only
  rw [if_neg h1, if_neg h2, if_pos (s.isAliasedNuBus_of_alias ha)]
  rfl

end Alias

theorem settleNuBus_overlay (s : Quadra700Machine δ κ) (turn : NuBusBus κ × List SlotIrq) :
    (s.settleNuBus dev turn).overlay = s.overlay := by
  have hstart : ({ s with nubus := turn.1 } : Quadra700Machine δ κ).overlay = s.overlay := rfl
  exact Machine.run_inv (I := fun t : Quadra700Machine δ κ => t.overlay = s.overlay)
    (fun t irq h => show (slotIrq dev t irq).overlay = s.overlay from h) hstart turn.2

/-- Under the overlay the bytes are the card's, too. -/
theorem alias_bytes (dev : Devices δ) (ops : Card κ) (hc : s.Current) (hov : s.overlay = true) {size : Nat}
    (ha : ∀ i < size, InAlias (address + UInt32.ofNat i)) :
    (bus dev ops).byteReads s address size = (cardBus dev ops).byteReads s address size ∧
      ∀ values, values.length = size →
        (bus dev ops).byteWrites s address values = (cardBus dev ops).byteWrites s address values := by
  constructor
  · refine Bus.byteReads_congr (I := fun t => t.Current ∧ t.overlay = true) ?_ ⟨hc, hov⟩
    rintro t i hi ⟨hct, hovt⟩
    refine ⟨?_, settleNuBus_current hct _, (settleNuBus_overlay ..).trans hovt⟩
    show read8 dev ops t _ = _
    rw [read8_alias hct (ha i hi), if_pos hovt]
  · rintro values rfl
    refine Bus.byteWrites_congr (I := fun t => t.Current ∧ t.overlay = true) values ?_ ⟨hc, hov⟩
    rintro t value i hi ⟨hct, hovt⟩
    refine ⟨?_, settleNuBus_current hct _, (settleNuBus_overlay ..).trans hovt⟩
    show write8 dev ops t _ _ = _
    rw [write8_alias hct (ha i hi), if_pos hovt]

/-- Once the overlay has ended the bytes are those of an empty slot. -/
theorem alias_empty (dev : Devices δ) (ops : Card κ) (hc : s.Current) (hov : s.overlay = false) {size : Nat}
    (ha : ∀ i < size, InAlias (address + UInt32.ofNat i)) :
    (bus dev ops).byteReads s address size = (List.replicate size 0xff, s) ∧
      ∀ values, values.length = size → (bus dev ops).byteWrites s address values = s := by
  constructor
  · have hlen : (List.replicate size (0xff : UInt8)).length = size := List.length_replicate
    have hreads : (bus dev ops).byteReads s address (List.replicate size (0xff : UInt8)).length = _ :=
      Bus.byteReads_of_reads fun i hi => by
        have hbyte : read8 dev ops s _ = _ := read8_alias hc (ha i (hlen ▸ hi))
        rw [hov, if_neg Bool.false_ne_true] at hbyte
        rw [List.get_eq_getElem, List.getElem_replicate]
        exact hbyte
    rwa [hlen] at hreads
  · rintro values rfl
    refine Bus.byteWrites_ignored fun i hi value => ?_
    have hbyte : write8 dev ops s _ value = _ := write8_alias hc (ha i hi) value
    rw [hov, if_neg Bool.false_ne_true] at hbyte
    exact hbyte

/-- What makes the accesses of a word in the slot spaces alike: under the overlay that the card's
    own are; afterwards that the card answers as an empty slot does. -/
def CardAlike16 (dev : Devices δ) (ops : Card κ) (s : Quadra700Machine δ κ) (address : UInt32) : Prop :=
  if s.overlay then (cardBus dev ops).Alike16 s address
  else (cardBus dev ops).read16 s address = (0xffff, s) ∧
    ∀ value, (cardBus dev ops).write16 s address value = s

def CardAlike32 (dev : Devices δ) (ops : Card κ) (s : Quadra700Machine δ κ) (address : UInt32) : Prop :=
  if s.overlay then (cardBus dev ops).Alike32 s address
  else (cardBus dev ops).read32 s address = (0xffffffff, s) ∧
    ∀ value, (cardBus dev ops).write32 s address value = s

theorem alike16_alias_iff (hc : s.Current) (ha : ∀ i < 2, InAlias (address + UInt32.ofNat i)) :
    (bus dev ops).Alike16 s address ↔ CardAlike16 dev ops s address := by
  have ha0 : InAlias address := by
    have h0 := ha 0 (by omega)
    rwa [show UInt32.ofNat 0 = 0 from rfl, UInt32.add_zero] at h0
  have hread : (bus dev ops).read16 s address = _ := read16_alias hc ha0
  have hwrite : ∀ value, (bus dev ops).write16 s address value = _ := write16_alias hc ha0
  unfold CardAlike16
  cases hov : s.overlay with
  | true =>
    obtain ⟨hreads, hwrites⟩ := alias_bytes dev ops hc hov ha
    rw [if_pos rfl]
    constructor
    · rintro ⟨h1, h2⟩
      refine ⟨?_, fun value => ?_⟩
      · rw [← hread, h1, hreads]
      · rw [← hwrite, h2, hwrites _ rfl]
    · rintro ⟨h1, h2⟩
      refine ⟨?_, fun value => ?_⟩
      · rw [hread, h1, hreads]
      · rw [hwrite, h2, hwrites _ rfl]
  | false =>
    obtain ⟨hreads, hwrites⟩ := alias_empty dev ops hc hov ha
    have hones : UInt16.ofNat (bigEndian (List.replicate 2 0xff)) = 0xffff := by decide
    rw [if_neg Bool.false_ne_true]
    constructor
    · rintro ⟨h1, h2⟩
      refine ⟨?_, fun value => ?_⟩
      · rw [← hread, h1, hreads, hones]
      · rw [← hwrite, h2, hwrites _ rfl]
    · rintro ⟨h1, h2⟩
      refine ⟨?_, fun value => ?_⟩
      · rw [hread, h1, hreads, hones]
      · rw [hwrite, h2, hwrites _ rfl]

theorem alike32_alias_iff (hc : s.Current) (ha : ∀ i < 4, InAlias (address + UInt32.ofNat i)) :
    (bus dev ops).Alike32 s address ↔ CardAlike32 dev ops s address := by
  have ha0 : InAlias address := by
    have h0 := ha 0 (by omega)
    rwa [show UInt32.ofNat 0 = 0 from rfl, UInt32.add_zero] at h0
  have hread : (bus dev ops).read32 s address = _ := read32_alias hc ha0
  have hwrite : ∀ value, (bus dev ops).write32 s address value = _ := write32_alias hc ha0
  unfold CardAlike32
  cases hov : s.overlay with
  | true =>
    obtain ⟨hreads, hwrites⟩ := alias_bytes dev ops hc hov ha
    rw [if_pos rfl]
    constructor
    · rintro ⟨h1, h2⟩
      refine ⟨?_, fun value => ?_⟩
      · rw [← hread, h1, hreads]
      · rw [← hwrite, h2, hwrites _ rfl]
    · rintro ⟨h1, h2⟩
      refine ⟨?_, fun value => ?_⟩
      · rw [hread, h1, hreads]
      · rw [hwrite, h2, hwrites _ rfl]
  | false =>
    obtain ⟨hreads, hwrites⟩ := alias_empty dev ops hc hov ha
    have hones : UInt32.ofNat (bigEndian (List.replicate 4 0xff)) = 0xffffffff := by decide
    rw [if_neg Bool.false_ne_true]
    constructor
    · rintro ⟨h1, h2⟩
      refine ⟨?_, fun value => ?_⟩
      · rw [← hread, h1, hreads, hones]
      · rw [← hwrite, h2, hwrites _ rfl]
    · rintro ⟨h1, h2⟩
      refine ⟨?_, fun value => ?_⟩
      · rw [hread, h1, hreads, hones]
      · rw [hwrite, h2, hwrites _ rfl]

/-! ## Every place -/

/-- Neither end of a place is passed by an access within it. -/
theorem InPlace.at {place : Place} {size : Nat} (h : s.InPlace place address size) {i : Nat}
    (hi : i < size) :
    (place.range s.ramSize).1 ≤ (address + UInt32.ofNat i).toNat ∧
      (address + UInt32.ofNat i).toNat < (place.range s.ramSize).2 := h i hi

theorem InPlace.first {place : Place} {size : Nat} (h : s.InPlace place address (size + 1)) :
    (place.range s.ramSize).1 ≤ address.toNat ∧ address.toNat < (place.range s.ramSize).2 := by
  have h0 := h 0 (Nat.succ_pos size)
  rwa [show UInt32.ofNat 0 = 0 from rfl, UInt32.add_zero] at h0

/-- Memory other than the video's is not where a device is. -/
theorem plain_of_place {place : Place} (hv : place ≠ .dafbVram) (hs : place ≠ .slotAlias)
    (h : (place.range s.ramSize).1 ≤ address.toNat ∧ address.toNat < (place.range s.ramSize).2) :
    Plain address := by
  have hle := s.ramSize_pos.2
  unfold Plain
  cases place <;> simp_all [Place.range] <;> omega

theorem alike16_iff (hc : s.Current) {place : Place} (h : s.InPlace place address 2) :
    (bus dev ops).Alike16 s address ↔ (place = .slotAlias → CardAlike16 dev ops s address) := by
  by_cases hs : place = .slotAlias
  · subst hs
    rw [alike16_alias_iff hc h]
    exact ⟨fun h _ => h, fun h => h rfl⟩
  refine iff_of_true ?_ fun h => absurd h hs
  by_cases hv : place = .dafbVram
  · subst hv
    exact (alike_vram hc ((isDafbVram_iff _).2 h.first) ((isDafbVram_iff _).2 (h.at (i := 1) (by omega)))).1
  · exact (alike_plain hc (plain_of_place hv hs h.first)).1

theorem alike32_iff (hc : s.Current) {place : Place} (h : s.InPlace place address 4) :
    (bus dev ops).Alike32 s address ↔ (place = .slotAlias → CardAlike32 dev ops s address) := by
  have h1 := h.at (i := 1) (by omega)
  have h2 := h.at (i := 2) (by omega)
  have h3 := h.at (i := 3) (by omega)
  by_cases hs : place = .slotAlias
  · subst hs
    rw [alike32_alias_iff hc h]
    exact ⟨fun h _ => h, fun h => h rfl⟩
  refine iff_of_true ?_ fun h => absurd h hs
  by_cases hv : place = .dafbVram
  · subst hv
    exact (alike_vram hc ((isDafbVram_iff _).2 h.first) ((isDafbVram_iff _).2 h1)).2
      ((isDafbVram_iff _).2 h2) ((isDafbVram_iff _).2 h3)
  · exact (alike_plain hc (plain_of_place hv hs h.first)).2 (plain_of_place hv hs h2)

/-- In every state that the machine gets to: what is accessed is within its array, a direct access
    is the one that the decoder makes, and the accesses of each place are alike at every width,
    but for a card in the 24-bit slot spaces that answers otherwise than an empty slot. -/
theorem run_alike_iff (dev : Devices δ) (ops : Card κ) (installed : InstalledRam) (devices : δ)
    (inputs : List (Input δ κ)) (address : UInt32) (place : Place) :
    let s := Machine.run (step dev ops) (powerOn installed devices) inputs
    (∀ p, s.memoryByte address = some p → p.2 < s.size p.1 ∧
      (read8 dev ops s address).1 = s.bytes p.1 p.2) ∧
    (∀ p, s.writtenByte address = some p → p.1 ≠ .rom ∧ p.2 < s.ramSize ∧
      ∀ value, write8 dev ops s address value = s.writeMemory p value) ∧
    (∀ value, s.physicalMemoryMap.tryRead8 s.bytes address = some value →
      (∃ p, s.memoryByte address = some p ∧ s.bytes p.1 p.2 = value) ∧
      read8 dev ops s.uncached address = (value, s.uncached)) ∧
    (∀ value bytes, s.physicalMemoryMap.tryWrite8 s.bytes address value = some bytes →
      (∃ index, s.writtenByte address = some (.ram, index) ∧
        bytes = writeBytes s.bytes .ram index [value]) ∧
      write8 dev ops s.uncached address value = { s.uncached with bytes := bytes }) ∧
    (s.InPlace place address 2 → ((bus dev ops).Alike16 s address ↔
      (place = .slotAlias → CardAlike16 dev ops s address))) ∧
    (s.InPlace place address 4 → ((bus dev ops).Alike32 s address ↔
      (place = .slotAlias → CardAlike32 dev ops s address))) := by
  intro s
  have hc : s.Current := run_current dev ops installed devices inputs
  refine ⟨fun p hp => ⟨memoryByte_lt hp, ?_⟩,
    fun p hp => ⟨(writtenByte_lt hp).1, (writtenByte_lt hp).2, write8_of_memory hc hp⟩,
    fun value h => direct_read8 hc h, fun value bytes h => direct_write8 hc h,
    fun h => alike16_iff hc h, fun h => alike32_iff hc h⟩
  rw [read8_of_memory hc hp]

/-- Devices that answer nothing. -/
def silent : Devices Unit where
  readIo8 _ dafb _ := (0, (), dafb)
  writeIo8 _ dafb _ _ := ((), dafb)
  readTurboScsiDma16 _ dafb := (0, (), dafb)
  writeTurboScsiDma16 _ dafb _ := ((), dafb)
  dafbIrq _ _ dafb := ((), dafb)
  slotIrq _ dafb _ := ((), dafb)
  reset _ dafb := ((), dafb)

/-- A card with one byte everywhere, which cannot be written. -/
def oneByteCard : Card UInt8 where
  read8 byte _ := (byte, byte, [])
  read16 byte _ := ((byte.toUInt16 <<< 8) ||| byte.toUInt16, byte, [])
  read32 byte _ := (UInt32.ofNat (bigEndian [byte, byte, byte, byte]), byte, [])
  write8 byte _ _ := (byte, [])
  write16 byte _ _ := (byte, [])
  write32 byte _ _ := (byte, [])
  reset byte := (byte, [])

/-- A card that bytes do not reach and words do, at an address that does not fault. -/
theorem run_card_not_alike :
    let s := Machine.run (step silent oneByteCard) (powerOn ⟨4096, by decide⟩ ())
      [.installNuBusCard 13 0x12, .reset]
    s.InPlace .slotAlias 0x00d00000 2 ∧ s.unconfiguredRamAccessFaults 0x00d00000 2 = false ∧
      (read8 silent oneByteCard s 0x00d00000).1 = 0xff ∧
      (read16 silent oneByteCard s 0x00d00000).1 = 0x1212 ∧
      ¬ (bus silent oneByteCard).Alike16 s 0x00d00000 := by
  intro s
  have hc : s.Current := run_current silent oneByteCard _ () _
  have hp : s.InPlace .slotAlias 0x00d00000 2 := by decide
  have ha : InAlias 0x00d00000 := ⟨by decide, by decide⟩
  have hov : s.overlay = false := by decide
  refine ⟨hp, by decide, ?_, ?_, ?_⟩
  · rw [read8_alias hc ha, hov]
    rfl
  · rw [read16_alias hc ha]
    decide
  rw [alike16_iff hc hp]
  intro h
  have hread := congrArg Prod.fst (h rfl).1
  exact absurd hread (by decide)

end Quadra700Machine

end CuteMac.Quadra700
