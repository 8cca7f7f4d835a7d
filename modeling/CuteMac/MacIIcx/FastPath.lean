/-
  The fast path of the IIcx and its bus decoder.

  * `Layout`: the installed memory, and one mirror of a part of it, by whole pages;
  * `memoryAt`, `writtenAt`: the byte of memory behind an address;
  * `Inv`: the page table is the one that the decoding makes;
  * `run_fast_path`: what can be accessed directly is what the decoder finds, and an
    access of some bytes of memory is one access for each byte.
-/
import CuteMac.MacIIcx.Memory

namespace CuteMac.MacIIcx

open Core NuBus PhysicalMemoryMap

/-! ## The installed memory by whole pages -/

/-- Memory from address 0, and above it a mirror of some of it. -/
structure Layout (memorySize : Nat) where
  direct : Nat
  mirrorEnd : Nat
  mirrored : Nat
  direct_le : direct ≤ memorySize
  mirror_le : direct ≤ mirrorEnd
  fits : mirrored + (mirrorEnd - direct) ≤ memorySize
  searched : mirrorEnd ≤ ramMapSearchEnd
  aligned : direct % 4096 = 0 ∧ mirrorEnd % 4096 = 0 ∧ mirrored % 4096 = 0

namespace Layout

variable {memorySize : Nat} (l : Layout memorySize)

def index (address : Nat) : Option Nat :=
  if address < l.direct then some address
  else if address < l.mirrorEnd then some (l.mirrored + (address - l.direct))
  else none

theorem index_lt {address i : Nat} (h : l.index address = some i) :
    i < memorySize ∧ address < ramMapSearchEnd := by
  have hd := l.direct_le
  have hm := l.mirror_le
  have hf := l.fits
  have hs := l.searched
  unfold index at h
  split_ifs at h with h1 h2
  · cases h
    omega
  · cases h
    omega

/-- A page is in the memory as a whole. -/
theorem index_page (address : Nat) :
    l.index address = (l.index (address / 4096 * 4096)).map (· + address % 4096) := by
  obtain ⟨h1, h2, h3⟩ := l.aligned
  have hm := l.mirror_le
  unfold index
  by_cases hd : address < l.direct
  · rw [if_pos hd, if_pos (by omega), Option.map_some]
    congr 1
    omega
  · rw [if_neg hd, if_neg (show ¬ address / 4096 * 4096 < l.direct by omega)]
    by_cases he : address < l.mirrorEnd
    · rw [if_pos he, if_pos (by omega), Option.map_some]
      congr 1
      omega
    · rw [if_neg he, if_neg (by omega)]
      rfl

theorem index_page_fits {n i : Nat} (h : l.index (n * 4096) = some i) : i + 4096 ≤ memorySize := by
  obtain ⟨h1, h2, h3⟩ := l.aligned
  have hd := l.direct_le
  have hm := l.mirror_le
  have hf := l.fits
  unfold index at h
  split_ifs at h with h1 h2
  · cases h
    omega
  · cases h
    omega

end Layout

namespace Banks

def mirrorSize (b : Banks) : Nat := if b.mirrorBankB then b.bankBSize else b.bankASize
def mirrorStart (b : Banks) : Nat := if b.mirrorBankB then b.bankASize else 0

/-- What the sizes of the banks have to do with the size of the memory. -/
structure Fit (b : Banks) (memorySize : Nat) : Prop where
  bankA : 0 < b.bankASize
  alone : b.noMirror = true → b.bankBSize = 0
  fits : b.mirrorStart + b.mirrorSize ≤ memorySize
  searched : memorySize + b.mirrorSize ≤ ramMapSearchEnd
  aligned : memorySize % 4096 = 0 ∧ b.mirrorSize % 4096 = 0 ∧ b.mirrorStart % 4096 = 0

end Banks

theorem banks_fit (installed : InstalledRam) :
    (banks (installed.val * 1024)).Fit (installed.val * 1024) := by
  have hall : ∀ kib ∈ ramSizes, 0 < (banks (kib * 1024)).bankASize ∧
      ((banks (kib * 1024)).noMirror = true → (banks (kib * 1024)).bankBSize = 0) ∧
      (banks (kib * 1024)).mirrorStart + (banks (kib * 1024)).mirrorSize ≤ kib * 1024 ∧
      kib * 1024 + (banks (kib * 1024)).mirrorSize ≤ ramMapSearchEnd ∧
      (kib * 1024) % 4096 = 0 ∧ (banks (kib * 1024)).mirrorSize % 4096 = 0 ∧
      (banks (kib * 1024)).mirrorStart % 4096 = 0 := by
    decide +kernel
  obtain ⟨h1, h2, h3, h4, h5⟩ := hall installed.val installed.property
  exact ⟨h1, h2, h3, h4, h5⟩

/-- Bank B is never found apart: the oversized windows come first. -/
theorem ramIndex_layout (installed : InstalledRam) (glueRamSize : UInt8) :
    ∃ l : Layout (installed.val * 1024),
      ∀ address, ramIndex (installed.val * 1024) glueRamSize address = l.index address := by
  have hfit := banks_fit installed
  generalize installed.val * 1024 = memorySize at hfit ⊢
  obtain ⟨h1, h2, h3⟩ := hfit.aligned
  have hfits := hfit.fits
  have hsearched := hfit.searched
  by_cases hwindow : !(banks memorySize).noMirror ∧ memorySize < bankBLocation glueRamSize
  · -- only the first MiB answers
    refine ⟨⟨min memorySize (mib 1), min memorySize (mib 1), 0, min_le_left _ _, le_rfl, by omega,
      by omega, ?_⟩, fun address => ?_⟩
    · have hmib : mib 1 = 256 * 4096 := rfl
      rw [hmib]
      omega
    · simp only [ramIndex, if_pos hwindow, Layout.index]
      split_ifs <;> rfl
  · have hapart : ¬ (0 < (banks memorySize).bankBSize ∧
        memorySize + (banks memorySize).bankASize ≤ bankBLocation glueRamSize) := by
      rintro ⟨hb, hloc⟩
      have hA := hfit.bankA
      cases hno : (banks memorySize).noMirror with
      | true => rw [hfit.alone hno] at hb; omega
      | false => exact hwindow ⟨by rw [hno]; rfl, by omega⟩
    cases hno : (banks memorySize).noMirror with
    | true =>
      rw [hno] at hwindow
      refine ⟨⟨memorySize, memorySize, 0, le_rfl, le_rfl, by omega, by omega, h1, h1, rfl⟩,
        fun address => ?_⟩
      simp only [ramIndex, hno, if_neg hwindow, Layout.index]
      by_cases hd : address < memorySize
      · rw [if_pos hd, if_pos hd]
      · rw [if_neg hd, if_neg hd, if_neg (by simp), if_neg (fun h => hapart ⟨h.1, h.2.1⟩),
          if_neg hd]
    | false =>
      rw [hno] at hwindow
      refine ⟨⟨memorySize, memorySize + (banks memorySize).mirrorSize,
        (banks memorySize).mirrorStart, le_rfl, by omega, by omega, hsearched,
        h1, by omega, h3⟩, fun address => ?_⟩
      simp only [ramIndex, hno, if_neg hwindow, Layout.index]
      by_cases hd : address < memorySize
      · rw [if_pos hd, if_pos hd]
      · rw [if_neg hd, if_neg hd]
        by_cases he : address < memorySize + (banks memorySize).mirrorSize
        · rw [if_pos he, if_pos ⟨rfl, he⟩]
          rfl
        · rw [if_neg he, if_neg (fun h => he h.2), if_neg (fun h => hapart ⟨h.1, h.2.1⟩)]

/-- Every address finds a byte of the installed memory or none, and a page as a whole. -/
theorem ramIndex_page {δ : Type} (s : MacIIcxMachine δ) (address : UInt32) :
    (∀ index, s.ramIndex address = some index → index < s.memorySize) ∧
    ((∀ a : UInt32, a.toNat / 4096 = address.toNat / 4096 → s.ramIndex a = none) ∨
      ∃ start, start + 4096 ≤ s.memorySize ∧
        ∀ a : UInt32, a.toNat / 4096 = address.toNat / 4096 →
          s.ramIndex a = some (start + a.toNat % 4096)) := by
  obtain ⟨l, hl⟩ := ramIndex_layout s.installed s.glueRamSize
  have hindex : ∀ a : UInt32, s.ramIndex a = l.index a.toNat := fun a => hl a.toNat
  refine ⟨fun index h => ?_, ?_⟩
  · rw [hindex] at h
    exact (l.index_lt h).1
  · -- the page is found where its first address is
    cases hstart : l.index (address.toNat / 4096 * 4096) with
    | none =>
      left
      intro a ha
      rw [hindex, l.index_page, ha, hstart, Option.map_none]
    | some start =>
      refine Or.inr ⟨start, l.index_page_fits hstart, ?_⟩
      intro a ha
      rw [hindex, l.index_page, ha, hstart, Option.map_some]

/-! ## The decoding -/

/-- The byte of memory that a read of an address finds. -/
def memoryByte (memorySize : Nat) (glueRamSize : UInt8) (overlay : Bool) (address : UInt32) :
    Option (Region × Nat) :=
  if overlay ∧ address.toNat < romSize then some (.rom, address.toNat)
  else
    match ramIndex memorySize glueRamSize address.toNat with
    | some index => some (.ram, index)
    | none =>
      if address &&& 0xf0000000 = romBase then some (.rom, (address - romBase).toNat % romSize)
      else none

/-- The byte of memory that a write to an address changes. -/
def writtenByte (memorySize : Nat) (glueRamSize : UInt8) (overlay : Bool) (address : UInt32) :
    Option Nat :=
  if overlay ∧ address.toNat < romSize then none
  else ramIndex memorySize glueRamSize address.toNat

/-- The window of the ROM, as a range. -/
theorem romWindow_iff (address : UInt32) :
    address &&& 0xf0000000 = romBase ↔ 0x40000000 ≤ address.toNat ∧ address.toNat < 0x50000000 := by
  rw [← UInt32.toNat_inj, toNat_and_window]
  have hbase : romBase.toNat = 0x40000000 := rfl
  omega

/-- The addresses of memory that can be found: below the search end, or in the window. -/
theorem memoryByte_range {installed : InstalledRam} {glueRamSize : UInt8} {overlay : Bool}
    {address : UInt32}
    (h : (memoryByte (installed.val * 1024) glueRamSize overlay address).isSome = true) :
    address.toNat < ramMapSearchEnd ∨ 0x40000000 ≤ address.toNat ∧ address.toNat < 0x50000000 := by
  obtain ⟨l, hl⟩ := ramIndex_layout installed glueRamSize
  unfold memoryByte at h
  rw [hl] at h
  by_cases hrom : overlay ∧ address.toNat < romSize
  · left
    unfold romSize at hrom
    unfold ramMapSearchEnd
    omega
  · rw [if_neg hrom] at h
    cases hi : l.index address.toNat with
    | some i => exact Or.inl (l.index_lt hi).2
    | none =>
      by_cases hw : address &&& 0xf0000000 = romBase
      · exact Or.inr ((romWindow_iff address).1 hw)
      · rw [hi, if_neg hw] at h
        cases h

open MacIIcxMachine in
/-- The page of the table that the decoding makes. -/
theorem decodedPages_apply (memorySize : Nat) (glueRamSize : UInt8) (overlay : Bool) (n : Nat) :
    decodedPages memorySize glueRamSize overlay n =
      if overlay ∧ n < 64 then Page.readOnly (.rom, n * 4096)
      else if 0x40000 ≤ n ∧ n < 0x50000 then
        Page.readOnly (.rom, (n - 0x40000) * 4096 % romSize)
      else if n < 49152 then
        match ramIndex memorySize glueRamSize (n * 4096) with
        | some index => if index + 4096 ≤ memorySize then Page.readWrite (.ram, index) else {}
        | none => {}
      else {} := by
  have hram : ∀ m : PhysicalMemoryMap Region, ∀ page, m.mapPages 0 (ramMapSearchEnd / pageSize) page n
      = if n < 49152 then (page n).getD (m n) else m n := by
    intro m page
    rw [pageFor_mapPages m 0 _ page rfl (by decide)]
    simp [ramMapSearchEnd, pageSize]
  have hover : ∀ m : PhysicalMemoryMap Region, ∀ page, m.mapPages 0 (romSize / pageSize) page n
      = if n < 64 then (page n).getD (m n) else m n := by
    intro m page
    rw [pageFor_mapPages m 0 _ page rfl (by decide)]
    simp [romSize, pageSize]
  have hwindow : ∀ m : PhysicalMemoryMap Region,
      m.mapReadOnlyMirrored romBase 0x10000000 (.rom, 0) romSize n
        = if 0x40000 ≤ n ∧ n < 0x50000 then
            Page.readOnly (.rom, (n - 0x40000) * 4096 % romSize)
          else m n := by
    intro m
    rw [pageFor_mapReadOnlyMirrored m (.rom, 0) rfl rfl (by decide) rfl (by decide)]
    simp only [Nat.zero_add]
    rfl
  have hrom : ∀ m : PhysicalMemoryMap Region, m n = {} →
      (m.mapPages 0 (ramMapSearchEnd / pageSize) (fun i =>
          match ramIndex memorySize glueRamSize (i * pageSize) with
          | some index =>
            if index + pageSize ≤ memorySize then some (.readWrite (.ram, index)) else none
          | none => none)).mapReadOnlyMirrored romBase 0x10000000 (.rom, 0) romSize n
        = if 0x40000 ≤ n ∧ n < 0x50000 then
            Page.readOnly (.rom, (n - 0x40000) * 4096 % romSize)
          else if n < 49152 then
            match ramIndex memorySize glueRamSize (n * 4096) with
            | some index => if index + 4096 ≤ memorySize then Page.readWrite (.ram, index) else {}
            | none => {}
          else {} := by
    intro m hm
    rw [hwindow, hram, hm]
    unfold pageSize
    cases ramIndex memorySize glueRamSize (n * 4096) with
    | none => rfl
    | some index =>
      dsimp only
      by_cases hfit : index + 4096 ≤ memorySize
      · rw [if_pos hfit, if_pos hfit]
        rfl
      · rw [if_neg hfit, if_neg hfit]
        rfl
  unfold decodedPages
  cases overlay with
  | false =>
    rw [if_neg (show ¬ (false = true ∧ n < 64) from fun h => Bool.false_ne_true h.1)]
    exact hrom PhysicalMemoryMap.clear rfl
  | true =>
    rw [if_pos (rfl : true = true), hover]
    by_cases hn : n < 64
    · rw [if_pos hn, if_pos ⟨rfl, hn⟩]
      rfl
    · rw [if_neg hn, if_neg (show ¬ (true = true ∧ n < 64) from fun h => hn h.2)]
      exact hrom PhysicalMemoryMap.clear rfl

/-! ## Direct accesses -/

section Direct
variable {installed : InstalledRam} {glueRamSize : UInt8} {overlay : Bool} {address : UInt32}

open MacIIcxMachine

/-- A byte that can be read directly is the one that the decoding finds. -/
theorem direct_read {p : Region × Nat}
    (h : ((decodedPages (installed.val * 1024) glueRamSize overlay).pageFor address).read = some p) :
    memoryByte (installed.val * 1024) glueRamSize overlay address
      = some (p.1, p.2 + pageOffset address) := by
  have hlt := address.toNat_lt
  obtain ⟨l, hl⟩ := ramIndex_layout installed glueRamSize
  have hrs : romSize = 262144 := rfl
  unfold PhysicalMemoryMap.pageFor at h
  rw [decodedPages_apply] at h
  unfold pageSize at h
  unfold memoryByte pageOffset pageSize
  by_cases hover : overlay ∧ address.toNat / 4096 < 64
  · rw [if_pos hover] at h
    rw [if_pos ⟨hover.1, by omega⟩]
    cases h
    dsimp only
    congr 2
    omega
  · rw [if_neg hover] at h
    rw [if_neg (fun h => hover ⟨h.1, by omega⟩)]
    by_cases hwin : 0x40000 ≤ address.toNat / 4096 ∧ address.toNat / 4096 < 0x50000
    · rw [if_pos hwin] at h
      have hbase : romBase.toNat = 0x40000000 := rfl
      have hw : address &&& 0xf0000000 = romBase := (romWindow_iff address).2 (by omega)
      have hnone : l.index address.toNat = none := by
        by_contra hsome
        obtain ⟨i, hi⟩ := Option.ne_none_iff_exists'.1 hsome
        have hsearch := (l.index_lt hi).2
        unfold ramMapSearchEnd at hsearch
        omega
      have hsub : (address - romBase).toNat = address.toNat - 0x40000000 := by
        rw [UInt32.toNat_sub_of_le _ _ (by rw [UInt32.le_iff_toNat_le]; omega), hbase]
      rw [hl, hnone]
      dsimp only
      rw [if_pos hw, hsub]
      cases h
      refine congrArg (fun k => some (Region.rom, k)) ?_
      rw [hrs]
      omega
    · rw [if_neg hwin] at h
      by_cases hs : address.toNat / 4096 < 49152
      · rw [if_pos hs, hl] at h
        rw [hl, l.index_page address.toNat]
        cases hi : l.index (address.toNat / 4096 * 4096) with
        | none =>
          rw [hi] at h
          cases h
        | some i =>
          rw [hi] at h
          dsimp only at h
          rw [if_pos (l.index_page_fits hi)] at h
          cases h
          rfl
      · rw [if_neg hs] at h
        cases h

/-- A byte that can be written directly is the one that the decoding writes. -/
theorem direct_write {p : Region × Nat}
    (h : ((decodedPages (installed.val * 1024) glueRamSize overlay).pageFor address).write = some p) :
    p.1 = .ram ∧ writtenByte (installed.val * 1024) glueRamSize overlay address
      = some (p.2 + pageOffset address) := by
  obtain ⟨l, hl⟩ := ramIndex_layout installed glueRamSize
  have hrs : romSize = 262144 := rfl
  unfold PhysicalMemoryMap.pageFor at h
  rw [decodedPages_apply] at h
  unfold pageSize at h
  unfold writtenByte pageOffset pageSize
  by_cases hover : overlay ∧ address.toNat / 4096 < 64
  · rw [if_pos hover] at h
    cases h
  · rw [if_neg hover] at h
    rw [if_neg (fun h => hover ⟨h.1, by omega⟩)]
    by_cases hwin : 0x40000 ≤ address.toNat / 4096 ∧ address.toNat / 4096 < 0x50000
    · rw [if_pos hwin] at h
      cases h
    · rw [if_neg hwin] at h
      by_cases hs : address.toNat / 4096 < 49152
      · rw [if_pos hs, hl] at h
        rw [hl, l.index_page address.toNat]
        cases hi : l.index (address.toNat / 4096 * 4096) with
        | none =>
          rw [hi] at h
          cases h
        | some i =>
          rw [hi] at h
          dsimp only at h
          rw [if_pos (l.index_page_fits hi)] at h
          cases h
          exact ⟨rfl, rfl⟩
      · rw [if_neg hs] at h
        cases h

end Direct

namespace MacIIcxMachine

variable {δ : Type} {dev : Devices δ} {s : MacIIcxMachine δ} {address : UInt32}

/-! ## The page table is current -/

/-- The page table is empty, or the one that the decoding makes. -/
def Current (s : MacIIcxMachine δ) : Prop :=
  s.physicalMemoryMap = PhysicalMemoryMap.clear ∨
    s.physicalMemoryMap = decodedPages s.memorySize s.glueRamSize s.overlay

theorem rebuild_current (s : MacIIcxMachine δ) : s.rebuildPhysicalMemoryMap.Current := Or.inr rfl

theorem portChange_current (h : s.Current) (c : PortChange) : (s.portChange c).Current := by
  cases c with
  | via1 value =>
    unfold portChange
    dsimp only
    split_ifs
    · exact rebuild_current _
    · exact h
  | via2 value =>
    unfold portChange
    dsimp only
    split_ifs
    · exact rebuild_current _
    · exact h

theorem settle_current (h : s.Current) (turn : δ × List PortChange) : (s.settle turn).Current := by
  have hstart : Current { s with devices := turn.1 } := h
  exact Machine.run_inv (I := Current) (fun _ c h => portChange_current h c) hstart turn.2

theorem decodedRead8_current (h : s.Current) : (decodedRead8 dev s address).2.Current := by
  unfold decodedRead8
  cases s.ramIndex address with
  | some index =>
    dsimp only
    split_ifs <;> exact h
  | none =>
    dsimp only
    split_ifs
    · exact h
    · exact h
    · exact settle_current h _
    · exact settle_current h _
    · exact h

theorem read8_current (h : s.Current) (address : UInt32) : (read8 dev s address).2.Current := by
  unfold read8
  split
  · exact h
  · exact decodedRead8_current h

theorem read16_current (h : s.Current) (address : UInt32) : (read16 dev s address).2.Current := by
  unfold read16
  split
  · exact h
  · split_ifs
    · exact settle_current h _
    · exact settle_current h _
    · exact settle_current h _
    · exact read8_current (read8_current h _) _

theorem read32_current (h : s.Current) (address : UInt32) : (read32 dev s address).2.Current := by
  unfold read32
  split
  · exact h
  · split_ifs
    · exact settle_current h _
    · exact read16_current (read16_current h _) _

theorem decodedWrite8_current (h : s.Current) (value : UInt8) :
    (decodedWrite8 dev s address value).Current := by
  unfold decodedWrite8
  dsimp only
  split
  · split_ifs
    · exact settle_current h _
    · exact settle_current h _
    · exact h
    · exact h
  · split_ifs
    · exact settle_current h _
    · exact settle_current h _
    · exact h

theorem write8_current (h : s.Current) (address : UInt32) (value : UInt8) :
    (write8 dev s address value).Current := by
  unfold write8
  split
  · exact h
  · exact decodedWrite8_current h value

theorem write16_current (h : s.Current) (address : UInt32) (value : UInt16) :
    (write16 dev s address value).Current := by
  unfold write16
  split
  · exact h
  · split_ifs
    · exact settle_current h _
    · exact settle_current h _
    · exact settle_current h _
    · exact write8_current (write8_current h _ _) _ _

theorem write32_current (h : s.Current) (address value : UInt32) :
    (write32 dev s address value).Current := by
  unfold write32
  split
  · exact h
  · split_ifs
    · exact settle_current h _
    · exact write16_current (write16_current h _ _) _ _

theorem step_current (h : s.Current) (input : Input δ) : (step dev s input).Current := by
  cases input with
  | read8 address => exact read8_current h address
  | read16 address => exact read16_current h address
  | read32 address => exact read32_current h address
  | write8 address value => exact write8_current h address value
  | write16 address value => exact write16_current h address value
  | write32 address value => exact write32_current h address value
  | device turn => exact settle_current h turn
  | loadRom rom => exact h
  | reset => exact rebuild_current _

theorem run_current (dev : Devices δ) (installed : InstalledRam) (devices : δ)
    (inputs : List (Input δ)) :
    (Machine.run (step dev) (powerOn installed devices) inputs).Current := by
  have hstart : (powerOn installed devices).Current := Or.inl rfl
  exact Machine.run_inv (I := Current) (fun _ input h => step_current h input) hstart inputs

/-! ## Accesses of memory -/

def memoryAt (s : MacIIcxMachine δ) (address : UInt32) : Option (Region × Nat) :=
  memoryByte s.memorySize s.glueRamSize s.overlay address

def writtenAt (s : MacIIcxMachine δ) (address : UInt32) : Option Nat :=
  writtenByte s.memorySize s.glueRamSize s.overlay address

/-- No device answers where there is memory. -/
theorem not_device (h : (s.memoryAt address).isSome = true) :
    ¬ isIo address ∧ ¬ isScsiDma address ∧ ¬ s.isAliasedNuBus address := by
  have hrange := memoryByte_range h
  have hsearch : ramMapSearchEnd = 0x0c000000 := rfl
  have hio : ¬ isIo address := by
    intro hio
    have hle := masked_le (address &&& ~~~ioMirrorMask) 0xfff00000
    have hle' := masked_le address (~~~ioMirrorMask)
    rw [hio] at hle
    have hbase : ioBase.toNat = 0x50000000 := rfl
    omega
  refine ⟨hio, fun hdma => hio hdma.1, ?_⟩
  rintro ⟨hslot, hnone⟩
  have hlow : address.toNat < 0x40000 ∨ 0x40000000 ≤ address.toNat := by
    unfold memoryAt memoryByte at h
    rw [show MacIIcx.ramIndex s.memorySize s.glueRamSize address.toNat = none from hnone] at h
    by_cases hrom : s.overlay ∧ address.toNat < romSize
    · exact Or.inl hrom.2
    · rw [if_neg hrom] at h
      by_cases hw : address &&& 0xf0000000 = romBase
      · exact Or.inr ((romWindow_iff address).1 hw).1
      · rw [if_neg hw] at h
        cases h
  rw [standardSlot_of_lt (by omega) (by omega)] at hslot
  exact absurd hslot (by decide)

theorem decodedRead8_of_memory {p : Region × Nat} (h : s.memoryAt address = some p) :
    decodedRead8 dev s address = (s.bytes p.1 p.2, s) := by
  unfold memoryAt memoryByte at h
  unfold decodedRead8 ramIndex
  by_cases hrom : s.overlay ∧ address.toNat < romSize
  · rw [if_pos hrom] at h ⊢
    cases h
    rfl
  · rw [if_neg hrom] at h ⊢
    cases hi : MacIIcx.ramIndex s.memorySize s.glueRamSize address.toNat with
    | some index =>
      rw [hi] at h
      cases h
      rfl
    | none =>
      rw [hi] at h
      dsimp only at h ⊢
      by_cases hw : address &&& 0xf0000000 = romBase
      · rw [if_pos hw] at h ⊢
        cases h
        rfl
      · rw [if_neg hw] at h
        cases h

theorem decodedWrite8_of_memory (h : (s.memoryAt address).isSome = true) (value : UInt8) :
    decodedWrite8 dev s address value =
      match s.writtenAt address with
      | some index => { s with bytes := writeBytes s.bytes .ram index [value] }
      | none => s := by
  obtain ⟨hio, -, hnubus⟩ := not_device h
  unfold decodedWrite8 writtenAt writtenByte ramIndex
  rw [if_neg hio, if_neg hnubus]
  dsimp only
  by_cases hrom : s.overlay ∧ address.toNat < romSize
  · rw [if_pos hrom]
    cases MacIIcx.ramIndex s.memorySize s.glueRamSize address.toNat with
    | some index => exact if_pos hrom
    | none => rfl
  · rw [if_neg hrom]
    cases MacIIcx.ramIndex s.memorySize s.glueRamSize address.toNat with
    | some index => exact if_neg hrom
    | none => rfl

theorem tryRead8_memory (hc : s.Current) {value : UInt8}
    (h : s.physicalMemoryMap.tryRead8 s.bytes address = some value) :
    ∃ p, s.memoryAt address = some p ∧ s.bytes p.1 p.2 = value := by
  rw [tryRead8_eq] at h
  obtain ⟨p, hp, rfl⟩ := Option.map_eq_some_iff.1 h
  rcases hc with hc | hc
  · rw [hc] at hp
    cases hp
  · rw [hc] at hp
    exact ⟨_, direct_read hp, rfl⟩

theorem tryWrite8_memory (hc : s.Current) {value : UInt8} {bytes : Bytes Region}
    (h : s.physicalMemoryMap.tryWrite8 s.bytes address value = some bytes) :
    ∃ index, s.writtenAt address = some index ∧
      bytes = writeBytes s.bytes .ram index [value] := by
  rw [tryWrite8_eq] at h
  obtain ⟨p, hp, rfl⟩ := Option.map_eq_some_iff.1 h
  rcases hc with hc | hc
  · rw [hc] at hp
    cases hp
  · rw [hc] at hp
    obtain ⟨hram, hat⟩ := direct_write hp
    exact ⟨_, hat, by rw [hram]⟩

theorem memoryAt_of_writtenAt {index : Nat} (h : s.writtenAt address = some index) :
    s.memoryAt address = some (.ram, index) := by
  unfold writtenAt writtenByte at h
  unfold memoryAt memoryByte
  by_cases hrom : s.overlay ∧ address.toNat < romSize
  · rw [if_pos hrom] at h
    cases h
  · rw [if_neg hrom] at h ⊢
    rw [h]

/-- A byte of memory is read as the decoder would, directly or not. -/
theorem read8_of_memory (hc : s.Current) {p : Region × Nat} (h : s.memoryAt address = some p) :
    read8 dev s address = (s.bytes p.1 p.2, s) := by
  unfold read8
  cases hd : s.physicalMemoryMap.tryRead8 s.bytes address with
  | none => exact decodedRead8_of_memory h
  | some value =>
    obtain ⟨q, hq, hv⟩ := tryRead8_memory hc hd
    rw [h] at hq
    cases hq
    rw [hv]

/-- A byte of memory is written as the decoder would, directly or not. -/
theorem write8_of_memory (hc : s.Current) (h : (s.memoryAt address).isSome = true) (value : UInt8) :
    write8 dev s address value =
      match s.writtenAt address with
      | some index => { s with bytes := writeBytes s.bytes .ram index [value] }
      | none => s := by
  unfold write8
  cases hd : s.physicalMemoryMap.tryWrite8 s.bytes address value with
  | none => exact decodedWrite8_of_memory h value
  | some bytes =>
    obtain ⟨index, hi, hb⟩ := tryWrite8_memory hc hd
    rw [hi, hb]

/-! ## Accesses of some bytes -/

/-- There is memory behind each of some addresses. -/
def MemoryAt (s : MacIIcxMachine δ) (address : UInt32) (size : Nat) : Prop :=
  ∀ i < size, (s.memoryAt (address + UInt32.ofNat i)).isSome = true

instance (s : MacIIcxMachine δ) (address : UInt32) (size : Nat) :
    Decidable (s.MemoryAt address size) := by
  unfold MemoryAt
  infer_instance

/-- The bytes read one by one. -/
def byteReads (dev : Devices δ) (s : MacIIcxMachine δ) (address : UInt32) (size : Nat) :
    List UInt8 :=
  (List.range size).map fun i => (read8 dev s (address + UInt32.ofNat i)).1

/-- The bytes written one by one. -/
def byteWrites (dev : Devices δ) (s : MacIIcxMachine δ) (address : UInt32) :
    List UInt8 → MacIIcxMachine δ
  | [] => s
  | value :: values => byteWrites dev (write8 dev s address value) (address + 1) values

theorem byteReads_of_tryRead {size : Nat} {values : List UInt8}
    (h : s.physicalMemoryMap.tryRead s.bytes size address = some values) :
    byteReads dev s address size = values := by
  have hlen : values.length = size := by
    unfold tryRead at h
    split_ifs at h
    obtain ⟨p, -, rfl⟩ := Option.map_eq_some_iff.1 h
    rw [List.length_map, List.length_range]
  refine List.ext_getElem (by rw [byteReads, List.length_map, List.length_range, hlen]) ?_
  intro i h1 h2
  have hi := tryRead_bytes h (hlen ▸ h2)
  rw [List.getElem?_eq_getElem h2] at hi
  simp only [byteReads, List.getElem_map, List.getElem_range, read8, hi]

theorem byteWrites_of_tryWrite (values : List UInt8) :
    ∀ {s : MacIIcxMachine δ} {address : UInt32} {value : UInt8} {bytes : Bytes Region},
      s.physicalMemoryMap.tryWrite s.bytes address (value :: values) = some bytes →
      byteWrites dev s address (value :: values) = { s with bytes := bytes } := by
  induction values with
  | nil =>
    intro s address value bytes h
    have h8 : s.physicalMemoryMap.tryWrite8 s.bytes address value = some bytes := h
    simp only [byteWrites, write8, h8]
  | cons value' values ih =>
    intro s address value bytes h
    obtain ⟨bytes₁, h1, h2⟩ := tryWrite_cons h
    have hfirst : write8 dev s address value = { s with bytes := bytes₁ } := by
      simp only [write8, h1]
    rw [byteWrites, hfirst]
    exact ih (s := { s with bytes := bytes₁ }) h2

theorem byteReads_two (dev : Devices δ) (s : MacIIcxMachine δ) (address : UInt32) :
    byteReads dev s address 2 = [(read8 dev s address).1, (read8 dev s (address + 1)).1] := by
  show [(read8 dev s (address + 0)).1, _] = _
  rw [UInt32.add_zero]
  rfl

theorem byteReads_four (dev : Devices δ) (s : MacIIcxMachine δ) (address : UInt32) :
    byteReads dev s address 4 = byteReads dev s address 2 ++ byteReads dev s (address + 2) 2 := by
  rw [byteReads_two, byteReads_two, UInt32.add_assoc]
  show [(read8 dev s (address + 0)).1, _, _, _] = _
  rw [UInt32.add_zero]
  rfl

theorem MemoryAt.halves (h : s.MemoryAt address 4) :
    s.MemoryAt address 2 ∧ s.MemoryAt (address + 2) 2 := by
  refine ⟨fun i hi => h i (by omega), fun i hi => ?_⟩
  have hadd : UInt32.ofNat (2 + i) = 2 + UInt32.ofNat i := UInt32.ofNat_add 2 i
  have h2 := h (2 + i) (by omega)
  rwa [hadd, ← UInt32.add_assoc] at h2

theorem MemoryAt.first {size : Nat} (h : s.MemoryAt address (size + 1)) :
    (s.memoryAt address).isSome = true := by
  have h0 := h 0 (Nat.succ_pos size)
  rwa [show UInt32.ofNat 0 = 0 from rfl, UInt32.add_zero] at h0

/-- A word of memory is read as its bytes are. -/
theorem read16_of_memory (hc : s.Current) (hm : s.MemoryAt address 2) :
    read16 dev s address = (UInt16.ofNat (bigEndian (byteReads dev s address 2)), s) := by
  unfold read16
  cases hd : s.physicalMemoryMap.tryRead16 s.bytes address with
  | some value =>
    unfold tryRead16 at hd
    obtain ⟨values, hv, rfl⟩ := Option.map_eq_some_iff.1 hd
    rw [byteReads_of_tryRead hv]
  | none =>
    obtain ⟨hio, hdma, hnubus⟩ := not_device hm.first
    obtain ⟨p, hp⟩ := Option.isSome_iff_exists.1 hm.first
    obtain ⟨q, hq⟩ := Option.isSome_iff_exists.1 (hm 1 (by omega))
    have hhigh : read8 dev s address = (s.bytes p.1 p.2, s) := read8_of_memory hc hp
    have hlow : read8 dev s (address + 1) = (s.bytes q.1 q.2, s) := read8_of_memory hc hq
    dsimp only
    rw [if_neg hnubus, if_neg hdma, if_neg hio, byteReads_two, hhigh]
    dsimp only
    rw [hlow, word_eq]

/-- A long word of memory is read as its bytes are. -/
theorem read32_of_memory (hc : s.Current) (hm : s.MemoryAt address 4) :
    read32 dev s address = (UInt32.ofNat (bigEndian (byteReads dev s address 4)), s) := by
  unfold read32
  cases hd : s.physicalMemoryMap.tryRead32 s.bytes address with
  | some value =>
    unfold tryRead32 at hd
    obtain ⟨values, hv, rfl⟩ := Option.map_eq_some_iff.1 hd
    rw [byteReads_of_tryRead hv]
  | none =>
    obtain ⟨-, -, hnubus⟩ := not_device hm.first
    dsimp only
    rw [if_neg hnubus, read16_of_memory hc hm.halves.1]
    dsimp only
    rw [read16_of_memory hc hm.halves.2, byteReads_four, long_eq rfl rfl]

/-! ## Writes keep what is where -/

theorem write8_memory (dev : Devices δ) (hc : s.Current) (h : (s.memoryAt address).isSome = true) (value : UInt8) :
    ∃ bytes, write8 dev s address value = { s with bytes := bytes } := by
  rw [write8_of_memory hc h value]
  cases s.writtenAt address with
  | some index => exact ⟨_, rfl⟩
  | none => exact ⟨s.bytes, rfl⟩

/-- A word of memory is written as its bytes are. -/
theorem write16_of_memory (hm : s.MemoryAt address 2) (value : UInt16) :
    write16 dev s address value = byteWrites dev s address (bytesOf value.toNat 2) := by
  unfold write16
  cases hd : s.physicalMemoryMap.tryWrite16 s.bytes address value with
  | some bytes =>
    unfold tryWrite16 at hd
    rw [bytesOf_word] at hd ⊢
    rw [byteWrites_of_tryWrite _ hd]
  | none =>
    obtain ⟨hio, hdma, hnubus⟩ := not_device hm.first
    dsimp only
    rw [if_neg hdma, if_neg hio, if_neg hnubus, bytesOf_word]
    rfl

theorem byteWrites_append (xs ys : List UInt8) : ∀ (s : MacIIcxMachine δ) (address : UInt32),
    byteWrites dev s address (xs ++ ys)
      = byteWrites dev (byteWrites dev s address xs) (address + UInt32.ofNat xs.length) ys := by
  induction xs with
  | nil =>
    intro s address
    show _ = byteWrites dev s (address + 0) ys
    rw [UInt32.add_zero]
    rfl
  | cons x xs ih =>
    intro s address
    have hadd : address + 1 + UInt32.ofNat xs.length = address + UInt32.ofNat (xs.length + 1) := by
      rw [UInt32.ofNat_add, UInt32.add_assoc, UInt32.add_comm 1]
      rfl
    rw [List.cons_append, byteWrites, ih, hadd]
    rfl

theorem MemoryAt.of_bytes {size : Nat} {bytes : Bytes Region} (h : s.MemoryAt address size) :
    MemoryAt { s with bytes := bytes } address size := h

/-- The bytes of a word of memory change bytes only. -/
theorem write16_bytes (dev : Devices δ) (hc : s.Current) (hm : s.MemoryAt address 2) (value : UInt16) :
    ∃ bytes, write16 dev s address value = { s with bytes := bytes } := by
  rw [write16_of_memory hm, bytesOf_word]
  obtain ⟨bytes, hb⟩ := write8_memory dev hc hm.first (value >>> 8).toUInt8
  rw [byteWrites, hb]
  exact write8_memory (s := { s with bytes := bytes }) dev hc (hm 1 (by omega)) _

/-- A long word of memory is written as its bytes are. -/
theorem write32_of_memory (hc : s.Current) (hm : s.MemoryAt address 4) (value : UInt32) :
    write32 dev s address value = byteWrites dev s address (bytesOf value.toNat 4) := by
  unfold write32
  cases hd : s.physicalMemoryMap.tryWrite32 s.bytes address value with
  | some bytes =>
    unfold tryWrite32 at hd
    rw [bytesOf_long, bytesOf_word] at hd ⊢
    rw [List.cons_append] at hd ⊢
    rw [byteWrites_of_tryWrite _ hd]
  | none =>
    obtain ⟨-, -, hnubus⟩ := not_device hm.first
    obtain ⟨bytes, hb⟩ := write16_bytes dev hc hm.halves.1 (value >>> 16).toUInt16
    dsimp only
    rw [if_neg hnubus, bytesOf_long, byteWrites_append, ← write16_of_memory hm.halves.1, hb]
    exact write16_of_memory hm.halves.2.of_bytes _

/-- In every state that the machine gets to: a direct access is the one that the decoder makes,
    and an access of some bytes of memory is an access of each of them. -/
theorem run_fast_path (dev : Devices δ) (installed : InstalledRam) (devices : δ)
    (inputs : List (Input δ)) (address : UInt32) :
    let s := Machine.run (step dev) (powerOn installed devices) inputs
    (∀ value, s.physicalMemoryMap.tryRead8 s.bytes address = some value →
      (s.memoryAt address).map (fun p => s.bytes p.1 p.2) = some value ∧
      decodedRead8 dev s address = (value, s)) ∧
    (∀ value bytes, s.physicalMemoryMap.tryWrite8 s.bytes address value = some bytes →
      (s.writtenAt address).map (fun i => writeBytes s.bytes .ram i [value]) = some bytes ∧
      decodedWrite8 dev s address value = { s with bytes := bytes }) ∧
    (s.MemoryAt address 2 →
      read16 dev s address = (UInt16.ofNat (bigEndian (byteReads dev s address 2)), s) ∧
      ∀ value, write16 dev s address value = byteWrites dev s address (bytesOf value.toNat 2)) ∧
    (s.MemoryAt address 4 →
      read32 dev s address = (UInt32.ofNat (bigEndian (byteReads dev s address 4)), s) ∧
      ∀ value, write32 dev s address value = byteWrites dev s address (bytesOf value.toNat 4)) := by
  intro s
  have hc : s.Current := run_current dev installed devices inputs
  refine ⟨fun value h => ?_, fun value bytes h => ?_, fun hm => ?_, fun hm => ?_⟩
  · obtain ⟨p, hp, rfl⟩ := tryRead8_memory hc h
    exact ⟨by rw [hp]; rfl, decodedRead8_of_memory hp⟩
  · obtain ⟨index, hi, rfl⟩ := tryWrite8_memory hc h
    have hm : (s.memoryAt address).isSome = true := by rw [memoryAt_of_writtenAt hi]; rfl
    refine ⟨by rw [hi]; rfl, ?_⟩
    rw [decodedWrite8_of_memory hm, hi]
  · exact ⟨read16_of_memory hc hm, write16_of_memory hm⟩
  · exact ⟨read32_of_memory hc hm, write32_of_memory hc hm⟩

/-- Devices that answer nothing. -/
def silent : Devices Unit where
  readIo8 _ _ := (0xff, (), [])
  writeIo8 _ _ _ := ((), [])
  readPseudoDma16 _ := (0xffff, (), [])
  writePseudoDma16 _ _ := ((), [])
  readNuBus8 _ _ := (0xff, (), [])
  readNuBus16 _ _ := (0xffff, (), [])
  readNuBus32 _ _ := (0xffffffff, (), [])
  writeNuBus8 _ _ _ := ((), [])
  writeNuBus16 _ _ _ := ((), [])
  writeNuBus32 _ _ _ := ((), [])
  reset _ := ((), [])

/-- After a reset: from the last byte of the overlay to the first of the memory past it. -/
theorem run_fast_path_overlay :
    let s := Machine.run (step silent) (powerOn ⟨1024, by decide⟩ ()) [.reset]
    s.memoryAt 0x3ffff = some (.rom, 0x3ffff) ∧ s.memoryAt 0x40000 = some (.ram, 0x40000) ∧
      read16 silent s 0x3ffff = (UInt16.ofNat (bigEndian (byteReads silent s 0x3ffff 2)), s) := by
  have hm : (Machine.run (step silent) (powerOn ⟨1024, by decide⟩ ()) [.reset]).MemoryAt 0x3ffff 2 := by
    decide
  exact ⟨by decide, by decide,
    ((run_fast_path silent ⟨1024, by decide⟩ () [.reset] 0x3ffff).2.2.1 hm).1⟩

end MacIIcxMachine

end CuteMac.MacIIcx
