/-
  The directories of the table of directly accessible pages, and what a sequence
  of its operations leaves at an address.

  * `PageDirectory`, `tryRead8` … `tryWrite32`, `mapReadOnlyMirrored`: the table
    as it is kept, with directories that are made when they are needed;
  * `Represents`: a table of directories does what a `PhysicalMemoryMap` does;
  * `Target`, `Op.target`: the byte that a mapping puts behind an address, on the
    whole address space;
  * `LastMapped`: the last operation that covers an address maps it, and the
    table is not cleared after it;
  * `run_flat`: after any operations the table is that flat map.

  The loop of a mirror ends, and its offset does not wrap.  The address does where
  the window reaches beyond the address space, and goes on from 0.
-/
import CuteMac.Core.PhysicalMemoryMap
import Mathlib.Order.Nat

namespace CuteMac.Core

variable {ρ : Type}

def pageShift : UInt32 := 12
def pageMask : UInt32 := 0xfff
def directoryShift : UInt32 := 22
def directoryPageMask : UInt32 := 0x3ff
def directoryCount : Nat := 1024
def entriesPerDirectory : Nat := 1024

/-- The directories, of which most are missing, and the page that stands for those of a missing
    directory. -/
structure PageDirectory (ρ : Type) where
  directories : Fin directoryCount → Option (Fin entriesPerDirectory → Page ρ) := fun _ => none
  unmappedPage : Page ρ := {}

theorem toNat_directoryIndex (address : UInt32) :
    (address >>> directoryShift).toNat = address.toNat / 4096 / 1024 := by
  rw [UInt32.toNat_shiftRight, show directoryShift.toNat % 32 = 22 from rfl,
    Nat.shiftRight_eq_div_pow, Nat.div_div_eq_div_mul]

theorem toNat_entryIndex (address : UInt32) :
    ((address >>> pageShift) &&& directoryPageMask).toNat = address.toNat / 4096 % 1024 := by
  rw [UInt32.toNat_and, UInt32.toNat_shiftRight, show pageShift.toNat % 32 = 12 from rfl,
    Nat.shiftRight_eq_div_pow, show directoryPageMask.toNat = 2 ^ 10 - 1 from rfl,
    Nat.and_two_pow_sub_one_eq_mod]

namespace PageDirectory

def directoryIndex (address : UInt32) : Fin directoryCount :=
  ⟨(address >>> directoryShift).toNat, by
    have hlt := address.toNat_lt
    rw [toNat_directoryIndex, directoryCount]
    omega⟩

def entryIndex (address : UInt32) : Fin entriesPerDirectory :=
  ⟨((address >>> pageShift) &&& directoryPageMask).toNat, by
    rw [toNat_entryIndex]
    exact Nat.mod_lt _ (by decide)⟩

/-- Every page of the directories there are is unmapped; they are kept. -/
def clear (m : PageDirectory ρ) : PageDirectory ρ :=
  { m with directories := fun i => (m.directories i).map fun _ _ => {} }

def pageFor (m : PageDirectory ρ) (address : UInt32) : Page ρ :=
  match m.directories (directoryIndex address) with
  | none => m.unmappedPage
  | some directory => directory (entryIndex address)

/-- What is assigned to the page that `pageForMapping` returns: its directory is made if it is
    missing. -/
def setPageForMapping (m : PageDirectory ρ) (address : UInt32) (page : Page ρ) : PageDirectory ρ :=
  let directory := (m.directories (directoryIndex address)).getD fun _ => {}
  { m with
    directories := Function.update m.directories (directoryIndex address)
      (some (Function.update directory (entryIndex address) page)) }

def mapReadWritePage (m : PageDirectory ρ) (address : UInt32) (bytes : Option (ρ × Nat)) :
    PageDirectory ρ :=
  match bytes with
  | none => m
  | some p => if address &&& pageMask ≠ 0 then m else m.setPageForMapping address (.readWrite p)

def mapReadOnlyPage (m : PageDirectory ρ) (address : UInt32) (bytes : Option (ρ × Nat)) :
    PageDirectory ρ :=
  match bytes with
  | none => m
  | some p => if address &&& pageMask ≠ 0 then m else m.setPageForMapping address (.readOnly p)

/-- The loop of `mapReadOnlyMirrored` from an offset on, if it ends within `fuel` tests. -/
def mirrorFrom (address length : UInt32) (bytes : ρ × Nat) (bytesLength : UInt32) :
    Nat → UInt32 → PageDirectory ρ → Option (PageDirectory ρ)
  | 0, _, _ => none
  | fuel + 1, offset, m =>
    if offset < length then
      mirrorFrom address length bytes bytesLength fuel (offset + (pageMask + 1))
        (m.mapReadOnlyPage (address + offset)
          (some (bytes.1, bytes.2 + (offset % bytesLength).toNat)))
    else some m

def mapReadOnlyMirrored (m : PageDirectory ρ) (address length : UInt32)
    (bytes : Option (ρ × Nat)) (bytesLength : UInt32) : Option (PageDirectory ρ) :=
  match bytes with
  | none => some m
  | some p =>
    if address &&& pageMask ≠ 0 ∨ length &&& pageMask ≠ 0 ∨ bytesLength = 0 ∨
      bytesLength &&& pageMask ≠ 0 then some m
    else mirrorFrom address length p bytesLength (directoryCount * entriesPerDirectory) 0 m

def tryRead8 (m : PageDirectory ρ) (bytes : Bytes ρ) (address : UInt32) : Option UInt8 :=
  (m.pageFor address).read.map fun p => bytes p.1 (p.2 + (address &&& pageMask).toNat)

def tryRead16 (m : PageDirectory ρ) (bytes : Bytes ρ) (address : UInt32) : Option UInt16 :=
  if pageMask - 1 < address &&& pageMask then none
  else
    (m.pageFor address).read.map fun p =>
      let offset := p.2 + (address &&& pageMask).toNat
      ((bytes p.1 offset).toUInt16 <<< 8) ||| (bytes p.1 (offset + 1)).toUInt16

def tryRead32 (m : PageDirectory ρ) (bytes : Bytes ρ) (address : UInt32) : Option UInt32 :=
  if pageMask - 3 < address &&& pageMask then none
  else
    (m.pageFor address).read.map fun p =>
      let offset := p.2 + (address &&& pageMask).toNat
      ((bytes p.1 offset).toUInt32 <<< 24) ||| ((bytes p.1 (offset + 1)).toUInt32 <<< 16) |||
        ((bytes p.1 (offset + 2)).toUInt32 <<< 8) ||| (bytes p.1 (offset + 3)).toUInt32

section
variable [DecidableEq ρ]

def tryWrite8 (m : PageDirectory ρ) (bytes : Bytes ρ) (address : UInt32) (value : UInt8) :
    Option (Bytes ρ) :=
  (m.pageFor address).write.map fun p =>
    PhysicalMemoryMap.writeBytes bytes p.1 (p.2 + (address &&& pageMask).toNat) [value]

def tryWrite16 (m : PageDirectory ρ) (bytes : Bytes ρ) (address : UInt32) (value : UInt16) :
    Option (Bytes ρ) :=
  if pageMask - 1 < address &&& pageMask then none
  else
    (m.pageFor address).write.map fun p =>
      PhysicalMemoryMap.writeBytes bytes p.1 (p.2 + (address &&& pageMask).toNat)
        [(value >>> 8).toUInt8, value.toUInt8]

def tryWrite32 (m : PageDirectory ρ) (bytes : Bytes ρ) (address : UInt32) (value : UInt32) :
    Option (Bytes ρ) :=
  if pageMask - 3 < address &&& pageMask then none
  else
    (m.pageFor address).write.map fun p =>
      PhysicalMemoryMap.writeBytes bytes p.1 (p.2 + (address &&& pageMask).toNat)
        [(value >>> 24).toUInt8, (value >>> 16).toUInt8, (value >>> 8).toUInt8, value.toUInt8]

end

/-! ## A table of pages behind the directories -/

theorem toNat_and_pageMask (address : UInt32) :
    (address &&& pageMask).toNat = PhysicalMemoryMap.pageOffset address := by
  rw [UInt32.toNat_and, show pageMask.toNat = 2 ^ 12 - 1 from rfl, Nat.and_two_pow_sub_one_eq_mod]
  rfl

theorem and_pageMask_eq_zero (address : UInt32) :
    address &&& pageMask = 0 ↔ address.toNat % 4096 = 0 := by
  rw [← UInt32.toNat_inj, toNat_and_pageMask]
  rfl

theorem isSome_ite_map {α β : Type} {c : Prop} [Decidable c] (x : Option α) (f : α → β) :
    (if c then none else x.map f).isSome ↔ ¬ c ∧ x.isSome := by
  by_cases hc : c <;> simp [hc]

/-- `size` bytes from an address on are in one page. -/
def OnePage (address : UInt32) (size : Nat) : Prop := address.toNat % 4096 + size ≤ 4096

instance (address : UInt32) (size : Nat) : Decidable (OnePage address size) :=
  inferInstanceAs (Decidable (_ ≤ _))

theorem crosses_iff (address : UInt32) (size : Nat) {last : UInt32}
    (hlast : last.toNat + size = 4096) :
    last < address &&& pageMask ↔ ¬ OnePage address size := by
  rw [UInt32.lt_iff_toNat_lt, toNat_and_pageMask]
  show last.toNat < address.toNat % 4096 ↔ ¬ address.toNat % 4096 + size ≤ 4096
  omega

/-- The two indices are those of a page. -/
theorem index_inj (a b : UInt32) :
    directoryIndex a = directoryIndex b ∧ entryIndex a = entryIndex b ↔
      a.toNat / 4096 = b.toNat / 4096 := by
  simp only [directoryIndex, entryIndex, Fin.mk.injEq, toNat_directoryIndex, toNat_entryIndex]
  omega

theorem pageFor_setPageForMapping {m : PageDirectory ρ} (hunmapped : m.unmappedPage = {})
    (address : UInt32) (page : Page ρ) (a : UInt32) :
    (m.setPageForMapping address page).pageFor a =
      if a.toNat / 4096 = address.toNat / 4096 then page else m.pageFor a := by
  have hiff := index_inj a address
  simp only [pageFor, setPageForMapping]
  by_cases hd : directoryIndex a = directoryIndex address
  · rw [hd, Function.update_self]
    by_cases he : entryIndex a = entryIndex address
    · rw [if_pos (hiff.1 ⟨hd, he⟩), he]
      exact Function.update_self ..
    · rw [if_neg (fun h => he (hiff.2 h).2)]
      simp only [Function.update_of_ne he]
      cases m.directories (directoryIndex address) with
      | none => exact hunmapped.symm
      | some directory => rfl
  · rw [if_neg (fun h => hd (hiff.2 h).1), Function.update_of_ne hd]

/-- The directories have the pages of a table, and none of their operations has touched the page
    that stands for the missing ones. -/
structure Represents (m : PageDirectory ρ) (map : PhysicalMemoryMap ρ) : Prop where
  pageFor : ∀ address, m.pageFor address = map.pageFor address
  unmapped : m.unmappedPage = {}

theorem represents_empty : Represents ({} : PageDirectory ρ) PhysicalMemoryMap.clear :=
  ⟨fun _ => rfl, rfl⟩

namespace Represents

variable {m : PageDirectory ρ} {map map₀ : PhysicalMemoryMap ρ}

theorem clear (h : Represents m map) : Represents m.clear PhysicalMemoryMap.clear := by
  refine ⟨fun address => ?_, h.unmapped⟩
  simp only [PageDirectory.pageFor, PageDirectory.clear]
  cases m.directories (directoryIndex address) with
  | none => exact h.unmapped
  | some directory => rfl

theorem setPageForMapping (h : Represents m map) {address : UInt32}
    (ha : address &&& pageMask = 0) (page : Page ρ) :
    Represents (m.setPageForMapping address page) (map.mapPage address page) := by
  refine ⟨fun a => ?_, h.unmapped⟩
  have ha' : PhysicalMemoryMap.pageOffset address = 0 := (and_pageMask_eq_zero address).1 ha
  rw [pageFor_setPageForMapping h.unmapped, PhysicalMemoryMap.pageFor,
    PhysicalMemoryMap.mapPage_apply _ _ _ ha', h.pageFor]
  rfl

/-- A page that is not at the start of one is not mapped. -/
theorem mapPage (h : Represents m map) (address : UInt32) (page : Page ρ) :
    Represents (if address &&& pageMask ≠ 0 then m else m.setPageForMapping address page)
      (map.mapPage address page) := by
  by_cases ha : address &&& pageMask = 0
  · rw [if_neg (not_not.2 ha)]
    exact h.setPageForMapping ha page
  · have ha' : PhysicalMemoryMap.pageOffset address ≠ 0 :=
      fun h0 => ha ((and_pageMask_eq_zero address).2 h0)
    rw [if_pos ha, PhysicalMemoryMap.mapPage, if_pos ha']
    exact h

/-- The loop of a mirror ends at its length, with the pages mapped one after the other. -/
theorem mirrorFrom (h : Represents m map) {address length bytesLength : UInt32} {bytes : ρ × Nat}
    {count : Nat} (hlength : length.toNat = count * 4096) {fuel i : Nat} (hi : i ≤ count)
    (hfuel : count - i < fuel)
    (hmap : map = map₀.mapPages address i fun i =>
      some (.readOnly (bytes.1, bytes.2 + i * 4096 % bytesLength.toNat))) :
    ∃ m', mirrorFrom address length bytes bytesLength fuel (UInt32.ofNat (i * 4096)) m = some m' ∧
      Represents m' (map₀.mapPages address count fun i =>
        some (.readOnly (bytes.1, bytes.2 + i * 4096 % bytesLength.toNat))) := by
  have hlt := length.toNat_lt
  induction fuel generalizing i m map with
  | zero => omega
  | succ fuel ih =>
    have hoffset : (UInt32.ofNat (i * 4096)).toNat = i * 4096 := by
      rw [UInt32.toNat_ofNat']
      omega
    rw [PageDirectory.mirrorFrom]
    by_cases hend : i < count
    · have hless : UInt32.ofNat (i * 4096) < length := by
        rw [UInt32.lt_iff_toNat_lt, hoffset]
        omega
      have hnext : UInt32.ofNat (i * 4096) + (pageMask + 1) = UInt32.ofNat ((i + 1) * 4096) := by
        rw [← UInt32.toNat_inj, UInt32.toNat_add, hoffset, UInt32.toNat_ofNat']
        show (i * 4096 + 4096) % 2 ^ 32 = _
        rw [Nat.succ_mul]
      rw [if_pos hless, hnext]
      refine ih (h.mapPage _ _) hend (by omega) ?_
      rw [PhysicalMemoryMap.mapPages_succ, ← hmap, UInt32.toNat_mod, hoffset]
      rfl
    · have heq : i = count := Nat.le_antisymm hi (Nat.not_lt.1 hend)
      have hnot : ¬ UInt32.ofNat (i * 4096) < length := by
        rw [UInt32.lt_iff_toNat_lt, hoffset]
        omega
      rw [if_neg hnot]
      refine ⟨m, rfl, ?_⟩
      rw [← heq, ← hmap]
      exact h

/-- A mirror is mapped whatever its length. -/
theorem mapReadOnlyMirrored (h : Represents m map) (address length : UInt32) (bytes : ρ × Nat)
    (bytesLength : UInt32) :
    ∃ m', m.mapReadOnlyMirrored address length (some bytes) bytesLength = some m' ∧
      Represents m'
        (map.mapReadOnlyMirrored address length.toNat bytes bytesLength.toNat) := by
  have hlt := length.toNat_lt
  have hzero : bytesLength = 0 ↔ bytesLength.toNat = 0 := by
    rw [← UInt32.toNat_inj]
    rfl
  have hiff : (address &&& pageMask ≠ 0 ∨ length &&& pageMask ≠ 0 ∨ bytesLength = 0 ∨
        bytesLength &&& pageMask ≠ 0) ↔
      (PhysicalMemoryMap.pageOffset address ≠ 0 ∨ length.toNat % PhysicalMemoryMap.pageSize ≠ 0 ∨
        bytesLength.toNat = 0 ∨ bytesLength.toNat % PhysicalMemoryMap.pageSize ≠ 0) := by
    simp only [ne_eq, and_pageMask_eq_zero, hzero]
    rfl
  dsimp only [PageDirectory.mapReadOnlyMirrored, PhysicalMemoryMap.mapReadOnlyMirrored]
  by_cases hbad : address &&& pageMask ≠ 0 ∨ length &&& pageMask ≠ 0 ∨ bytesLength = 0 ∨
      bytesLength &&& pageMask ≠ 0
  · rw [if_pos hbad, if_pos (hiff.1 hbad)]
    exact ⟨m, rfl, h⟩
  · have hgood := mt hiff.2 hbad
    rw [if_neg hbad, if_neg hgood]
    unfold PhysicalMemoryMap.pageSize at hgood ⊢
    refine h.mirrorFrom (by omega) (Nat.zero_le (length.toNat / 4096)) ?_ rfl
    unfold directoryCount entriesPerDirectory
    omega

/-! ## Words and long words -/

variable {a : UInt32} {i : Nat}

theorem pageFor_add (h : Represents m map) (hi : PhysicalMemoryMap.pageOffset a + i < 4096) :
    m.pageFor (a + UInt32.ofNat i) = m.pageFor a ∧
      ((a + UInt32.ofNat i) &&& pageMask).toNat = (a &&& pageMask).toNat + i := by
  obtain ⟨hpage, hoffset⟩ := PhysicalMemoryMap.pageFor_add map a i hi
  constructor
  · rw [h.pageFor, hpage, h.pageFor]
  · rw [toNat_and_pageMask, toNat_and_pageMask, hoffset]

/-- A word is read in one page, from its two bytes. -/
theorem tryRead16_eq (h : Represents m map) (bytes : Bytes ρ) (a : UInt32) :
    m.tryRead16 bytes a =
      if OnePage a 2 then do
        let high ← m.tryRead8 bytes a
        let low ← m.tryRead8 bytes (a + 1)
        return (high.toUInt16 <<< 8) ||| low.toUInt16
      else none := by
  have hiff : pageMask - 1 < a &&& pageMask ↔ ¬ OnePage a 2 := crosses_iff a 2 rfl
  rw [tryRead16]
  by_cases hone : OnePage a 2
  · obtain ⟨hpage, hoffset⟩ := h.pageFor_add (a := a) (i := 1) (Nat.lt_of_succ_le hone)
    rw [if_neg (fun hx => hiff.1 hx hone), if_pos hone, tryRead8, tryRead8,
      show (1 : UInt32) = UInt32.ofNat 1 from rfl, hpage, hoffset]
    cases (m.pageFor a).read with
    | none => rfl
    | some p => rfl
  · rw [if_pos (hiff.2 hone), if_neg hone]

/-- A long word is read in one page, from its four bytes. -/
theorem tryRead32_eq (h : Represents m map) (bytes : Bytes ρ) (a : UInt32) :
    m.tryRead32 bytes a =
      if OnePage a 4 then do
        let b0 ← m.tryRead8 bytes a
        let b1 ← m.tryRead8 bytes (a + 1)
        let b2 ← m.tryRead8 bytes (a + 2)
        let b3 ← m.tryRead8 bytes (a + 3)
        return (b0.toUInt32 <<< 24) ||| (b1.toUInt32 <<< 16) ||| (b2.toUInt32 <<< 8) ||| b3.toUInt32
      else none := by
  have hiff : pageMask - 3 < a &&& pageMask ↔ ¬ OnePage a 4 := crosses_iff a 4 rfl
  rw [tryRead32]
  by_cases hone : OnePage a 4
  · have hone' : a.toNat % 4096 + 4 ≤ 4096 := hone
    have hin : ∀ i < 4, PhysicalMemoryMap.pageOffset a + i < 4096 := fun i hi => by
      show a.toNat % 4096 + i < 4096
      omega
    obtain ⟨hpage1, hoffset1⟩ := h.pageFor_add (hin 1 (by omega))
    obtain ⟨hpage2, hoffset2⟩ := h.pageFor_add (hin 2 (by omega))
    obtain ⟨hpage3, hoffset3⟩ := h.pageFor_add (hin 3 (by omega))
    rw [if_neg (fun hx => hiff.1 hx hone), if_pos hone, tryRead8, tryRead8, tryRead8, tryRead8,
      show (1 : UInt32) = UInt32.ofNat 1 from rfl, show (2 : UInt32) = UInt32.ofNat 2 from rfl,
      show (3 : UInt32) = UInt32.ofNat 3 from rfl, hpage1, hoffset1, hpage2, hoffset2, hpage3,
      hoffset3]
    cases (m.pageFor a).read with
    | none => rfl
    | some p => rfl
  · rw [if_pos (hiff.2 hone), if_neg hone]

section
variable [DecidableEq ρ]

/-- A word is written in one page, byte by byte. -/
theorem tryWrite16_eq (h : Represents m map) (bytes : Bytes ρ) (a : UInt32) (value : UInt16) :
    m.tryWrite16 bytes a value =
      if OnePage a 2 then do
        let bytes ← m.tryWrite8 bytes a (value >>> 8).toUInt8
        m.tryWrite8 bytes (a + 1) value.toUInt8
      else none := by
  have hiff : pageMask - 1 < a &&& pageMask ↔ ¬ OnePage a 2 := crosses_iff a 2 rfl
  rw [tryWrite16]
  by_cases hone : OnePage a 2
  · obtain ⟨hpage, hoffset⟩ := h.pageFor_add (a := a) (i := 1) (Nat.lt_of_succ_le hone)
    simp only [tryWrite8]
    rw [if_neg (fun hx => hiff.1 hx hone), if_pos hone,
      show (1 : UInt32) = UInt32.ofNat 1 from rfl, hpage, hoffset]
    cases (m.pageFor a).write with
    | none => rfl
    | some p => rfl
  · rw [if_pos (hiff.2 hone), if_neg hone]

/-- A long word is written in one page, byte by byte. -/
theorem tryWrite32_eq (h : Represents m map) (bytes : Bytes ρ) (a : UInt32) (value : UInt32) :
    m.tryWrite32 bytes a value =
      if OnePage a 4 then do
        let bytes ← m.tryWrite8 bytes a (value >>> 24).toUInt8
        let bytes ← m.tryWrite8 bytes (a + 1) (value >>> 16).toUInt8
        let bytes ← m.tryWrite8 bytes (a + 2) (value >>> 8).toUInt8
        m.tryWrite8 bytes (a + 3) value.toUInt8
      else none := by
  have hiff : pageMask - 3 < a &&& pageMask ↔ ¬ OnePage a 4 := crosses_iff a 4 rfl
  rw [tryWrite32]
  by_cases hone : OnePage a 4
  · have hone' : a.toNat % 4096 + 4 ≤ 4096 := hone
    have hin : ∀ i < 4, PhysicalMemoryMap.pageOffset a + i < 4096 := fun i hi => by
      show a.toNat % 4096 + i < 4096
      omega
    obtain ⟨hpage1, hoffset1⟩ := h.pageFor_add (hin 1 (by omega))
    obtain ⟨hpage2, hoffset2⟩ := h.pageFor_add (hin 2 (by omega))
    obtain ⟨hpage3, hoffset3⟩ := h.pageFor_add (hin 3 (by omega))
    simp only [tryWrite8]
    rw [if_neg (fun hx => hiff.1 hx hone), if_pos hone,
      show (1 : UInt32) = UInt32.ofNat 1 from rfl, show (2 : UInt32) = UInt32.ofNat 2 from rfl,
      show (3 : UInt32) = UInt32.ofNat 3 from rfl, hpage1, hoffset1, hpage2, hoffset2, hpage3,
      hoffset3]
    cases (m.pageFor a).write with
    | none => rfl
    | some p => rfl
  · rw [if_pos (hiff.2 hone), if_neg hone]

end

end Represents

end PageDirectory

/-! ## The flat map -/

/-- What is behind an address: a byte of a region, and whether it can be written. -/
structure Target (ρ : Type) where
  region : ρ
  index : Nat
  writable : Bool

/-- `length` bytes from `base` on show those of `bytes`, which start again after each `period`. -/
def window (base : UInt32) (length : Nat) (bytes : ρ × Nat) (period : Nat) (writable : Bool)
    (address : UInt32) : Option (Target ρ) :=
  if base.toNat % 4096 = 0 ∧ (address - base).toNat < length then
    some ⟨bytes.1, bytes.2 + (address - base).toNat % period, writable⟩
  else none

inductive Op (ρ : Type) where
  | mapReadWritePage (address : UInt32) (bytes : Option (ρ × Nat))
  | mapReadOnlyPage (address : UInt32) (bytes : Option (ρ × Nat))
  | mapReadOnlyMirrored (address length : UInt32) (bytes : Option (ρ × Nat)) (bytesLength : UInt32)
  | clear
  | tryWrite8 (address : UInt32) (value : UInt8)
  | tryWrite16 (address : UInt32) (value : UInt16)
  | tryWrite32 (address : UInt32) (value : UInt32)

namespace Op

/-- What an operation puts behind an address; one that is refused puts nothing behind any. -/
def target (address : UInt32) : Op ρ → Option (Target ρ)
  | mapReadWritePage base (some bytes) => window base 4096 bytes 4096 true address
  | mapReadOnlyPage base (some bytes) => window base 4096 bytes 4096 false address
  | mapReadOnlyMirrored base length (some bytes) bytesLength =>
    if length.toNat % 4096 = 0 ∧ 0 < bytesLength.toNat ∧ bytesLength.toNat % 4096 = 0 then
      window base length.toNat bytes bytesLength.toNat false address
    else none
  | _ => none

/-- What is behind an address after an operation. -/
def flat (address : UInt32) (t : Option (Target ρ)) : Op ρ → Option (Target ρ)
  | clear => none
  | op => (op.target address).or t

end Op

/-- The last operation that covers an address puts `t` behind it, and the table is not cleared
    afterwards. -/
def LastMapped (ops : List (Op ρ)) (address : UInt32) (t : Target ρ) : Prop :=
  ∃ before op after, ops = before ++ op :: after ∧ op.target address = some t ∧
    ∀ o ∈ after, o.target address = none ∧ o ≠ .clear

theorem lastMapped_append {ops : List (Op ρ)} {op : Op ρ} {address : UInt32} {t : Target ρ} :
    LastMapped (ops ++ [op]) address t ↔
      op.target address = some t ∨
        op.target address = none ∧ op ≠ .clear ∧ LastMapped ops address t := by
  constructor
  · rintro ⟨before, o, after, h, ho, hafter⟩
    rcases List.eq_nil_or_concat after with rfl | ⟨after, last, rfl⟩
    · obtain ⟨-, hop⟩ := List.append_inj' h rfl
      cases hop
      exact .inl ho
    · rw [List.concat_eq_append, ← List.cons_append, ← List.append_assoc] at h
      obtain ⟨hops, hop⟩ := List.append_inj' h rfl
      cases hop
      obtain ⟨hnone, hne⟩ := hafter op (by simp)
      exact .inr ⟨hnone, hne, before, o, after, hops, ho, fun o' ho' => hafter o' (by simp [ho'])⟩
  · rintro (hop | ⟨hnone, hne, before, o, after, rfl, ho, hafter⟩)
    · exact ⟨ops, op, [], rfl, hop, by simp⟩
    · refine ⟨before, o, after ++ [op], by simp, ho, fun o' ho' => ?_⟩
      rcases List.mem_append.1 ho' with ho' | ho'
      · exact hafter o' ho'
      · cases List.mem_singleton.1 ho'
        exact ⟨hnone, hne⟩

/-- Taking the operations one by one finds the last that covers the address. -/
theorem foldl_flat_iff (ops : List (Op ρ)) (address : UInt32) (t : Target ρ) :
    ops.foldl (Op.flat address) none = some t ↔ LastMapped ops address t := by
  induction ops using List.reverseRecOn with
  | nil => simp [LastMapped]
  | append_singleton ops op ih =>
    rw [List.foldl_append, List.foldl_cons, List.foldl_nil, lastMapped_append, ← ih]
    generalize ops.foldl (Op.flat address) none = old
    cases op with
    | clear => simp [Op.flat, Op.target]
    | _ =>
      simp only [Op.flat, Option.or_eq_some_iff, ne_eq, reduceCtorEq, not_false_eq_true, true_and]

/-! ## The pages of a window -/

def Page.of (writable : Bool) (bytes : ρ × Nat) : Page ρ :=
  if writable then .readWrite bytes else .readOnly bytes

/-- A page puts `t` behind the address at `offset` in it. -/
def Page.Shows (page : Page ρ) (offset : Nat) : Option (Target ρ) → Prop
  | none => page = {}
  | some t => ∃ first, page = .of t.writable (t.region, first) ∧ t.index = first + offset

namespace PhysicalMemoryMap

/-- A loop over pages that goes on from 0 after the last page of the address space. -/
theorem pageFor_mapPages_window (map : PhysicalMemoryMap ρ) {base : UInt32}
    (hbase : pageOffset base = 0) (page : Nat → Page ρ) {count : Nat}
    (hcount : count * 4096 ≤ 2 ^ 32) (a : UInt32) :
    (map.mapPages base count fun i => some (page i)).pageFor a =
      if (a - base).toNat < count * 4096 then page ((a - base).toNat / 4096)
      else map.pageFor a := by
  have ha := a.toNat_lt
  have hb := base.toNat_lt
  have hbase' : base.toNat % 4096 = 0 := hbase
  have hsub := UInt32.toNat_sub a base
  induction count with
  | zero => rfl
  | succ count ih =>
    have hlast : (base + UInt32.ofNat (count * 4096)).toNat =
        (base.toNat + count * 4096) % 2 ^ 32 := by
      rw [UInt32.toNat_add, UInt32.toNat_ofNat']
      omega
    have hzero : pageOffset (base + UInt32.ofNat (count * 4096)) = 0 := by
      show (base + UInt32.ofNat (count * 4096)).toNat % 4096 = 0
      omega
    have hpage : a.toNat / 4096 = (base + UInt32.ofNat (count * 4096)).toNat / 4096 ↔
        (a - base).toNat / 4096 = count := by
      rw [hlast, hsub]
      omega
    have hbefore := ih (Nat.le_trans (Nat.mul_le_mul_right _ count.le_succ) hcount)
    rw [mapPages_succ, pageFor]
    show mapPage _ (base + UInt32.ofNat (count * 4096)) (page count) (a.toNat / 4096) = _
    rw [mapPage_apply _ _ _ hzero]
    show (if a.toNat / 4096 = (base + UInt32.ofNat (count * 4096)).toNat / 4096 then page count
      else (map.mapPages base count fun i => some (page i)).pageFor a) = _
    rw [hbefore]
    clear hsub hlast hzero hbefore
    by_cases hthis : (a - base).toNat / 4096 = count
    · rw [if_pos (hpage.2 hthis), if_pos (by omega), hthis]
    · rw [if_neg (mt hpage.1 hthis)]
      have hiff : (a - base).toNat < (count + 1) * 4096 ↔ (a - base).toNat < count * 4096 := by
        omega
      by_cases hin : (a - base).toNat < count * 4096
      · rw [if_pos hin, if_pos (hiff.2 hin)]
      · rw [if_neg hin, if_neg (mt hiff.1 hin)]

theorem mapPages_one (map : PhysicalMemoryMap ρ) (base : UInt32) (page : Nat → Page ρ) :
    (map.mapPages base 1 fun i => some (page i)) = map.mapPage base (page 0) := by
  rw [mapPages_succ]
  show map.mapPage (base + UInt32.ofNat (0 * pageSize)) (page 0) = _
  rw [Nat.zero_mul, show UInt32.ofNat 0 = (0 : UInt32) from rfl, UInt32.add_zero]

/-- The pages of a window show it. -/
theorem shows_window {map : PhysicalMemoryMap ρ} {base : UInt32} (hbase : pageOffset base = 0)
    (bytes : ρ × Nat) {count : Nat} (hcount : count * 4096 ≤ 2 ^ 32) {period : Nat}
    (hperiod : period % 4096 = 0) (writable : Bool) {a : UInt32} {old : Option (Target ρ)}
    (hold : (map.pageFor a).Shows (pageOffset a) old) :
    ((map.mapPages base count fun i =>
      some (.of writable (bytes.1, bytes.2 + i * 4096 % period))).pageFor a).Shows (pageOffset a)
        ((window base (count * 4096) bytes period writable a).or old) := by
  have ha := a.toNat_lt
  have hb := base.toNat_lt
  have hsub := UInt32.toNat_sub a base
  have hbase' : base.toNat % 4096 = 0 := hbase
  rw [pageFor_mapPages_window map hbase (fun i => .of writable (bytes.1, bytes.2 + i * 4096 % period))
    hcount, window]
  by_cases hin : (a - base).toNat < count * 4096
  · obtain ⟨k, rfl⟩ := Nat.dvd_of_mod_eq_zero hperiod
    have hoffset : pageOffset a = (a - base).toNat % 4096 := by
      show a.toNat % 4096 = _
      omega
    rw [if_pos hin, if_pos ⟨hbase, hin⟩]
    refine ⟨_, rfl, ?_⟩
    show bytes.2 + (a - base).toNat % (4096 * k) = _
    rw [Nat.mod_mul, hoffset, Nat.mul_comm _ 4096, Nat.mul_mod_mul_left]
    omega
  · rw [if_neg hin, if_neg (fun h => hin h.2)]
    exact hold

theorem shows_page {map : PhysicalMemoryMap ρ} (base : UInt32) (bytes : ρ × Nat) (writable : Bool)
    {a : UInt32} {old : Option (Target ρ)} (hold : (map.pageFor a).Shows (pageOffset a) old) :
    ((map.mapPage base (.of writable bytes)).pageFor a).Shows (pageOffset a)
      ((window base 4096 bytes 4096 writable a).or old) := by
  by_cases hbase : pageOffset base = 0
  · have hshows := shows_window hbase bytes (show 1 * 4096 ≤ 2 ^ 32 by omega)
      (show 4096 % 4096 = 0 from rfl) writable hold
    rw [mapPages_one map base fun i => .of writable (bytes.1, bytes.2 + i * 4096 % 4096)] at hshows
    exact hshows
  · rw [mapPage, if_pos hbase, window, if_neg (fun h => hbase h.1)]
    exact hold

theorem shows_mirror {map : PhysicalMemoryMap ρ} (base length : UInt32) (bytes : ρ × Nat)
    (bytesLength : UInt32) {a : UInt32} {old : Option (Target ρ)}
    (hold : (map.pageFor a).Shows (pageOffset a) old) :
    ((map.mapReadOnlyMirrored base length.toNat bytes bytesLength.toNat).pageFor a).Shows
      (pageOffset a)
      (((Op.mapReadOnlyMirrored base length (some bytes) bytesLength).target a).or old) := by
  have hlt := length.toNat_lt
  rw [Op.target, mapReadOnlyMirrored]
  by_cases hbase : pageOffset base = 0
  · by_cases hgood : length.toNat % 4096 = 0 ∧ 0 < bytesLength.toNat ∧ bytesLength.toNat % 4096 = 0
    · have hpages : length.toNat / pageSize * 4096 = length.toNat :=
        Nat.div_mul_cancel (Nat.dvd_of_mod_eq_zero hgood.1)
      have hshows := shows_window hbase bytes
        (show length.toNat / pageSize * 4096 ≤ 2 ^ 32 by rw [hpages]; exact hlt.le) hgood.2.2 false
        hold
      rw [hpages] at hshows
      rw [if_pos hgood, if_neg]
      · exact hshows
      · rintro (h | h | h | h)
        · exact h hbase
        · exact h hgood.1
        · exact hgood.2.1.ne' h
        · exact h hgood.2.2
    · rw [if_neg hgood, if_pos]
      · exact hold
      · show ¬ base.toNat % 4096 = 0 ∨ ¬ length.toNat % 4096 = 0 ∨ bytesLength.toNat = 0 ∨
          ¬ bytesLength.toNat % 4096 = 0
        clear hbase
        omega
  · have hnone : window base length.toNat bytes bytesLength.toNat false a = none :=
      if_neg fun h => hbase h.1
    rw [if_pos (Or.inl hbase), hnone, ite_self]
    exact hold

end PhysicalMemoryMap

/-! ## Sequences of operations -/

/-- The table and the memory its pages are in. -/
structure DirectMemory (ρ : Type) where
  map : PageDirectory ρ
  bytes : Bytes ρ

section
variable [DecidableEq ρ]

/-- An operation; a write that is refused changes nothing. -/
def Op.apply (s : DirectMemory ρ) : Op ρ → Option (DirectMemory ρ)
  | mapReadWritePage address bytes => some { s with map := s.map.mapReadWritePage address bytes }
  | mapReadOnlyPage address bytes => some { s with map := s.map.mapReadOnlyPage address bytes }
  | mapReadOnlyMirrored address length bytes bytesLength =>
    (s.map.mapReadOnlyMirrored address length bytes bytesLength).map fun map =>
      { s with map := map }
  | clear => some { s with map := s.map.clear }
  | tryWrite8 address value =>
    some { s with bytes := (s.map.tryWrite8 s.bytes address value).getD s.bytes }
  | tryWrite16 address value =>
    some { s with bytes := (s.map.tryWrite16 s.bytes address value).getD s.bytes }
  | tryWrite32 address value =>
    some { s with bytes := (s.map.tryWrite32 s.bytes address value).getD s.bytes }

namespace DirectMemory

variable {s : DirectMemory ρ} {F : UInt32 → Option (Target ρ)}

def run (s : DirectMemory ρ) (ops : List (Op ρ)) : Option (DirectMemory ρ) := ops.foldlM Op.apply s

/-- The pages of the table show what a flat map has behind each address. -/
def Refines (s : DirectMemory ρ) (F : UInt32 → Option (Target ρ)) : Prop :=
  ∃ map, s.map.Represents map ∧
    ∀ a, (map.pageFor a).Shows (PhysicalMemoryMap.pageOffset a) (F a)

omit [DecidableEq ρ] in
theorem refines_empty (bytes : Bytes ρ) : Refines ⟨{}, bytes⟩ fun _ => none :=
  ⟨_, PageDirectory.represents_empty, fun _ => rfl⟩

theorem apply_refines (h : s.Refines F) (op : Op ρ) :
    ∃ s', op.apply s = some s' ∧ s'.Refines fun a => op.flat a (F a) := by
  obtain ⟨map, hmap, hF⟩ := h
  cases op with
  | mapReadWritePage base bytes =>
    refine ⟨_, rfl, ?_⟩
    cases bytes with
    | none => exact ⟨map, hmap, hF⟩
    | some p =>
      exact ⟨_, hmap.mapPage base (.readWrite p),
        fun a => PhysicalMemoryMap.shows_page base p true (hF a)⟩
  | mapReadOnlyPage base bytes =>
    refine ⟨_, rfl, ?_⟩
    cases bytes with
    | none => exact ⟨map, hmap, hF⟩
    | some p =>
      exact ⟨_, hmap.mapPage base (.readOnly p),
        fun a => PhysicalMemoryMap.shows_page base p false (hF a)⟩
  | mapReadOnlyMirrored base length bytes bytesLength =>
    cases bytes with
    | none => exact ⟨s, rfl, map, hmap, hF⟩
    | some p =>
      obtain ⟨m', hm', hrep⟩ := hmap.mapReadOnlyMirrored base length p bytesLength
      refine ⟨{ s with map := m' }, by rw [Op.apply, hm']; rfl, _, hrep, fun a => ?_⟩
      exact PhysicalMemoryMap.shows_mirror base length p bytesLength (hF a)
  | clear => exact ⟨_, rfl, _, hmap.clear, fun _ => rfl⟩
  | tryWrite8 address value => exact ⟨_, rfl, map, hmap, hF⟩
  | tryWrite16 address value => exact ⟨_, rfl, map, hmap, hF⟩
  | tryWrite32 address value => exact ⟨_, rfl, map, hmap, hF⟩

theorem refines_run (h : s.Refines F) (ops : List (Op ρ)) :
    ∃ s', s.run ops = some s' ∧ s'.Refines fun a => ops.foldl (Op.flat a) (F a) := by
  induction ops generalizing s F with
  | nil => exact ⟨s, rfl, h⟩
  | cons op ops ih =>
    obtain ⟨s₁, hs₁, h₁⟩ := apply_refines h op
    obtain ⟨s', hs', h'⟩ := ih h₁
    refine ⟨s', ?_, h'⟩
    rw [run, List.foldlM_cons, hs₁]
    exact hs'

omit [DecidableEq ρ] in
theorem Refines.tryRead8 (h : s.Refines F) (a : UInt32) :
    s.map.tryRead8 s.bytes a = (F a).map fun t => s.bytes t.region t.index := by
  obtain ⟨map, hmap, hF⟩ := h
  have hshows := hF a
  rw [PageDirectory.tryRead8, hmap.pageFor, PageDirectory.toNat_and_pageMask]
  cases hFa : F a with
  | none =>
    rw [hFa] at hshows
    rw [show map.pageFor a = {} from hshows]
    rfl
  | some t =>
    obtain ⟨region, index, writable⟩ := t
    rw [hFa] at hshows
    obtain ⟨first, hpage, rfl⟩ := hshows
    rw [hpage]
    cases writable <;> rfl

theorem Refines.tryWrite8 (h : s.Refines F) (a : UInt32) (value : UInt8) :
    s.map.tryWrite8 s.bytes a value =
      ((F a).filter Target.writable).map fun t =>
        PhysicalMemoryMap.writeBytes s.bytes t.region t.index [value] := by
  obtain ⟨map, hmap, hF⟩ := h
  have hshows := hF a
  rw [PageDirectory.tryWrite8, hmap.pageFor, PageDirectory.toNat_and_pageMask]
  cases hFa : F a with
  | none =>
    rw [hFa] at hshows
    rw [show map.pageFor a = {} from hshows]
    rfl
  | some t =>
    obtain ⟨region, index, writable⟩ := t
    rw [hFa] at hshows
    obtain ⟨first, hpage, rfl⟩ := hshows
    rw [hpage]
    cases writable <;> rfl

/-- What a table of pages does after some operations, in terms of the flat map. -/
structure FlatAfter (ops : List (Op ρ)) (s : DirectMemory ρ) : Prop where
  read8 : ∀ a value, s.map.tryRead8 s.bytes a = some value ↔
    ∃ t, LastMapped ops a t ∧ s.bytes t.region t.index = value
  write8 : ∀ a value bytes, s.map.tryWrite8 s.bytes a value = some bytes ↔
    ∃ t, LastMapped ops a t ∧ t.writable = true ∧
      PhysicalMemoryMap.writeBytes s.bytes t.region t.index [value] = bytes
  read16 : ∀ a, (s.map.tryRead16 s.bytes a).isSome ↔
    PageDirectory.OnePage a 2 ∧ ∃ t, LastMapped ops a t
  read16_bytes : ∀ a, PageDirectory.OnePage a 2 → s.map.tryRead16 s.bytes a = do
    let high ← s.map.tryRead8 s.bytes a
    let low ← s.map.tryRead8 s.bytes (a + 1)
    return (high.toUInt16 <<< 8) ||| low.toUInt16
  read32 : ∀ a, (s.map.tryRead32 s.bytes a).isSome ↔
    PageDirectory.OnePage a 4 ∧ ∃ t, LastMapped ops a t
  read32_bytes : ∀ a, PageDirectory.OnePage a 4 → s.map.tryRead32 s.bytes a = do
    let b0 ← s.map.tryRead8 s.bytes a
    let b1 ← s.map.tryRead8 s.bytes (a + 1)
    let b2 ← s.map.tryRead8 s.bytes (a + 2)
    let b3 ← s.map.tryRead8 s.bytes (a + 3)
    return (b0.toUInt32 <<< 24) ||| (b1.toUInt32 <<< 16) ||| (b2.toUInt32 <<< 8) ||| b3.toUInt32
  write16 : ∀ a value, (s.map.tryWrite16 s.bytes a value).isSome ↔
    PageDirectory.OnePage a 2 ∧ ∃ t, LastMapped ops a t ∧ t.writable = true
  write16_bytes : ∀ a value, PageDirectory.OnePage a 2 → s.map.tryWrite16 s.bytes a value = do
    let bytes ← s.map.tryWrite8 s.bytes a (value >>> 8).toUInt8
    s.map.tryWrite8 bytes (a + 1) value.toUInt8
  write32 : ∀ a value, (s.map.tryWrite32 s.bytes a value).isSome ↔
    PageDirectory.OnePage a 4 ∧ ∃ t, LastMapped ops a t ∧ t.writable = true
  write32_bytes : ∀ a value, PageDirectory.OnePage a 4 → s.map.tryWrite32 s.bytes a value = do
    let bytes ← s.map.tryWrite8 s.bytes a (value >>> 24).toUInt8
    let bytes ← s.map.tryWrite8 bytes (a + 1) (value >>> 16).toUInt8
    let bytes ← s.map.tryWrite8 bytes (a + 2) (value >>> 8).toUInt8
    s.map.tryWrite8 bytes (a + 3) value.toUInt8
  /-- A mirror shows its bytes again and again, on from 0 after the last address. -/
  mirror : ∀ before base length bytes bytesLength after,
    ops = before ++ .mapReadOnlyMirrored base length (some bytes) bytesLength :: after →
    base.toNat % 4096 = 0 → length.toNat % 4096 = 0 → 0 < bytesLength.toNat →
    bytesLength.toNat % 4096 = 0 → ∀ a, (∀ o ∈ after, o.target a = none ∧ o ≠ .clear) →
    (a - base).toNat < length.toNat →
    s.map.tryRead8 s.bytes a =
      some (s.bytes bytes.1 (bytes.2 + (a - base).toNat % bytesLength.toNat))

variable {ops : List (Op ρ)}

/-- A flat map that tells the last operation for each address is what the table does. -/
theorem Refines.flatAfter (h : s.Refines F) (hF : ∀ a t, F a = some t ↔ LastMapped ops a t) :
    s.FlatAfter ops := by
  obtain ⟨map, hmap, -⟩ := id h
  have hread8 : ∀ a value, s.map.tryRead8 s.bytes a = some value ↔
      ∃ t, LastMapped ops a t ∧ s.bytes t.region t.index = value := by
    intro a value
    simp only [h.tryRead8, Option.map_eq_some_iff, hF]
  have hwrite8 : ∀ a value bytes, s.map.tryWrite8 s.bytes a value = some bytes ↔
      ∃ t, LastMapped ops a t ∧ t.writable = true ∧
        PhysicalMemoryMap.writeBytes s.bytes t.region t.index [value] = bytes := by
    intro a value bytes
    simp only [h.tryWrite8, Option.map_eq_some_iff, Option.filter_eq_some_iff, hF, and_assoc]
  have hreadable : ∀ a, (s.map.pageFor a).read.isSome ↔ ∃ t, LastMapped ops a t := by
    intro a
    have hsome : (s.map.tryRead8 s.bytes a).isSome = (s.map.pageFor a).read.isSome :=
      Option.isSome_map
    rw [← hsome, Option.isSome_iff_exists]
    simp only [hread8]
    constructor
    · rintro ⟨value, t, ht, -⟩
      exact ⟨t, ht⟩
    · rintro ⟨t, ht⟩
      exact ⟨_, t, ht, rfl⟩
  have hwritable : ∀ a, (s.map.pageFor a).write.isSome ↔
      ∃ t, LastMapped ops a t ∧ t.writable = true := by
    intro a
    have hsome : (s.map.tryWrite8 s.bytes a 0).isSome = (s.map.pageFor a).write.isSome :=
      Option.isSome_map
    rw [← hsome, Option.isSome_iff_exists]
    simp only [hwrite8]
    constructor
    · rintro ⟨bytes, t, ht, hw, -⟩
      exact ⟨t, ht, hw⟩
    · rintro ⟨t, ht, hw⟩
      exact ⟨_, t, ht, hw, rfl⟩
  have htwo : ∀ a, ¬ pageMask - 1 < a &&& pageMask ↔ PageDirectory.OnePage a 2 :=
    fun a => not_iff_comm.1 (PageDirectory.crosses_iff a 2 rfl).symm
  have hfour : ∀ a, ¬ pageMask - 3 < a &&& pageMask ↔ PageDirectory.OnePage a 4 :=
    fun a => not_iff_comm.1 (PageDirectory.crosses_iff a 4 rfl).symm
  exact {
    read8 := hread8
    write8 := hwrite8
    read16 := fun a => by
      rw [PageDirectory.tryRead16, PageDirectory.isSome_ite_map, htwo, hreadable]
    read16_bytes := fun a hone => (hmap.tryRead16_eq s.bytes a).trans (if_pos hone)
    read32 := fun a => by
      rw [PageDirectory.tryRead32, PageDirectory.isSome_ite_map, hfour, hreadable]
    read32_bytes := fun a hone => (hmap.tryRead32_eq s.bytes a).trans (if_pos hone)
    write16 := fun a value => by
      rw [PageDirectory.tryWrite16, PageDirectory.isSome_ite_map, htwo, hwritable]
    write16_bytes := fun a value hone => (hmap.tryWrite16_eq s.bytes a value).trans (if_pos hone)
    write32 := fun a value => by
      rw [PageDirectory.tryWrite32, PageDirectory.isSome_ite_map, hfour, hwritable]
    write32_bytes := fun a value hone => (hmap.tryWrite32_eq s.bytes a value).trans (if_pos hone)
    mirror := by
      rintro before base length bytes bytesLength after rfl hbase hlength hpos hbytes a hafter hin
      refine (hread8 a _).2
        ⟨⟨bytes.1, bytes.2 + (a - base).toNat % bytesLength.toNat, false⟩,
          ⟨before, _, after, rfl, ?_, hafter⟩, rfl⟩
      rw [Op.target, if_pos ⟨hlength, hpos, hbytes⟩]
      exact if_pos ⟨hbase, hin⟩ }

end DirectMemory

/-- A window that ends within the address space does not wrap. -/
theorem mem_window_iff {base length : UInt32} (h : base.toNat + length.toNat ≤ 2 ^ 32) (a : UInt32) :
    (a - base).toNat < length.toNat ↔
      base.toNat ≤ a.toNat ∧ a.toNat < base.toNat + length.toNat := by
  have ha := a.toNat_lt
  have hb := base.toNat_lt
  rw [UInt32.toNat_sub]
  omega

/-- After any operations the table is the flat map of the last one for each address.  A mirror goes
    on from 0 only where its window reaches beyond the address space. -/
theorem run_flat (ops : List (Op ρ)) (bytes : Bytes ρ) :
    (∃ s, DirectMemory.run ⟨{}, bytes⟩ ops = some s ∧ s.FlatAfter ops) ∧
      ∀ base length : UInt32, base.toNat + length.toNat ≤ 2 ^ 32 → ∀ a,
        ((a - base).toNat < length.toNat ↔
          base.toNat ≤ a.toNat ∧ a.toNat < base.toNat + length.toNat) := by
  refine ⟨?_, fun base length h a => mem_window_iff h a⟩
  obtain ⟨s, hs, href⟩ := DirectMemory.refines_run (DirectMemory.refines_empty bytes) ops
  exact ⟨s, hs, href.flatAfter (foldl_flat_iff ops)⟩

/-- A mirror of two pages at the last page of the address space maps the first page too. -/
theorem mirror_wraps :
    (∃ s, DirectMemory.run ⟨{}, fun (_ : Unit) _ => 7⟩
        [.mapReadOnlyMirrored 0xfffff000 0x2000 (some ((), 0)) 0x1000] = some s ∧
      s.map.tryRead8 s.bytes 0 ≠ none) ∧
      (0x1000 : UInt32) < 0x2000 ∧ (0xfffff000 + 0x1000 : UInt32) < 0xfffff000 := by
  refine ⟨?_, by decide, by decide⟩
  obtain ⟨s, hs, href⟩ := DirectMemory.refines_run (DirectMemory.refines_empty fun _ => 7)
    [.mapReadOnlyMirrored 0xfffff000 0x2000 (some ((), 0)) 0x1000]
  have hshown : ([.mapReadOnlyMirrored 0xfffff000 0x2000 (some ((), 0)) 0x1000] :
      List (Op Unit)).foldl (Op.flat 0) none = some ⟨(), 0, false⟩ := by rfl
  refine ⟨s, hs, ?_⟩
  rw [href.tryRead8, hshown]
  exact Option.some_ne_none _

end

end CuteMac.Core
