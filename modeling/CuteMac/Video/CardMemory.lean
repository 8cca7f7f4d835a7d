/-
  The memory of the cards, at every width.

  * `Accesses`, `VramWrite`: the accesses of a card, and writes into its memory;
  * `MemoryAt`: at an offset, wide writes are byte writes, no access leaves the memory,
    and what was written last is read;
  * `MacintoshIIVideoCard.memoryAt_iff`, `AppleDisplayCard.memoryAt_iff`: where that is so;
  * `memory_of_cards`: both cards behind the addresses of their slots.
-/
import CuteMac.Lib.ByteLanes
import CuteMac.Lib.WriteLog
import CuteMac.NuBus.NuBusBus
import CuteMac.Video.AppleDisplayCard

namespace CuteMac.Video

open NuBus WriteLog

/-! ## Accesses -/

structure Accesses (σ : Type) where
  read8 : σ → UInt32 → Option (UInt8 × σ)
  read16 : σ → UInt32 → Option (UInt16 × σ)
  read32 : σ → UInt32 → Option (UInt32 × σ)
  write8 : σ → UInt32 → UInt8 → Option σ
  write16 : σ → UInt32 → UInt16 → Option σ
  write32 : σ → UInt32 → UInt32 → Option σ
  /-- where an offset is in the memory of the card -/
  place : UInt32 → Nat
  /-- the places that are decoded as memory -/
  window : Nat
  vramBytes : σ → Nat
  /-- the bytes of the memory are not what the guest sees -/
  packed : σ → Bool

inductive VramWrite where
  | byte (offset : UInt32) (value : UInt8)
  | word (offset : UInt32) (value : UInt16)
  | long (offset : UInt32) (value : UInt32)
  deriving DecidableEq, Repr

namespace VramWrite

def offset : VramWrite → UInt32
  | byte offset _ => offset
  | word offset _ => offset
  | long offset _ => offset

def bytes : VramWrite → List UInt8
  | byte _ value => [value]
  | word _ value => bytes16 value
  | long _ value => bytes32 value

theorem length_bytes (w : VramWrite) : w.bytes.length ≤ 4 := by
  cases w with
  | byte => exact Nat.succ_le_succ (Nat.zero_le _)
  | word => exact Nat.le_of_ble_eq_true rfl
  | long => exact Nat.le_refl 4

end VramWrite

namespace Accesses

variable {σ : Type} (a : Accesses σ)

def write (s : σ) : VramWrite → Option σ
  | .byte offset value => a.write8 s offset value
  | .word offset value => a.write16 s offset value
  | .long offset value => a.write32 s offset value

/-- The places that a write goes to, and what is written there. -/
def cells (w : VramWrite) : Nat × List UInt8 := (a.place w.offset, w.bytes)

/-- The card's memory at an offset is memory at every width. -/
structure MemoryAt (s : σ) (offset : UInt32) : Prop where
  word : ∀ value, a.write16 s offset value = writeBytes a.write8 s offset (bytes16 value)
  long : ∀ value, a.write32 s offset value = writeBytes a.write8 s offset (bytes32 value)
  reads : (a.read8 s offset).isSome ∧ (a.read16 s offset).isSome ∧ (a.read32 s offset).isSome
  writes : (∀ value, (a.write8 s offset value).isSome) ∧ (∀ value, (a.write16 s offset value).isSome) ∧
    ∀ value, (a.write32 s offset value).isSome
  last : a.place offset < a.vramBytes s →
    ∀ (ws : List VramWrite) (s' : σ), (∀ w ∈ ws, a.place w.offset < a.window) →
      Along a.write (fun s => a.packed s = false) s ws → ws.foldlM a.write s = some s' →
      ∀ b, lastWritten (a.place offset) (ws.map a.cells) = some b →
        (a.read8 s' offset).map Prod.fst = some b

end Accesses

/-- Where every byte write of a card goes to its own place, a sequence of them goes to
    consecutive places. -/
theorem writeBytes_cells {σ : Type} {write8 : σ → UInt32 → UInt8 → Option σ} {place : UInt32 → Nat}
    {limit target : Nat} {view : σ → Option UInt8} {I : σ → Prop}
    (hplace : ∀ offset, place offset + 1 < limit → place (offset + 1) = place offset + 1)
    (hstep : ∀ {s s' offset value}, I s → place offset < limit → write8 s offset value = some s' →
      I s' ∧ view s' = if target = place offset then some value else view s)
    (bytes : List UInt8) : ∀ {s s' : σ} {offset : UInt32}, I s → place offset + bytes.length ≤ limit →
      writeBytes write8 s offset bytes = some s' →
      I s' ∧ view s' = (cellAt (place offset, bytes) target).or (view s) := by
  induction bytes with
  | nil =>
    intro s s' offset hI _ hw
    cases hw
    rw [cellAt_nil, Option.none_or]
    exact ⟨hI, rfl⟩
  | cons b bs ih =>
    intro s s' offset hI hfit hw
    rw [List.length_cons] at hfit
    obtain ⟨t, ht, hrest⟩ := Option.bind_eq_some_iff.1 hw
    obtain ⟨hIt, hview⟩ := hstep hI (by omega) ht
    rw [cellAt_cons]
    rcases Nat.eq_zero_or_pos bs.length with hnil | hpos
    · rw [List.length_eq_zero_iff] at hnil
      subst hnil
      cases hrest
      rw [hview, cellAt_nil]
      refine ⟨hIt, ?_⟩
      split_ifs <;> rfl
    · have hnext := hplace offset (by omega)
      obtain ⟨hI', hview'⟩ := ih hIt (by omega) hrest
      refine ⟨hI', ?_⟩
      rw [hview', hnext, hview]
      by_cases he : target = place offset
      · have hnone : cellAt (place offset + 1, bs) target = none := by
          unfold cellAt
          rw [if_neg (by dsimp only; omega)]
        rw [if_pos he, if_pos he, hnone]
        rfl
      · rw [if_neg he, if_neg he]

/-! ## The Macintosh II card -/

namespace MacintoshIIVideoCard

open MacintoshII

/-- Where an offset is in the megabyte that the card decodes. -/
def place (offset : UInt32) : Nat := (offset &&& localMask).toNat

def accesses : Accesses MacintoshIIVideoCard where
  read8 := read8
  read16 := read16
  read32 := read32
  write8 := write8
  write16 := write16
  write32 := write32
  place := place
  window := 0x80000
  vramBytes _ := MacintoshII.vramBytes
  packed _ := false

variable {s s' : MacintoshIIVideoCard} {offset : UInt32}

theorem place_eq (offset : UInt32) : place offset = offset.toNat % 0x100000 := by
  unfold place localMask
  rw [UInt32.toNat_and]
  exact Nat.and_two_pow_sub_one_eq_mod offset.toNat 20

theorem place_add {n : Nat} (h : place offset + n < 0x100000) :
    place (offset + UInt32.ofNat n) = place offset + n := by
  rw [place_eq] at h
  rw [place_eq, place_eq, UInt32.toNat_add, UInt32.toNat_ofNat']
  omega

theorem inVram_iff (offset : UInt32) : offset &&& localMask < 0x80000 ↔ place offset < 0x80000 := by
  rw [UInt32.lt_iff_toNat_lt]
  rfl

theorem writeVram_of_lt {index : Nat} (h : index < MacintoshII.vramBytes) (byte : UInt8) :
    s.writeVram index byte = some { s with vram := s.vram.set index byte } := dif_pos h

theorem writeVram_of_ge {index : Nat} (h : MacintoshII.vramBytes ≤ index) (byte : UInt8) :
    s.writeVram index byte = none := dif_neg (Nat.not_lt.2 h)

theorem write8_vram (h : place offset < MacintoshII.vramBytes) (value : UInt8) :
    s.write8 offset value = some { s with vram := s.vram.set (place offset) (value ^^^ 0xff) } := by
  unfold write8
  rw [if_pos ((inVram_iff offset).2 h)]
  exact writeVram_of_lt h _

@[simp] theorem writeTfb_vram (s : MacintoshIIVideoCard) (localOffset : UInt32) (value : UInt8) :
    (s.writeTfb localOffset value).vram = s.vram := by
  unfold writeTfb updateMode
  dsimp only
  split_ifs <;> rfl

@[simp] theorem writeRamdac_vram (s : MacintoshIIVideoCard) (index : UInt32) (value : UInt8) :
    (s.writeRamdac index value).vram = s.vram := by
  unfold writeRamdac
  dsimp only
  split_ifs <;> rfl

@[simp] theorem writeVbl_vram (s : MacintoshIIVideoCard) (localOffset : UInt32) :
    (s.writeVbl localOffset).vram = s.vram := by
  unfold writeVbl
  dsimp only
  split_ifs <;> rfl

/-- Writes behind the memory leave it alone. -/
theorem write8_of_ge (h : MacintoshII.vramBytes ≤ place offset) (value : UInt8) :
    ∃ s', s.write8 offset value = some s' ∧ s'.vram = s.vram := by
  unfold write8
  rw [if_neg (fun hin => absurd ((inVram_iff offset).1 hin) (Nat.not_lt.2 h))]
  by_cases h1 : offset &&& localMask < 0x90000
  · exact ⟨_, if_pos h1, writeTfb_vram _ _ _⟩
  · rw [if_neg h1]
    by_cases h2 : offset &&& localMask < 0x90020
    · rw [if_pos h2]
      split_ifs
      · exact ⟨_, rfl, writeRamdac_vram _ _ _⟩
      · exact ⟨_, rfl, rfl⟩
    · rw [if_neg h2]
      split_ifs
      · exact ⟨_, rfl, writeVbl_vram _ _⟩
      · exact ⟨_, rfl, rfl⟩

theorem write8_isSome (s : MacintoshIIVideoCard) (offset : UInt32) (value : UInt8) :
    (s.write8 offset value).isSome := by
  rcases Nat.lt_or_ge (place offset) MacintoshII.vramBytes with h | h
  · rw [write8_vram h]
    rfl
  · obtain ⟨s', hs', -⟩ := write8_of_ge (s := s) h value
    rw [hs']
    rfl

/-- The byte that the guest sees at a place. -/
def view (p : Nat) (s : MacintoshIIVideoCard) : Option UInt8 := s.vram[p]?.map (· ^^^ 0xff)

theorem write8_view {p : Nat} (hp : p < MacintoshII.vramBytes) {value : UInt8}
    (hw : s.write8 offset value = some s') :
    view p s' = if p = place offset then some value else view p s := by
  rcases Nat.lt_or_ge (place offset) MacintoshII.vramBytes with h | h
  · rw [write8_vram h, Option.some_inj] at hw
    subst hw
    unfold view
    dsimp only
    rw [Vector.getElem?_set]
    by_cases he : p = place offset
    · rw [if_pos he, if_pos he.symm, Option.map_some, UInt8.xor_assoc, UInt8.xor_self, UInt8.xor_zero]
    · rw [if_neg he, if_neg (Ne.symm he)]
  · obtain ⟨t, ht, hvram⟩ := write8_of_ge (s := s) h value
    rw [ht, Option.some_inj] at hw
    subst hw
    rw [if_neg (by omega), view, hvram, view]

theorem writeBytes_view {p : Nat} (hp : p < MacintoshII.vramBytes) (bytes : List UInt8)
    (hfit : place offset + bytes.length ≤ 0x100000)
    (hw : writeBytes write8 s offset bytes = some s') :
    view p s' = (cellAt (place offset, bytes) p).or (view p s) :=
  (writeBytes_cells (I := fun _ => True) (fun _ h => place_add (n := 1) h)
    (fun _ _ hw => ⟨trivial, write8_view hp hw⟩) bytes trivial hfit hw).2

/-- Bytes that fit go where byte writes put them. -/
theorem writeVramBytes_eq (bytes : List UInt8) :
    ∀ {s : MacintoshIIVideoCard} {offset : UInt32}, place offset + bytes.length ≤ 0x80000 →
      s.writeVramBytes (place offset) bytes = writeBytes write8 s offset bytes := by
  induction bytes with
  | nil => exact fun {s offset} _ => rfl
  | cons b bs ih =>
    intro s offset hfit
    rw [List.length_cons] at hfit
    have hin : place offset < MacintoshII.vramBytes := by
      unfold MacintoshII.vramBytes
      omega
    have hnext : place (offset + 1) = place offset + 1 := place_add (n := 1) (by omega)
    rw [writeVramBytes, writeBytes, write8_vram hin, writeVram_of_lt hin, Option.bind_some,
      Option.bind_some, ← hnext]
    exact ih (by omega)

/-- Bytes that do not fit are written behind the memory. -/
theorem writeVramBytes_none (bytes : List UInt8) :
    ∀ {s : MacintoshIIVideoCard} {index : Nat}, index ≤ 0x80000 → 0x80000 < index + bytes.length →
      s.writeVramBytes index bytes = none := by
  induction bytes with
  | nil =>
    intro s index hle hlt
    rw [List.length_nil] at hlt
    omega
  | cons b bs ih =>
    intro s index hle hlt
    rw [List.length_cons] at hlt
    rw [writeVramBytes]
    rcases Nat.lt_or_ge index MacintoshII.vramBytes with hin | hout
    · rw [writeVram_of_lt hin, Option.bind_some]
      unfold MacintoshII.vramBytes at hin
      exact ih (by omega) (by omega)
    · rw [writeVram_of_ge hout]
      rfl

theorem write32_vram (h : place offset < 0x80000) (value : UInt32) :
    s.write32 offset value = s.writeVramBytes (place offset) (bytes32 value) := by
  unfold write32
  rw [if_pos ((inVram_iff offset).2 h)]
  rfl

theorem read8_isSome (s : MacintoshIIVideoCard) (offset : UInt32) : (s.read8 offset).isSome := by
  unfold read8
  dsimp only
  split_ifs with hrom hvram
  · have hlen : s.declarationRom.length = mappedDeclarationRomBytes := by
      simpa [declarationRomLoaded] using hrom.2
    have hin : offset.toNat % mappedDeclarationRomBytes < s.declarationRom.length := by
      rw [hlen]
      exact Nat.mod_lt _ (by decide)
    rw [List.getElem?_eq_getElem hin]
    rfl
  · have hin : (offset &&& localMask).toNat < MacintoshII.vramBytes := (inVram_iff offset).1 hvram
    unfold readVram
    rw [Vector.getElem?_eq_getElem hin]
    rfl
  all_goals rfl

/-- The declaration ROM is above the memory. -/
theorem read8_view (hoff : offset.toNat < 0x1000000) (h : place offset < 0x80000) :
    (s.read8 offset).map Prod.fst = view (place offset) s := by
  unfold read8
  have hrom : ¬ (declarationRomBase ≤ offset ∧ s.declarationRomLoaded = true) := by
    rintro ⟨hle, -⟩
    rw [UInt32.le_iff_toNat_le, show declarationRomBase.toNat = 0xffc000 from rfl] at hle
    rw [place_eq] at h
    omega
  dsimp only
  rw [if_neg hrom, if_pos ((inVram_iff offset).2 h), Option.map_map]
  rfl

/-- A write into the memory, as it is seen there. -/
theorem write_view {p : Nat} (hp : p < MacintoshII.vramBytes) {w : VramWrite} (hin : place w.offset < 0x80000)
    (hw : accesses.write s w = some s') :
    view p s' = (cellAt (accesses.cells w) p).or (view p s) := by
  have hlen := w.length_bytes
  have hfit : place w.offset + w.bytes.length ≤ 0x100000 := by omega
  cases w with
  | byte offset value =>
    have hbytes : writeBytes write8 s offset [value] = some s' := by
      rw [writeBytes, show s.write8 offset value = some s' from hw]
      rfl
    exact writeBytes_view hp _ hfit hbytes
  | word offset value =>
    have hbytes : writeBytes write8 s offset (bytes16 value) = some s' :=
      (NuBusCard.write16_eq write8 s offset value).symm.trans hw
    exact writeBytes_view hp _ hfit hbytes
  | long offset value =>
    have hlong : s.writeVramBytes (place offset) (bytes32 value) = some s' :=
      (write32_vram hin value).symm.trans hw
    rcases Nat.lt_or_ge 0x80000 (place offset + (bytes32 value).length) with hlt | hge
    · have hnone := writeVramBytes_none (s := s) (bytes32 value) (Nat.le_of_lt hin) hlt
      cases hnone.symm.trans hlong
    · exact writeBytes_view hp _ hfit ((writeVramBytes_eq _ hge).symm.trans hlong)

/-- The memory is memory but for the last three bytes. -/
theorem memoryAt_iff (s : MacintoshIIVideoCard) (hoff : offset.toNat < 0x1000000)
    (hin : place offset < 0x80000) :
    accesses.MemoryAt s offset ↔ place offset + 4 ≤ 0x80000 := by
  constructor
  · intro h
    by_contra hfit
    have hsome := h.writes.2.2 0
    rw [show accesses.write32 s offset 0 = none from (write32_vram hin 0).trans
      (writeVramBytes_none _ (by omega) (by simp only [bytes32, List.length_cons, List.length_nil]; omega))]
      at hsome
    cases hsome
  · intro hfit
    have hlong : ∀ value, s.write32 offset value = writeBytes write8 s offset (bytes32 value) := by
      intro value
      rw [write32_vram hin]
      exact writeVramBytes_eq _ hfit
    refine ⟨NuBusCard.write16_eq write8 s offset, hlong, ⟨read8_isSome s offset,
      NuBusCard.read32_isSome read8_isSome s offset⟩, ⟨write8_isSome s offset, fun value => ?_,
      fun value => ?_⟩, ?_⟩
    · have hsome := writeBytes_isSome write8_isSome (bytes16 value) s offset
      rwa [← NuBusCard.write16_eq] at hsome
    · have hsome := writeBytes_isSome write8_isSome (bytes32 value) s offset
      rwa [← hlong] at hsome
    · intro _ ws s' hws halong hrun b hb
      have hview : view (place offset) s'
          = (lastWritten (place offset) (ws.map accesses.cells)).or (view (place offset) s) := by
        refine run_lastWritten ?_ hws halong hrun
        intro s s' w hw _ _ hstep
        exact write_view hin hw hstep
      show (s'.read8 offset).map Prod.fst = some b
      rw [read8_view hoff hin, hview, show lastWritten (place offset) (ws.map accesses.cells) = some b from hb]
      rfl

end MacintoshIIVideoCard

/-! ## The Apple card -/

namespace AppleDisplayCard

open AppleDisplay ByteLanes

/-- Where an offset is in the space of the slot. -/
def place (offset : UInt32) : Nat := (offset &&& 0x00ffffff).toNat

def accesses : Accesses AppleDisplayCard where
  read8 := read8
  read16 := read16
  read32 := read32
  write8 := write8
  write16 := write16
  write32 := write32
  place := place
  window := 0x200000
  vramBytes := vramBytes
  packed := directRgbActive

variable {s s' : AppleDisplayCard} {offset : UInt32}

theorem place_eq (offset : UInt32) : place offset = offset.toNat % 0x1000000 := by
  unfold place
  rw [UInt32.toNat_and]
  exact Nat.and_two_pow_sub_one_eq_mod offset.toNat 24

theorem place_add {n : Nat} (h : place offset + n < 0x1000000) :
    place (offset + UInt32.ofNat n) = place offset + n := by
  rw [place_eq] at h
  rw [place_eq, place_eq, UInt32.toNat_add, UInt32.toNat_ofNat']
  omega

theorem inWindow_iff (offset : UInt32) :
    offset &&& 0x00ffffff < vramWindowLimit ↔ place offset < 0x200000 := by
  rw [UInt32.lt_iff_toNat_lt]
  rfl

theorem vramBytes_le (s : AppleDisplayCard) : s.vramBytes ≤ 0x100000 := by
  unfold vramBytes clampVramKiB
  split_ifs <;> decide

/-- A byte of the memory. -/
def view (p : Nat) (s : AppleDisplayCard) : Option UInt8 := s.vram[p]?

theorem view_of_lt {p : Nat} (h : p < s.vramBytes) : ∃ b, view p s = some b :=
  ⟨_, Vector.getElem?_eq_getElem h⟩

/-- A byte is put into the memory, if it falls there. -/
def put (s : AppleDisplayCard) (index : Nat) (byte : UInt8) : AppleDisplayCard :=
  { s with vram := s.vram.setIfInBounds index byte }

@[simp] theorem put_vramBytes (s : AppleDisplayCard) (index : Nat) (byte : UInt8) :
    (s.put index byte).vramBytes = s.vramBytes := rfl

@[simp] theorem put_vramKiB (s : AppleDisplayCard) (index : Nat) (byte : UInt8) :
    (s.put index byte).vramKiB = s.vramKiB := rfl

@[simp] theorem put_directRgbActive (s : AppleDisplayCard) (index : Nat) (byte : UInt8) :
    (s.put index byte).directRgbActive = s.directRgbActive := rfl

@[simp] theorem put_control (s : AppleDisplayCard) (index : Nat) (byte : UInt8) :
    (s.put index byte).control = s.control := rfl

theorem view_put (p index : Nat) (byte : UInt8) (s : AppleDisplayCard) :
    view p (s.put index byte) = if p = index ∧ p < s.vramBytes then some byte else view p s := by
  unfold view put
  dsimp only
  rw [Vector.getElem?_setIfInBounds]
  by_cases hp : p = index
  · subst hp
    rw [if_pos rfl]
    by_cases hin : p < s.vramBytes
    · rw [if_pos hin, if_pos ⟨rfl, hin⟩]
    · rw [if_neg hin, if_neg (fun h => hin h.2), Vector.getElem?_eq_none (Nat.not_lt.1 hin)]
  · rw [if_neg (Ne.symm hp), if_neg fun h => hp h.1]

theorem put_of_ge {index : Nat} (h : s.vramBytes ≤ index) (byte : UInt8) : s.put index byte = s := by
  unfold put
  rw [Vector.setIfInBounds_eq_of_size_le h]

theorem put_self {index : Nat} {byte : UInt8} (h : view index s = some byte) : s.put index byte = s := by
  have hvram : s.vram.setIfInBounds index byte = s.vram := by
    refine Vector.ext fun i hi => ?_
    rw [Vector.getElem_setIfInBounds hi]
    split_ifs with he
    · subst he
      unfold view at h
      rw [Vector.getElem?_eq_getElem hi, Option.some_inj] at h
      exact h.symm
    · rfl
  unfold put
  rw [hvram]

theorem writeVram_of_lt {index : Nat} (h : index < s.vramBytes) (byte : UInt8) :
    s.writeVram index byte = some (s.put index byte) := by
  have hvram : s.vram.set index byte h = s.vram.setIfInBounds index byte := by
    refine Vector.ext fun i hi => ?_
    rw [Vector.getElem_setIfInBounds hi, Vector.getElem_set h hi]
  unfold writeVram put
  rw [← hvram]
  exact dif_pos h

/-! ## The registers -/

/-- What no write changes. -/
structure SameCard (s s' : AppleDisplayCard) : Prop where
  vramKiB : s'.vramKiB = s.vramKiB
  declarationRom : s'.declarationRom = s.declarationRom

theorem SameCard.trans {s'' : AppleDisplayCard} (h : SameCard s s') (h' : SameCard s' s'') :
    SameCard s s'' :=
  ⟨h'.1.trans h.1, h'.2.trans h.2⟩

theorem put_same (s : AppleDisplayCard) (index : Nat) (byte : UInt8) : SameCard s (s.put index byte) :=
  ⟨rfl, rfl⟩

/-- The memory is left as it is. -/
structure SameMemory (s s' : AppleDisplayCard) : Prop extends SameCard s s' where
  view : ∀ p, view p s' = view p s

theorem SameMemory.updateRaster (h : SameMemory s s') : SameMemory s s'.updateRaster := by
  unfold AppleDisplayCard.updateRaster
  by_cases hnone : s'.vtotal = 0 ∨ s'.crtc.vactive = 0 ∨ s'.preload = 256
  · rw [if_pos hnone]
    exact h
  · rw [if_neg hnone]
    exact ⟨⟨h.vramKiB, h.declarationRom⟩, h.view⟩

theorem writeJmfb_same (s : AppleDisplayCard) (index data : UInt32) :
    SameMemory s (s.writeJmfb index data) := by
  unfold writeJmfb
  dsimp only
  split_ifs
  · exact ⟨⟨rfl, rfl⟩, fun _ => rfl⟩
  · exact ⟨⟨rfl, rfl⟩, fun _ => rfl⟩
  · exact SameMemory.updateRaster ⟨⟨rfl, rfl⟩, fun _ => rfl⟩
  · exact ⟨⟨rfl, rfl⟩, fun _ => rfl⟩
  · exact ⟨⟨rfl, rfl⟩, fun _ => rfl⟩
  · exact ⟨⟨rfl, rfl⟩, fun _ => rfl⟩

theorem writeCrtc_same (s : AppleDisplayCard) (index data : UInt32) :
    SameMemory s (s.writeCrtc index data) := by
  unfold writeCrtc
  dsimp only
  split
  all_goals first
    | exact ⟨⟨rfl, rfl⟩, fun _ => rfl⟩
    | exact SameMemory.updateRaster ⟨⟨rfl, rfl⟩, fun _ => rfl⟩

theorem writeRamdac_same (s : AppleDisplayCard) (index data : UInt32) :
    SameMemory s (s.writeRamdac index data) := by
  unfold writeRamdac
  dsimp only
  split_ifs
  · exact ⟨⟨rfl, rfl⟩, fun _ => rfl⟩
  · exact ⟨⟨rfl, rfl⟩, fun _ => rfl⟩
  · exact ⟨⟨rfl, rfl⟩, fun _ => rfl⟩
  · exact SameMemory.updateRaster ⟨⟨rfl, rfl⟩, fun _ => rfl⟩
  · exact ⟨⟨rfl, rfl⟩, fun _ => rfl⟩

theorem writeClockGenerator_same (s : AppleDisplayCard) (index data : UInt32) :
    SameMemory s (s.writeClockGenerator index data) := by
  unfold writeClockGenerator
  dsimp only
  split_ifs
  · exact SameMemory.updateRaster ⟨⟨rfl, rfl⟩, fun _ => rfl⟩
  · exact SameMemory.updateRaster ⟨⟨rfl, rfl⟩, fun _ => rfl⟩
  · exact SameMemory.updateRaster ⟨⟨rfl, rfl⟩, fun _ => rfl⟩
  · exact ⟨⟨rfl, rfl⟩, fun _ => rfl⟩

theorem writeRegister_same (s : AppleDisplayCard) (localOffset data : UInt32) :
    SameMemory s (s.writeRegister localOffset data) := by
  unfold writeRegister
  split_ifs
  · exact writeJmfb_same _ _ _
  · exact writeCrtc_same _ _ _
  · exact writeRamdac_same _ _ _
  · exact writeClockGenerator_same _ _ _
  · exact ⟨⟨rfl, rfl⟩, fun _ => rfl⟩

theorem write8_register (h : 0x200000 ≤ place offset) (value : UInt8) :
    s.write8 offset value
      = some (s.writeRegister (offset &&& 0x00ffffff) (smearRegisterByte value)) := by
  unfold write8
  exact if_neg fun hin => absurd ((inWindow_iff offset).1 hin) (Nat.not_lt.2 h)

/-- What a byte write makes of the control register. -/
def controlOf (value : UInt8) : UInt16 := ((smearRegisterByte value) &&& 0xffff).toUInt16 &&& 0x7fff

theorem writeJmfb_control (s : AppleDisplayCard) (data : UInt32) :
    (s.writeJmfb 0 data).control = (data &&& 0xffff).toUInt16 &&& 0x7fff := by
  unfold writeJmfb
  dsimp only
  rw [if_pos rfl]
  split_ifs <;> rfl

/-- The bytes behind the window are those of the control register. -/
theorem write8_control (h : 0x200000 ≤ place offset) (h' : place offset < 0x200004) (value : UInt8) :
    ∃ s', s.write8 offset value = some s' ∧ s'.control = controlOf value := by
  refine ⟨_, write8_register h value, ?_⟩
  have hlane : offset &&& 0x00ffffff = 0x200000 ∨ offset &&& 0x00ffffff = 0x200001 ∨
      offset &&& 0x00ffffff = 0x200002 ∨ offset &&& 0x00ffffff = 0x200003 := by
    simp only [← UInt32.toNat_inj]
    have h0 : (0x200000 : UInt32).toNat = 0x200000 := rfl
    have h1 : (0x200001 : UInt32).toNat = 0x200001 := rfl
    have h2 : (0x200002 : UInt32).toNat = 0x200002 := rfl
    have h3 : (0x200003 : UInt32).toNat = 0x200003 := rfl
    unfold place at h h'
    omega
  unfold writeRegister
  rcases hlane with e | e | e | e
  all_goals
    rw [e, if_pos (by decide)]
    exact writeJmfb_control s _

/-! ## The direct RGB mode -/

theorem toNat_lane (x : UInt32) : (x &&& 3).toNat = x.toNat % 4 := by
  rw [UInt32.toNat_and]
  exact Nat.and_two_pow_sub_one_eq_mod x.toNat 2

theorem colorOffset_group (x : UInt32) : colorOffset (x &&& ~~~3) = colorOffset x := by
  have hsame : Pages.SamePage 2 (x &&& ~~~3) x := by
    rw [← Pages.frame_inj (n := 2) (by decide) (by decide), show Pages.lowMask 2 = 3 from rfl,
      UInt32.and_assoc, UInt32.and_self]
  unfold colorOffset
  rw [show (x &&& ~~~3).toNat / 4 = x.toNat / 4 from hsame]

theorem bytes32_lanes (value : UInt32) :
    bytes32 value = [lane 24 value, lane 16 value, lane 8 value, lane 0 value] := by
  unfold bytes32 lane
  rw [UInt32.shiftRight_zero]

theorem packedRgbWrite32_in {x : UInt32} (h : colorOffset x + 2 < s.vramBytes) (value : UInt32) :
    s.packedRgbWrite32 x value = some (((s.put (colorOffset x) (lane 16 value)).put (colorOffset x + 1)
      (lane 8 value)).put (colorOffset x + 2) (lane 0 value)) := by
  unfold packedRgbWrite32
  dsimp only
  rw [if_neg (Nat.not_le.2 h), writeVram_of_lt (by omega), Option.bind_some,
    writeVram_of_lt (by rw [put_vramBytes]; omega), Option.bind_some,
    writeVram_of_lt (by rw [put_vramBytes, put_vramBytes]; exact h)]
  have h0 : value.toUInt8 = lane 0 value := by
    unfold lane
    rw [UInt32.shiftRight_zero]
  rw [h0]
  rfl

theorem packedRgbWrite32_out {x : UInt32} (h : s.vramBytes ≤ colorOffset x + 2) (value : UInt32) :
    s.packedRgbWrite32 x value = some s := if_pos h

/-- Where a byte of a pixel is; the first one of four is not kept. -/
def packedPlace (p : Nat) : Nat := p / 4 * 3 + p % 4 - 1

/-- A byte write in the direct mode. -/
theorem write8_direct (hd : s.directRgbActive = true) (h : place offset < 0x200000) (value : UInt8) :
    s.write8 offset value = some (if place offset % 4 = 0 ∨ s.vramBytes ≤ place offset / 4 * 3 + 2 then s
      else s.put (packedPlace (place offset)) value) := by
  have hcolor : colorOffset (offset &&& 0x00ffffff &&& ~~~3) = place offset / 4 * 3 :=
    colorOffset_group _
  have hlane : (offset &&& 0x00ffffff &&& 3).toNat = place offset % 4 := toNat_lane _
  unfold write8
  dsimp only
  rw [if_pos ((inWindow_iff offset).2 h), if_pos hd]
  rcases Nat.lt_or_ge (place offset / 4 * 3 + 2) s.vramBytes with hin | hout
  · obtain ⟨c, hc⟩ : ∃ c, c = place offset / 4 * 3 := ⟨_, rfl⟩
    rw [← hc] at hcolor hin
    obtain ⟨r, hr⟩ := view_of_lt (s := s) (p := c) (by omega)
    obtain ⟨g, hg⟩ := view_of_lt (s := s) (p := c + 1) (by omega)
    obtain ⟨b, hb⟩ := view_of_lt hin
    have hread : s.packedRgbRead32 (offset &&& 0x00ffffff &&& ~~~3) = some (join r g b) := by
      unfold packedRgbRead32
      rw [hcolor]
      dsimp only
      rw [if_neg (Nat.not_le.2 hin), show s.vram[c]? = some r from hr,
        show s.vram[c + 1]? = some g from hg, show s.vram[c + 2]? = some b from hb]
      rfl
    rw [hread, Option.bind_some]
    show s.packedRgbWrite32 (offset &&& 0x00ffffff &&& ~~~3)
      (ByteLanes.put (24 - (offset &&& 0x00ffffff &&& 3) * 8) (join r g b) value) = _
    rw [packedRgbWrite32_in (by rw [hcolor]; exact hin), hcolor]
    obtain ⟨h16, h8, h0⟩ := lane_join r g b
    have hother : ∀ {t : AppleDisplayCard} {i j : Nat} {x y : UInt8}, j ≠ i → view j t = some y →
        (t.put i x).put j y = t.put i x := by
      intro t i j x y hne hview
      refine put_self ?_
      rw [view_put, if_neg fun h => hne h.1]
      exact hview
    have hcases : place offset % 4 = 0 ∨ place offset % 4 = 1 ∨ place offset % 4 = 2 ∨
        place offset % 4 = 3 := by omega
    unfold packedPlace
    rcases hcases with hk | hk | hk | hk
    · have hl : offset &&& 0x00ffffff &&& 3 = 0 := UInt32.toNat_inj.1 (hlane.trans hk)
      rw [hl, show (24 - (0 : UInt32) * 8) = 24 from rfl, lane_put (by decide) (by decide) rfl rfl,
        lane_put (by decide) (by decide) rfl rfl, lane_put (by decide) (by decide) rfl rfl,
        if_neg (by decide), if_neg (by decide), if_neg (by decide), h16, h8, h0, put_self hr,
        put_self hg, put_self hb, if_pos (Or.inl hk)]
    · have hl : offset &&& 0x00ffffff &&& 3 = 1 := UInt32.toNat_inj.1 (hlane.trans hk)
      have hne : ¬ (place offset % 4 = 0 ∨ s.vramBytes ≤ c + 2) := by omega
      rw [hl, show (24 - (1 : UInt32) * 8) = 16 from rfl, lane_put (by decide) (by decide) rfl rfl,
        lane_put (by decide) (by decide) rfl rfl, lane_put (by decide) (by decide) rfl rfl,
        if_pos rfl, if_neg (by decide), if_neg (by decide), h8, h0, hother (by omega) hg,
        hother (by omega) hb, ← hc, if_neg hne, hk]
      rfl
    · have hl : offset &&& 0x00ffffff &&& 3 = 2 := UInt32.toNat_inj.1 (hlane.trans hk)
      have hne : ¬ (place offset % 4 = 0 ∨ s.vramBytes ≤ c + 2) := by omega
      rw [hl, show (24 - (2 : UInt32) * 8) = 8 from rfl, lane_put (by decide) (by decide) rfl rfl,
        lane_put (by decide) (by decide) rfl rfl, lane_put (by decide) (by decide) rfl rfl,
        if_neg (by decide), if_pos rfl, if_neg (by decide), h16, h0, put_self hr,
        hother (by omega) hb, ← hc, if_neg hne, hk]
      rfl
    · have hl : offset &&& 0x00ffffff &&& 3 = 3 := UInt32.toNat_inj.1 (hlane.trans hk)
      have hne : ¬ (place offset % 4 = 0 ∨ s.vramBytes ≤ c + 2) := by omega
      rw [hl, show (24 - (3 : UInt32) * 8) = 0 from rfl, lane_put (by decide) (by decide) rfl rfl,
        lane_put (by decide) (by decide) rfl rfl, lane_put (by decide) (by decide) rfl rfl,
        if_neg (by decide), if_neg (by decide), if_pos rfl, h16, h8, put_self hr, put_self hg, ← hc,
        if_neg hne, hk]
      rfl
  · have hread : s.packedRgbRead32 (offset &&& 0x00ffffff &&& ~~~3) = some 0 := by
      unfold packedRgbRead32
      rw [hcolor]
      exact if_pos hout
    rw [hread, Option.bind_some, packedRgbWrite32_out (by rw [hcolor]; exact hout),
      if_pos (Or.inr hout)]

/-! ## Writes, as they are seen in the memory -/

theorem write8_plain (hd : s.directRgbActive = false) (h : place offset < 0x200000) (value : UInt8) :
    s.write8 offset value = some (s.put (place offset) value) := by
  unfold write8
  dsimp only
  rw [if_pos ((inWindow_iff offset).2 h), if_neg (by rw [hd]; decide)]
  show (if place offset < s.vramBytes then s.writeVram (place offset) value else some s) = _
  rcases Nat.lt_or_ge (place offset) s.vramBytes with hin | hout
  · rw [if_pos hin, writeVram_of_lt hin]
  · rw [if_neg (Nat.not_lt.2 hout), put_of_ge hout]

theorem write8_isSome (s : AppleDisplayCard) (offset : UInt32) (value : UInt8) :
    (s.write8 offset value).isSome := by
  rcases Nat.lt_or_ge (place offset) 0x200000 with h | h
  · cases hd : s.directRgbActive with
    | false =>
      rw [write8_plain hd h]
      rfl
    | true =>
      rw [write8_direct hd h]
      rfl
  · rw [write8_register h]
    rfl

theorem write8_same {value : UInt8} (hw : s.write8 offset value = some s') : SameCard s s' := by
  rcases Nat.lt_or_ge (place offset) 0x200000 with h | h
  · cases hd : s.directRgbActive with
    | false =>
      rw [write8_plain hd h, Option.some_inj] at hw
      rw [← hw]
      exact put_same _ _ _
    | true =>
      rw [write8_direct hd h, Option.some_inj] at hw
      rw [← hw]
      split_ifs
      · exact ⟨rfl, rfl⟩
      · exact put_same _ _ _
  · rw [write8_register h, Option.some_inj] at hw
    rw [← hw]
    exact (writeRegister_same _ _ _).toSameCard

/-- A byte write outside the direct mode, or behind the window. -/
theorem write8_view {p : Nat} (hp : p < s.vramBytes)
    (hplain : place offset < 0x200000 → s.directRgbActive = false) {value : UInt8}
    (hw : s.write8 offset value = some s') :
    view p s' = if p = place offset then some value else view p s := by
  rcases Nat.lt_or_ge (place offset) 0x200000 with h | h
  · rw [write8_plain (hplain h) h, Option.some_inj] at hw
    rw [← hw, view_put]
    by_cases he : p = place offset
    · rw [if_pos ⟨he, hp⟩, if_pos he]
    · rw [if_neg fun hand => he hand.1, if_neg he]
  · have hle := s.vramBytes_le
    rw [write8_register h, Option.some_inj] at hw
    rw [← hw, (writeRegister_same _ _ _).view, if_neg (by omega)]

/-- Byte writes in the direct mode, as a byte of the memory sees them. -/
theorem writeBytes_direct {p : Nat} (hp : p / 3 * 3 + 2 < s.vramBytes)
    (hd : s.directRgbActive = true) {bytes : List UInt8} (hfit : place offset + bytes.length ≤ 0x200000)
    (hw : writeBytes write8 s offset bytes = some s') :
    view p s' = (cellAt (place offset, bytes) (p / 3 * 4 + p % 3 + 1)).or (view p s) := by
  refine (writeBytes_cells
    (I := fun t : AppleDisplayCard => t.directRgbActive = true ∧ p / 3 * 3 + 2 < t.vramBytes)
    (fun _ h => place_add (n := 1) (by omega)) ?_ bytes ⟨hd, hp⟩ hfit hw).2
  rintro t t' o value ⟨htd, htp⟩ hin ht
  rw [write8_direct htd hin, Option.some_inj] at ht
  rw [← ht]
  by_cases hnone : place o % 4 = 0 ∨ t.vramBytes ≤ place o / 4 * 3 + 2
  · rw [if_pos hnone]
    refine ⟨⟨htd, htp⟩, (if_neg ?_).symm⟩
    omega
  · rw [if_neg hnone, view_put]
    refine ⟨⟨htd, htp⟩, ?_⟩
    unfold packedPlace
    by_cases he : p / 3 * 4 + p % 3 + 1 = place o
    · rw [if_pos he, if_pos (by omega)]
    · rw [if_neg he, if_neg (by omega)]

/-- The lanes of a long outside the direct mode. -/
theorem writeLanes_cons (s : AppleDisplayCard) (index : Nat) (b : UInt8) (bs : List UInt8) :
    s.writeLanes index (b :: bs) = (s.put index b).writeLanes (index + 1) bs := by
  rw [writeLanes]
  rcases Nat.lt_or_ge index s.vramBytes with hin | hout
  · rw [if_pos hin, writeVram_of_lt hin, Option.bind_some]
  · rw [if_neg (Nat.not_lt.2 hout), put_of_ge hout]

theorem writeLanes_view (bytes : List UInt8) : ∀ (s : AppleDisplayCard) (index : Nat),
    ∃ s', s.writeLanes index bytes = some s' ∧ SameCard s s' ∧ s'.control = s.control ∧
      ∀ p < s.vramBytes, view p s' = (cellAt (index, bytes) p).or (view p s) := by
  induction bytes with
  | nil => exact fun s index => ⟨s, rfl, ⟨rfl, rfl⟩, rfl, fun p _ => by rw [cellAt_nil, Option.none_or]⟩
  | cons b bs ih =>
    intro s index
    obtain ⟨s', hs', hsame, hcontrol, hview⟩ := ih (s.put index b) (index + 1)
    refine ⟨s', (writeLanes_cons s index b bs).trans hs', (put_same s index b).trans hsame, hcontrol,
      fun p hp => ?_⟩
    rw [hview p hp, view_put, cellAt_cons]
    by_cases he : p = index
    · have hnone : cellAt (index + 1, bs) p = none := by
        unfold cellAt
        rw [if_neg (by dsimp only; omega)]
      rw [hnone, if_pos ⟨he, hp⟩, if_pos he]
      rfl
    · rw [if_neg fun h => he h.1, if_neg he]

/-- Outside the direct mode the lanes are byte writes, as far as they are in the window. -/
theorem writeLanes_eq (bytes : List UInt8) : ∀ {s : AppleDisplayCard} {offset : UInt32},
    s.directRgbActive = false → place offset + bytes.length ≤ 0x200000 →
      s.writeLanes (place offset) bytes = writeBytes write8 s offset bytes := by
  induction bytes with
  | nil => exact fun _ _ => rfl
  | cons b bs ih =>
    intro s offset hd hfit
    rw [List.length_cons] at hfit
    have hnext : place (offset + 1) = place offset + 1 := place_add (n := 1) (by omega)
    rw [writeLanes_cons, writeBytes, write8_plain hd (by omega), Option.bind_some, ← hnext]
    exact ih hd (by omega)

theorem notRegister (h : place offset < 0x200000) :
    ¬ (inJmfb (offset &&& 0x00ffffff) ∨ inCrtc (offset &&& 0x00ffffff) ∨
      inRamdac (offset &&& 0x00ffffff) ∨ inClockGenerator (offset &&& 0x00ffffff)) := by
  unfold inJmfb inCrtc inRamdac inClockGenerator
  simp only [UInt32.le_iff_toNat_le]
  have h1 : jmfbBase.toNat = 0x200000 := rfl
  have h2 : crtcBase.toNat = 0x200100 := rfl
  have h3 : ramdacBase.toNat = 0x200200 := rfl
  have h4 : clockGeneratorBase.toNat = 0x200300 := rfl
  unfold place at h
  rintro (⟨hle, -⟩ | ⟨hle, -⟩ | ⟨hle, -⟩ | ⟨hle, -⟩) <;> omega

/-- A word in the window is two byte writes. -/
theorem write16_eq (h : place offset < 0x200000) (value : UInt16) :
    s.write16 offset value = writeBytes write8 s offset (bytes16 value) := by
  unfold write16
  dsimp only
  rw [if_neg (notRegister h)]
  exact NuBusCard.write16_eq write8 s offset value

theorem write32_plain (hd : s.directRgbActive = false) (h : place offset < 0x200000) (value : UInt32) :
    s.write32 offset value = s.writeLanes (place offset) (bytes32 value) := by
  unfold write32
  dsimp only
  rw [if_pos ((inWindow_iff offset).2 h), if_neg (by rw [hd]; decide)]
  rfl

theorem write32_direct (hd : s.directRgbActive = true) (h : place offset < 0x200000) (value : UInt32) :
    s.write32 offset value = s.packedRgbWrite32 (offset &&& 0x00ffffff) value := by
  unfold write32
  dsimp only
  rw [if_pos ((inWindow_iff offset).2 h), if_pos hd]

theorem packedRgbWrite32_same (s : AppleDisplayCard) (x value : UInt32) :
    ∃ s', s.packedRgbWrite32 x value = some s' ∧ SameCard s s' := by
  rcases Nat.lt_or_ge (colorOffset x + 2) s.vramBytes with hin | hout
  · exact ⟨_, packedRgbWrite32_in hin value, ⟨rfl, rfl⟩⟩
  · exact ⟨s, packedRgbWrite32_out hout value, ⟨rfl, rfl⟩⟩

theorem write32_same (s : AppleDisplayCard) (offset value : UInt32) :
    ∃ s', s.write32 offset value = some s' ∧ SameCard s s' := by
  rcases Nat.lt_or_ge (place offset) 0x200000 with h | h
  · cases hd : s.directRgbActive with
    | false =>
      obtain ⟨s', hs', hsame, -, -⟩ := writeLanes_view (bytes32 value) s (place offset)
      exact ⟨s', (write32_plain hd h value).trans hs', hsame⟩
    | true =>
      obtain ⟨s', hs', hsame⟩ := packedRgbWrite32_same s (offset &&& 0x00ffffff) value
      exact ⟨s', (write32_direct hd h value).trans hs', hsame⟩
  · refine ⟨_, if_neg fun hin => ?_, (writeRegister_same _ _ _).toSameCard⟩
    exact absurd ((inWindow_iff offset).1 hin) (Nat.not_lt.2 h)

theorem write_same {w : VramWrite} (hin : place w.offset < 0x200000)
    (hw : accesses.write s w = some s') : SameCard s s' := by
  cases w with
  | byte offset value => exact write8_same hw
  | word offset value =>
    have hbytes := (write16_eq (s := s) hin value).symm.trans hw
    obtain ⟨t, ht, hrest⟩ := Option.bind_eq_some_iff.1 hbytes
    obtain ⟨t', ht', hlast⟩ := Option.bind_eq_some_iff.1 hrest
    cases hlast
    exact (write8_same ht).trans (write8_same ht')
  | long offset value =>
    obtain ⟨t, ht, hsame⟩ := write32_same s offset value
    cases ht.symm.trans hw
    exact hsame

/-- A write into the window outside the direct mode, as it is seen in the memory. -/
theorem write_view {p : Nat} (hp : p < s.vramBytes) (hd : s.directRgbActive = false) {w : VramWrite}
    (hin : place w.offset < 0x200000) (hw : accesses.write s w = some s') :
    view p s' = (cellAt (accesses.cells w) p).or (view p s) := by
  cases w with
  | byte offset value =>
    rw [write8_view hp (fun _ => hd) hw]
    show _ = (cellAt (place offset, [value]) p).or _
    rw [cellAt_cons, cellAt_nil]
    split_ifs <;> rfl
  | word offset value =>
    replace hin : place offset < 0x200000 := hin
    have hbytes := (write16_eq (s := s) hin value).symm.trans hw
    obtain ⟨t, ht, hrest⟩ := Option.bind_eq_some_iff.1 hbytes
    obtain ⟨t', ht', hlast⟩ := Option.bind_eq_some_iff.1 hrest
    cases hlast
    have hnext : place (offset + 1) = place offset + 1 := place_add (n := 1) (by omega)
    have hkib := (write8_same ht).vramKiB
    rw [write8_plain hd hin, Option.some_inj] at ht
    have htd : t.directRgbActive = false := by
      rw [← ht]
      exact hd
    have htp : p < t.vramBytes := by
      unfold vramBytes at hp ⊢
      rwa [hkib]
    rw [write8_view htp (fun _ => htd) ht', ← ht, view_put, hnext]
    show _ = (cellAt (place offset, bytes16 value) p).or _
    unfold bytes16
    rw [cellAt_cons, cellAt_cons, cellAt_nil]
    by_cases h1 : p = place offset
    · rw [if_neg (by omega), if_pos ⟨h1, hp⟩, if_pos h1]
      rfl
    · rw [if_neg h1, if_neg (show ¬ (p = place offset ∧ p < s.vramBytes) from fun h => h1 h.1)]
      split_ifs <;> rfl
  | long offset value =>
    obtain ⟨t, ht, -, -, hview⟩ := writeLanes_view (bytes32 value) s (place offset)
    cases ((write32_plain hd hin value).trans ht).symm.trans hw
    exact hview p hp

/-! ## Reads -/

theorem packedRgbRead32_isSome (s : AppleDisplayCard) (x : UInt32) : (s.packedRgbRead32 x).isSome := by
  unfold packedRgbRead32
  dsimp only
  rcases Nat.lt_or_ge (colorOffset x + 2) s.vramBytes with hin | hout
  · have hgreen := Nat.lt_of_succ_lt hin
    rw [if_neg (Nat.not_le.2 hin), Vector.getElem?_eq_getElem (Nat.lt_of_succ_lt hgreen),
      Vector.getElem?_eq_getElem hgreen, Vector.getElem?_eq_getElem hin]
    rfl
  · rw [if_pos hout]
    rfl

theorem romIndex_lt {index : Nat} (h : s.romIndex offset = some index) :
    index < s.declarationRom.length := by
  unfold romIndex at h
  split_ifs at h with hloaded hsuper hstandard
  · have hlen : s.declarationRom.length = mappedDeclarationRomBytes := by
      simpa [declarationRomLoaded] using hloaded
    rw [Option.some_inj] at h
    omega
  · have hlen : s.declarationRom.length = mappedDeclarationRomBytes := by
      simpa [declarationRomLoaded] using hloaded
    rw [Option.some_inj] at h
    omega

theorem read8_isSome (s : AppleDisplayCard) (offset : UInt32) : (s.read8 offset).isSome := by
  unfold read8
  rw [Option.isSome_map]
  unfold readByte
  cases hrom : s.romIndex offset with
  | some index =>
    dsimp only
    rw [List.getElem?_eq_getElem (romIndex_lt hrom)]
    rfl
  | none =>
    dsimp only
    split_ifs with hwindow hdirect hin
    · rw [Option.isSome_map]
      exact packedRgbRead32_isSome s _
    · rw [Vector.getElem?_eq_getElem hin]
      rfl
    all_goals rfl

/-- A byte of the memory that no declaration ROM covers. -/
theorem read8_view (hd : s.directRgbActive = false) (hin : place offset < s.vramBytes)
    (hrom : s.romIndex offset = none) :
    (s.read8 offset).map Prod.fst = view (place offset) s := by
  have hle := s.vramBytes_le
  unfold read8 readByte
  rw [hrom]
  dsimp only
  rw [if_pos ((inWindow_iff offset).2 (by omega)), if_neg (by rw [hd]; decide)]
  show Option.map Prod.fst (Option.map (fun value => (value, s))
    (if place offset < s.vramBytes then s.vram[place offset]? else some 0xff)) = _
  rw [if_pos hin, Option.map_map]
  exact congrFun Option.map_id _

/-! ## Where the memory is memory -/

section
variable {g k : Nat}

/-- A byte of a pixel in the direct mode. -/
theorem write8_lane (hd : s.directRgbActive = true) (hplace : place offset = 4 * g + k) (h0 : 0 < k)
    (h4 : k < 4) (hin : 3 * g + 2 < s.vramBytes) (h : place offset < 0x200000) (value : UInt8) :
    s.write8 offset value = some (s.put (3 * g + (k - 1)) value) := by
  have hne : ¬ (place offset % 4 = 0 ∨ s.vramBytes ≤ place offset / 4 * 3 + 2) := by omega
  have hpacked : packedPlace (place offset) = 3 * g + (k - 1) := by
    unfold packedPlace
    omega
  rw [write8_direct hd h, if_neg hne, hpacked]

/-- A byte that is not kept. -/
theorem write8_drop (hd : s.directRgbActive = true) (hplace : place offset = 4 * g + k) (h4 : k < 4)
    (hnone : k = 0 ∨ s.vramBytes ≤ 3 * g + 2) (h : place offset < 0x200000) (value : UInt8) :
    s.write8 offset value = some s := by
  have hdrop : place offset % 4 = 0 ∨ s.vramBytes ≤ place offset / 4 * 3 + 2 := by omega
  rw [write8_direct hd h, if_pos hdrop]

/-- A long in the direct mode that starts a pixel, or falls behind the memory. -/
theorem write32_pixel (hd : s.directRgbActive = true) (h : place offset + 4 ≤ 0x200000)
    (hpixel : place offset % 4 = 0 ∨ s.vramBytes ≤ place offset / 4 * 3 + 2) (value : UInt32) :
    s.write32 offset value = writeBytes write8 s offset (bytes32 value) := by
  have h1 : place (offset + 1) = place offset + 1 := place_add (n := 1) (by omega)
  have h2 : place (offset + 1 + 1) = place (offset + 1) + 1 := place_add (n := 1) (by omega)
  have h3 : place (offset + 1 + 1 + 1) = place (offset + 1 + 1) + 1 := place_add (n := 1) (by omega)
  have hcolor : colorOffset (offset &&& 0x00ffffff) = place offset / 4 * 3 := rfl
  rw [write32_direct hd (by omega)]
  rcases Nat.lt_or_ge (place offset / 4 * 3 + 2) s.vramBytes with hin | hout
  · obtain ⟨g, hg⟩ : ∃ g, place offset = 4 * g := ⟨place offset / 4, by omega⟩
    have hc : colorOffset (offset &&& 0x00ffffff) = 3 * g := by omega
    have e0 : s.write8 offset (lane 24 value) = some s :=
      write8_drop (k := 0) hd hg (by decide) (Or.inl rfl) (by omega) _
    have e1 : s.write8 (offset + 1) (lane 16 value) = some (s.put (3 * g) (lane 16 value)) :=
      write8_lane (k := 1) hd (by omega) (by decide) (by decide) (by omega) (by omega) _
    obtain ⟨s₁, hs₁⟩ : ∃ s₁, s₁ = s.put (3 * g) (lane 16 value) := ⟨_, rfl⟩
    have hd₁ : s₁.directRgbActive = true := by rw [hs₁]; exact hd
    have hin₁ : 3 * g + 2 < s₁.vramBytes := by rw [hs₁]; rw [hg] at hin; exact lt_of_eq_of_lt (by omega) hin
    have e2 : s₁.write8 (offset + 1 + 1) (lane 8 value) = some (s₁.put (3 * g + 1) (lane 8 value)) :=
      write8_lane (k := 2) hd₁ (by omega) (by decide) (by decide) hin₁ (by omega) _
    obtain ⟨s₂, hs₂⟩ : ∃ s₂, s₂ = s₁.put (3 * g + 1) (lane 8 value) := ⟨_, rfl⟩
    have hd₂ : s₂.directRgbActive = true := by rw [hs₂]; exact hd₁
    have hin₂ : 3 * g + 2 < s₂.vramBytes := by rw [hs₂]; exact hin₁
    have e3 : s₂.write8 (offset + 1 + 1 + 1) (lane 0 value) = some (s₂.put (3 * g + 2) (lane 0 value)) :=
      write8_lane (k := 3) hd₂ (by omega) (by decide) (by decide) hin₂ (by omega) _
    rw [packedRgbWrite32_in (by rw [hc]; omega), hc, bytes32_lanes, writeBytes, e0, Option.bind_some,
      writeBytes, e1, Option.bind_some, ← hs₁, writeBytes, e2, Option.bind_some, ← hs₂, writeBytes, e3]
    rfl
  · have hdrop : ∀ {offset' : UInt32} {n : Nat}, place offset' = place offset + n → n < 4 →
        ∀ value, s.write8 offset' value = some s := by
      intro offset' n hn h4 value
      have hle : place offset / 4 ≤ place offset' / 4 := Nat.div_le_div_right (by omega)
      exact write8_drop (g := place offset' / 4) (k := place offset' % 4) hd (by omega) (by omega)
        (Or.inr (by omega)) (by omega) value
    rw [packedRgbWrite32_out (by rw [hcolor]; exact hout), bytes32_lanes, writeBytes,
      hdrop (n := 0) rfl (by decide), Option.bind_some, writeBytes, hdrop (n := 1) h1 (by decide),
      Option.bind_some, writeBytes, hdrop (n := 2) (by omega) (by decide), Option.bind_some,
      writeBytes, hdrop (n := 3) (by omega) (by decide), Option.bind_some, writeBytes]

end

/-- A long that splits a pixel does not go where its bytes would. -/
theorem write32_split (hd : s.directRgbActive = true) (h : place offset + 4 ≤ 0x200000)
    (hsplit : place offset % 4 ≠ 0) (hin : place offset / 4 * 3 + 2 < s.vramBytes) :
    s.write32 offset 1 ≠ writeBytes write8 s offset (bytes32 1) := by
  intro heq
  have hcolor : colorOffset (offset &&& 0x00ffffff) = place offset / 4 * 3 := rfl
  rw [write32_direct hd (by omega), packedRgbWrite32_in (by rw [hcolor]; exact hin), hcolor] at heq
  have hview := writeBytes_direct (p := place offset / 4 * 3 + 2) (by omega) hd h heq.symm
  -- the blue byte of the pixel is the last byte of the long here, and an earlier one there
  have hcell : cellAt (place offset, bytes32 1)
      ((place offset / 4 * 3 + 2) / 3 * 4 + (place offset / 4 * 3 + 2) % 3 + 1) = some 0 := by
    have hidx : (place offset / 4 * 3 + 2) / 3 * 4 + (place offset / 4 * 3 + 2) % 3 + 1 - place offset
        = 3 - place offset % 4 := by omega
    unfold cellAt
    dsimp only
    rw [if_pos (by omega), hidx]
    have hcases : place offset % 4 = 1 ∨ place offset % 4 = 2 ∨ place offset % 4 = 3 := by omega
    rcases hcases with hk | hk | hk <;> rw [hk] <;> rfl
  rw [hcell, view_put, if_pos ⟨rfl, hin⟩, Option.some_or] at hview
  exact absurd hview (by decide)

/-- A long that runs over the end of the window drops bytes that byte writes put into the control
    register. -/
theorem write32_end (h : place offset < 0x200000) (hend : 0x200000 < place offset + 4) :
    ∃ value, s.write32 offset value ≠ writeBytes write8 s offset (bytes32 value) := by
  have hwrite : ∀ value, ∃ s', s.write32 offset value = some s' ∧ s'.control = s.control := by
    intro value
    cases hd : s.directRgbActive with
    | false =>
      obtain ⟨s', hs', -, hcontrol, -⟩ := writeLanes_view (bytes32 value) s (place offset)
      exact ⟨s', (write32_plain hd h value).trans hs', hcontrol⟩
    | true =>
      have hle := s.vramBytes_le
      have hcolor : colorOffset (offset &&& 0x00ffffff) = place offset / 4 * 3 := rfl
      exact ⟨s, (write32_direct hd h value).trans (packedRgbWrite32_out (by rw [hcolor]; omega) _), rfl⟩
  have hbytes : ∀ (value : UInt32) (s' : AppleDisplayCard), writeBytes write8 s offset (bytes32 value) = some s' →
      s'.control = controlOf value.toUInt8 := by
    intro value s' hs'
    obtain ⟨t₁, -, h1⟩ := Option.bind_eq_some_iff.1 hs'
    obtain ⟨t₂, -, h2⟩ := Option.bind_eq_some_iff.1 h1
    obtain ⟨t₃, -, h3⟩ := Option.bind_eq_some_iff.1 h2
    obtain ⟨t₄, h4, hlast⟩ := Option.bind_eq_some_iff.1 h3
    cases hlast
    have hplace : place (offset + 1 + 1 + 1) = place offset + 3 := by
      rw [show offset + 1 + 1 + 1 = offset + UInt32.ofNat 3 by rw [UInt32.add_assoc, UInt32.add_assoc]; rfl]
      exact place_add (by omega)
    obtain ⟨t, ht, hcontrol⟩ := @write8_control t₃ (offset + 1 + 1 + 1) (by omega) (by omega)
      value.toUInt8
    cases ht.symm.trans h4
    exact hcontrol
  by_contra hall
  rw [not_exists] at hall
  have hconst : ∀ value : UInt32, s.control = controlOf value.toUInt8 := by
    intro value
    obtain ⟨s', hs', hcontrol⟩ := hwrite value
    exact hcontrol.symm.trans (hbytes value s' ((not_not.1 (hall value)).symm.trans hs'))
  exact absurd ((hconst 0).symm.trans (hconst 1)) (by decide)

/-- The memory is memory where no pixel is split and no ROM lies above it. -/
theorem memoryAt_iff (s : AppleDisplayCard) (hin : place offset < 0x200000) :
    accesses.MemoryAt s offset ↔ place offset + 4 ≤ 0x200000 ∧
      (s.directRgbActive = true → place offset % 4 = 0 ∨ s.vramBytes ≤ place offset / 4 * 3 + 2) ∧
      (s.directRgbActive = false → place offset < s.vramBytes → s.romIndex offset = none) := by
  constructor
  · intro h
    have hfit : place offset + 4 ≤ 0x200000 := by
      by_contra hend
      obtain ⟨value, hne⟩ := write32_end (s := s) hin (Nat.not_le.1 hend)
      exact hne (h.long value)
    refine ⟨hfit, ?_, ?_⟩
    · intro hd
      by_contra hsplit
      rw [not_or, Nat.not_le] at hsplit
      exact write32_split hd hfit hsplit.1 hsplit.2 (h.long 1)
    · intro hd hvram
      cases hrom : s.romIndex offset with
      | none => rfl
      | some index =>
        -- a byte that is not the one of the ROM is written and read
        obtain ⟨b, hb⟩ : ∃ b, s.declarationRom[index]? = some b :=
          ⟨_, List.getElem?_eq_getElem (romIndex_lt hrom)⟩
        have hwrite := write8_plain hd hin (b + 1)
        have hlast := h.last hvram [.byte offset (b + 1)] (s.put (place offset) (b + 1))
          (fun w hw => by rw [List.mem_singleton] at hw; subst hw; exact hin) ⟨hd, fun s' hs' => by cases hwrite.symm.trans hs'; exact hd⟩
          (by rw [List.foldlM_cons]; exact congrArg (· >>= _) hwrite) (b + 1) (by
            show ((none : Option UInt8).or (cellAt (place offset, [b + 1]) (place offset))) = some (b + 1)
            rw [cellAt_cons, if_pos rfl]
            rfl)
        have hread : ((s.put (place offset) (b + 1)).read8 offset).map Prod.fst = some b := by
          unfold read8 readByte
          rw [show (s.put (place offset) (b + 1)).romIndex offset = some index from hrom]
          dsimp only
          rw [show (s.put (place offset) (b + 1)).declarationRom[index]? = some b from hb]
          rfl
        have heq := Option.some_inj.1 (hread.symm.trans hlast)
        exact absurd (UInt8.add_eq_left.1 heq.symm) (by decide)
  · rintro ⟨hfit, hdirect, hrom⟩
    have hlong : ∀ value, s.write32 offset value = writeBytes write8 s offset (bytes32 value) := by
      intro value
      cases hd : s.directRgbActive with
      | false =>
        rw [write32_plain hd hin]
        exact writeLanes_eq _ hd hfit
      | true => exact write32_pixel hd hfit (hdirect hd) value
    refine ⟨fun value => write16_eq hin value, hlong, ⟨read8_isSome s offset,
      NuBusCard.read32_isSome read8_isSome s offset⟩, ⟨write8_isSome s offset, fun value => ?_,
      fun value => ?_⟩, ?_⟩
    · have hsome := writeBytes_isSome write8_isSome (bytes16 value) s offset
      rwa [← write16_eq hin] at hsome
    · have hsome := writeBytes_isSome write8_isSome (bytes32 value) s offset
      rwa [← hlong] at hsome
    · intro hvram ws s' hws halong hrun b hb
      have hd : s.directRgbActive = false := halong.head
      have hboth := halong.and (I := SameCard s) (fun hw hI hstep => hI.trans (write_same hw hstep))
        hws ⟨rfl, rfl⟩
      have hview : view (place offset) s'
          = (lastWritten (place offset) (ws.map accesses.cells)).or (view (place offset) s) := by
        refine run_lastWritten ?_ hws hboth hrun
        intro t t' w hw ht _ hstep
        refine write_view ?_ ht.1 hw hstep
        show place offset < 1024 * clampVramKiB t.vramKiB
        rw [ht.2.vramKiB]
        exact hvram
      obtain ⟨hd', hsame⟩ := hboth.last hrun
      have hvram' : place offset < s'.vramBytes := by
        show place offset < 1024 * clampVramKiB s'.vramKiB
        rw [hsame.vramKiB]
        exact hvram
      have hrom' : s'.romIndex offset = none := by
        have hnone := hrom hd hvram
        unfold romIndex declarationRomLoaded at hnone ⊢
        rwa [hsame.declarationRom]
      show (s'.read8 offset).map Prod.fst = some b
      rw [read8_view hd' hvram' hrom', hview,
        show lastWritten (place offset) (ws.map accesses.cells) = some b from hb]
      rfl

end AppleDisplayCard

/-! ## Both cards -/

theorem toNat_cardOffset {address : UInt32} (h : 0x01000000 ≤ address) :
    (cardOffset address).toNat < 0x1000000 := by
  unfold cardOffset
  rw [if_neg (UInt32.not_lt.2 h), UInt32.toNat_and]
  exact lt_of_le_of_lt Nat.and_le_right (by decide)

/-- Behind the addresses of a slot, the memory of the Macintosh II card is memory but for its last
    three bytes; that of the Apple card is where no long runs over the window, no long splits a
    pixel, and no declaration ROM lies above it. -/
theorem memory_of_cards (card : MacintoshIIVideoCard) (display : AppleDisplayCard)
    (address : UInt32) :
    (0x01000000 ≤ address → MacintoshIIVideoCard.place (cardOffset address) < 0x80000 →
      (MacintoshIIVideoCard.accesses.MemoryAt card (cardOffset address) ↔
        MacintoshIIVideoCard.place (cardOffset address) + 4 ≤ 0x80000)) ∧
    (0x01000000 ≤ address → AppleDisplayCard.place (cardOffset address) < 0x200000 →
      (AppleDisplayCard.accesses.MemoryAt display (cardOffset address) ↔
        AppleDisplayCard.place (cardOffset address) + 4 ≤ 0x200000 ∧
        (display.directRgbActive = true → AppleDisplayCard.place (cardOffset address) % 4 = 0 ∨
          display.vramBytes ≤ AppleDisplayCard.place (cardOffset address) / 4 * 3 + 2) ∧
        (display.directRgbActive = false →
          AppleDisplayCard.place (cardOffset address) < display.vramBytes →
            display.romIndex (cardOffset address) = none))) := by
  refine ⟨fun h hin => ?_, fun _ hin => ?_⟩
  · exact MacintoshIIVideoCard.memoryAt_iff card (toNat_cardOffset h) hin
  · exact AppleDisplayCard.memoryAt_iff display hin

/-- A long at the last byte of the memory of a card in slot 9. -/
theorem long_behind_memory :
    decodedSlot 0xf907ffff = 9 ∧
      MacintoshIIVideoCard.place (cardOffset 0xf907ffff) < 0x80000 ∧
      MacintoshIIVideoCard.powerOn.write32 (cardOffset 0xf907ffff) 0 = none ∧
      ¬ MacintoshIIVideoCard.accesses.MemoryAt MacintoshIIVideoCard.powerOn
        (cardOffset 0xf907ffff) := by
  have hin : MacintoshIIVideoCard.place (cardOffset 0xf907ffff) < 0x80000 := by decide
  have hnone : MacintoshIIVideoCard.powerOn.write32 (cardOffset 0xf907ffff) 0 = none :=
    (MacintoshIIVideoCard.write32_vram hin 0).trans
      (MacintoshIIVideoCard.writeVramBytes_none _ (Nat.le_of_lt hin) (by decide))
  refine ⟨by decide, hin, hnone, fun h => ?_⟩
  have hsome := h.writes.2.2 0
  rw [show MacintoshIIVideoCard.accesses.write32 MacintoshIIVideoCard.powerOn
    (cardOffset 0xf907ffff) 0 = none from hnone] at hsome
  cases hsome

end CuteMac.Video
