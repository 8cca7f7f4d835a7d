/-
  The accesses of a card (`NuBusCard.h`).

  * `writeBytes`: bytes at consecutive offsets;
  * `read16`, `read32`, `write16`, `write32`: what a card does that does not say otherwise.

  An access is `none` where it would use an element outside an array of the card.
-/
import Mathlib.Data.UInt

namespace CuteMac.NuBus

variable {σ : Type*}

/-- The bytes of the data lanes, the high one first. -/
def bytes16 (value : UInt16) : List UInt8 := [(value >>> 8).toUInt8, value.toUInt8]

def bytes32 (value : UInt32) : List UInt8 :=
  [(value >>> 24).toUInt8, (value >>> 16).toUInt8, (value >>> 8).toUInt8, value.toUInt8]

/-- A sequence of byte writes. -/
def writeBytes (write8 : σ → UInt32 → UInt8 → Option σ) (s : σ) (offset : UInt32) :
    List UInt8 → Option σ
  | [] => some s
  | b :: bs => (write8 s offset b).bind fun s => writeBytes write8 s (offset + 1) bs

theorem writeBytes_isSome {write8 : σ → UInt32 → UInt8 → Option σ}
    (h : ∀ s offset value, (write8 s offset value).isSome) (bytes : List UInt8) :
    ∀ (s : σ) (offset : UInt32), (writeBytes write8 s offset bytes).isSome := by
  induction bytes with
  | nil => exact fun _ _ => rfl
  | cons b bs ih =>
    intro s offset
    obtain ⟨s', hs'⟩ := Option.isSome_iff_exists.1 (h s offset b)
    rw [writeBytes, hs']
    exact ih s' (offset + 1)

namespace NuBusCard

def read16 (read8 : σ → UInt32 → Option (UInt8 × σ)) (s : σ) (offset : UInt32) :
    Option (UInt16 × σ) :=
  (read8 s offset).bind fun high => (read8 high.2 (offset + 1)).bind fun low =>
    some ((high.1.toUInt16 <<< 8) ||| low.1.toUInt16, low.2)

def read32 (read8 : σ → UInt32 → Option (UInt8 × σ)) (s : σ) (offset : UInt32) :
    Option (UInt32 × σ) :=
  (read16 read8 s offset).bind fun high => (read16 read8 high.2 (offset + 2)).bind fun low =>
    some ((high.1.toUInt32 <<< 16) ||| low.1.toUInt32, low.2)

def write16 (write8 : σ → UInt32 → UInt8 → Option σ) (s : σ) (offset : UInt32) (value : UInt16) :
    Option σ :=
  (write8 s offset (value >>> 8).toUInt8).bind fun s => write8 s (offset + 1) value.toUInt8

theorem write16_eq (write8 : σ → UInt32 → UInt8 → Option σ) (s : σ) (offset : UInt32)
    (value : UInt16) : write16 write8 s offset value = writeBytes write8 s offset (bytes16 value) := by
  unfold write16 bytes16 writeBytes writeBytes writeBytes
  congr 1
  funext s
  exact (Option.bind_fun_some _).symm

/-- A wide read fails only where a byte of it does. -/
theorem read32_isSome {read8 : σ → UInt32 → Option (UInt8 × σ)} (h : ∀ s offset, (read8 s offset).isSome)
    (s : σ) (offset : UInt32) :
    (read16 read8 s offset).isSome ∧ (read32 read8 s offset).isSome := by
  have h16 : ∀ (s : σ) (offset : UInt32), (read16 read8 s offset).isSome := by
    intro s offset
    obtain ⟨high, hhigh⟩ := Option.isSome_iff_exists.1 (h s offset)
    obtain ⟨low, hlow⟩ := Option.isSome_iff_exists.1 (h high.2 (offset + 1))
    unfold read16
    rw [hhigh, Option.bind_some, hlow]
    rfl
  refine ⟨h16 s offset, ?_⟩
  obtain ⟨high, hhigh⟩ := Option.isSome_iff_exists.1 (h16 s offset)
  obtain ⟨low, hlow⟩ := Option.isSome_iff_exists.1 (h16 high.2 (offset + 2))
  unfold read32
  rw [hhigh, Option.bind_some, hlow]
  rfl

end NuBusCard

end CuteMac.NuBus
