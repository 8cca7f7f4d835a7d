/-
  Which slot an address belongs to (`NuBusBus.cpp`).

  * `standardSlot`: the slot spaces, and the 24-bit alias of them;
  * `superSlot`: the large windows;
  * `decodedSlot`, `cardOffset`: the card an access goes to, and the offset it sees;
  * `NuBusBus`: the cards in the slots, and the accesses to them.
-/
import Mathlib.Data.UInt
import Mathlib.Logic.Function.Basic
import Mathlib.Tactic.NormNum

namespace CuteMac.NuBus

/-- The slot of a standard slot space, or -1. -/
def standardSlot (address : UInt32) : Int :=
  let slot : Int :=
    if address &&& 0xf0000000 = 0xf0000000 then ((address >>> 24) &&& 0x0f).toNat
    else if 0x00900000 ≤ address ∧ address ≤ 0x00efffff then ((address >>> 20) &&& 0x0f).toNat
    else -1
  if 9 ≤ slot ∧ slot ≤ 14 then slot else -1

/-- The slot of a super-slot window, or -1. -/
def superSlot (address : UInt32) : Int :=
  if address < 0x60000000 ∨ 0xf0000000 ≤ address then -1
  else
    let slot : Int := (address >>> 28).toNat
    if 9 ≤ slot ∧ slot ≤ 14 then slot else -1

def decodedSlot (address : UInt32) : Int :=
  let standard := standardSlot address
  if 0 ≤ standard then standard else superSlot address

/-- Addresses below 16 MiB are of the 24-bit alias. -/
def cardOffset (address : UInt32) : UInt32 :=
  if address < 0x01000000 then address &&& 0x000fffff else address &&& 0x00ffffff

/-- The bits of a mask are no more than the address. -/
theorem masked_le (address mask : UInt32) : (address &&& mask).toNat ≤ address.toNat := by
  rw [UInt32.toNat_and]
  exact Nat.and_le_left

/-- Outside the alias, an address below the last 256 MiB is in no standard slot. -/
theorem standardSlot_of_lt {address : UInt32} (h : address.toNat < 0xf0000000)
    (halias : address.toNat < 0x00900000 ∨ 0x00f00000 ≤ address.toNat) :
    standardSlot address = -1 := by
  have hhigh : address &&& 0xf0000000 ≠ 0xf0000000 := by
    intro heq
    have hle := masked_le address 0xf0000000
    rw [heq] at hle
    exact absurd (lt_of_le_of_lt hle h) (by decide)
  have hlow : ¬ (0x00900000 ≤ address ∧ address ≤ 0x00efffff) := by
    rw [UInt32.le_iff_toNat_le, UInt32.le_iff_toNat_le]
    rintro ⟨h1, h2⟩
    have e1 : (0x00900000 : UInt32).toNat = 0x00900000 := rfl
    have e2 : (0x00efffff : UInt32).toNat = 0x00efffff := rfl
    omega
  unfold standardSlot
  rw [if_neg hhigh, if_neg hlow]
  decide

/-! ## The cards -/

/-- What a kind of card does at an access: the value, the card after it, and the levels that it
    puts on its interrupt line. -/
structure Card (κ : Type) where
  read8 : κ → UInt32 → UInt8 × κ × List Bool
  read16 : κ → UInt32 → UInt16 × κ × List Bool
  read32 : κ → UInt32 → UInt32 × κ × List Bool
  write8 : κ → UInt32 → UInt8 → κ × List Bool
  write16 : κ → UInt32 → UInt16 → κ × List Bool
  write32 : κ → UInt32 → UInt32 → κ × List Bool
  reset : κ → κ × List Bool

/-- The cards, by their slots. -/
structure NuBusBus (κ : Type) where
  cards : Nat → Option κ := fun _ => none

/-- A level on the interrupt line of a slot. -/
structure SlotIrq where
  slot : Nat
  asserted : Bool

namespace NuBusBus

variable {κ : Type}

def card (bus : NuBusBus κ) (slot : Int) : Option κ :=
  if slot < 0 ∨ 16 ≤ slot then none else bus.cards slot.toNat

def install (bus : NuBusBus κ) (slot : Nat) (card : κ) : NuBusBus κ :=
  if slot < 9 ∨ 14 < slot then bus
  else { bus with cards := Function.update bus.cards slot (some card) }

/-- A card has had its turn. -/
def settle (bus : NuBusBus κ) (slot : Nat) (turn : κ × List Bool) : NuBusBus κ × List SlotIrq :=
  ({ bus with cards := Function.update bus.cards slot (some turn.1) },
    turn.2.map fun asserted => ⟨slot, asserted⟩)

def resetSlot (ops : Card κ) (bus : NuBusBus κ × List SlotIrq) (slot : Nat) :
    NuBusBus κ × List SlotIrq :=
  match bus.1.cards slot with
  | some card =>
    let settled := bus.1.settle slot (ops.reset card)
    (settled.1, bus.2 ++ settled.2)
  | none => bus

def reset (ops : Card κ) (bus : NuBusBus κ) : NuBusBus κ × List SlotIrq :=
  (List.range 16).foldl (resetSlot ops) (bus, [])

/-- A read from the card at an address, or from an empty slot. -/
def read {α : Type} (bus : NuBusBus κ) (address : UInt32) (empty : α)
    (target : κ → UInt32 → α × κ × List Bool) : α × NuBusBus κ × List SlotIrq :=
  match bus.card (decodedSlot address) with
  | some card =>
    let read := target card (cardOffset address)
    (read.1, bus.settle (decodedSlot address).toNat read.2)
  | none => (empty, bus, [])

def write (bus : NuBusBus κ) (address : UInt32) (target : κ → UInt32 → κ × List Bool) :
    NuBusBus κ × List SlotIrq :=
  match bus.card (decodedSlot address) with
  | some card => bus.settle (decodedSlot address).toNat (target card (cardOffset address))
  | none => (bus, [])

variable (ops : Card κ) (bus : NuBusBus κ) (address : UInt32)

def read8 : UInt8 × NuBusBus κ × List SlotIrq := bus.read address 0xff ops.read8
def read16 : UInt16 × NuBusBus κ × List SlotIrq := bus.read address 0xffff ops.read16
def read32 : UInt32 × NuBusBus κ × List SlotIrq := bus.read address 0xffffffff ops.read32

def write8 (value : UInt8) : NuBusBus κ × List SlotIrq :=
  bus.write address fun card offset => ops.write8 card offset value

def write16 (value : UInt16) : NuBusBus κ × List SlotIrq :=
  bus.write address fun card offset => ops.write16 card offset value

def write32 (value : UInt32) : NuBusBus κ × List SlotIrq :=
  bus.write address fun card offset => ops.write32 card offset value

end NuBusBus

end CuteMac.NuBus
