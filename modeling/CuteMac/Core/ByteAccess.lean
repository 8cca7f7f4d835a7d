/-
  A bus by what it does at each width.

  * `Bus`: the six accesses;
  * `byteReads`, `byteWrites`: the accesses of consecutive bytes, one after the other;
  * `Alike16`, `Alike32`: a wide access is the accesses of its bytes.
-/
import CuteMac.Core.PhysicalMemoryMap

namespace CuteMac.Core

/-- The accesses to a bus whose state is a `σ`. -/
structure Bus (σ : Type) where
  read8 : σ → UInt32 → UInt8 × σ
  read16 : σ → UInt32 → UInt16 × σ
  read32 : σ → UInt32 → UInt32 × σ
  write8 : σ → UInt32 → UInt8 → σ
  write16 : σ → UInt32 → UInt16 → σ
  write32 : σ → UInt32 → UInt32 → σ

namespace Bus

variable {σ : Type} (bus : Bus σ)

def byteReads : σ → UInt32 → Nat → List UInt8 × σ
  | s, _, 0 => ([], s)
  | s, address, size + 1 =>
    let first := bus.read8 s address
    let others := byteReads first.2 (address + 1) size
    (first.1 :: others.1, others.2)

def byteWrites : σ → UInt32 → List UInt8 → σ
  | s, _, [] => s
  | s, address, value :: values => byteWrites (bus.write8 s address value) (address + 1) values

/-- The accesses of a word are those of its two bytes. -/
structure Alike16 (s : σ) (address : UInt32) : Prop where
  read : bus.read16 s address
    = (UInt16.ofNat (bigEndian (bus.byteReads s address 2).1), (bus.byteReads s address 2).2)
  write : ∀ value, bus.write16 s address value = bus.byteWrites s address (bytesOf value.toNat 2)

/-- The accesses of a long word are those of its four bytes. -/
structure Alike32 (s : σ) (address : UInt32) : Prop where
  read : bus.read32 s address
    = (UInt32.ofNat (bigEndian (bus.byteReads s address 4).1), (bus.byteReads s address 4).2)
  write : ∀ value, bus.write32 s address value = bus.byteWrites s address (bytesOf value.toNat 4)

variable {bus} {s : σ} {address : UInt32}

theorem add_one_add (address : UInt32) (i : Nat) :
    address + 1 + UInt32.ofNat i = address + UInt32.ofNat (i + 1) := by
  rw [UInt32.ofNat_add, UInt32.add_assoc, UInt32.add_comm 1]
  rfl

/-- Four bytes are read two by two. -/
theorem byteReads_four (bus : Bus σ) (s : σ) (address : UInt32) :
    bus.byteReads s address 4 =
      ((bus.byteReads s address 2).1 ++ (bus.byteReads (bus.byteReads s address 2).2 (address + 2) 2).1,
        (bus.byteReads (bus.byteReads s address 2).2 (address + 2) 2).2) := by
  have hadd : address + 1 + 1 = address + 2 := by rw [UInt32.add_assoc]; rfl
  unfold byteReads byteReads byteReads
  rw [hadd]
  rfl

theorem byteWrites_append (xs ys : List UInt8) : ∀ (s : σ) (address : UInt32),
    bus.byteWrites s address (xs ++ ys)
      = bus.byteWrites (bus.byteWrites s address xs) (address + UInt32.ofNat xs.length) ys := by
  induction xs with
  | nil =>
    intro s address
    rw [List.nil_append, byteWrites, List.length_nil, show UInt32.ofNat 0 = 0 from rfl,
      UInt32.add_zero]
  | cons x xs ih =>
    intro s address
    rw [List.cons_append, byteWrites, ih, add_one_add]
    rfl

/-- Two buses that do the same with each byte, and stay in some states. -/
theorem byteReads_congr {other : Bus σ} {I : σ → Prop} {size : Nat} :
    ∀ {s : σ} {address : UInt32},
      (∀ s, ∀ i < size, I s → bus.read8 s (address + UInt32.ofNat i)
        = other.read8 s (address + UInt32.ofNat i)
          ∧ I (other.read8 s (address + UInt32.ofNat i)).2) →
      I s → bus.byteReads s address size = other.byteReads s address size := by
  induction size with
  | zero => exact fun _ _ => rfl
  | succ size ih =>
    intro s address h hI
    obtain ⟨hfirst, hnext⟩ := h s 0 (Nat.succ_pos size) hI
    rw [show UInt32.ofNat 0 = 0 from rfl, UInt32.add_zero] at hfirst hnext
    have hothers : bus.byteReads _ (address + 1) size = other.byteReads _ (address + 1) size :=
      ih (fun s i hi hs => by
        rw [add_one_add]
        exact h s (i + 1) (by omega) hs) hnext
    rw [byteReads, byteReads, hfirst, hothers]

theorem byteWrites_congr {other : Bus σ} {I : σ → Prop} (values : List UInt8) :
    ∀ {s : σ} {address : UInt32},
      (∀ s value, ∀ i < values.length, I s → bus.write8 s (address + UInt32.ofNat i) value
        = other.write8 s (address + UInt32.ofNat i) value
          ∧ I (other.write8 s (address + UInt32.ofNat i) value)) →
      I s → bus.byteWrites s address values = other.byteWrites s address values := by
  induction values with
  | nil => exact fun _ _ => rfl
  | cons value values ih =>
    intro s address h hI
    obtain ⟨hfirst, hnext⟩ := h s value 0 (Nat.succ_pos _) hI
    rw [show UInt32.ofNat 0 = 0 from rfl, UInt32.add_zero] at hfirst hnext
    rw [byteWrites, byteWrites, hfirst]
    refine ih (fun s value i hi hs => ?_) hnext
    rw [add_one_add]
    exact h s value (i + 1) (Nat.succ_lt_succ hi) hs

/-- Reads that leave the state alone. -/
theorem byteReads_of_reads {values : List UInt8} : ∀ {address : UInt32},
    (∀ i (h : i < values.length), bus.read8 s (address + UInt32.ofNat i) = (values.get ⟨i, h⟩, s)) →
    bus.byteReads s address values.length = (values, s) := by
  induction values with
  | nil => exact fun _ => rfl
  | cons value values ih =>
    intro address h
    have hfirst := h 0 (Nat.succ_pos _)
    rw [show UInt32.ofNat 0 = 0 from rfl, UInt32.add_zero] at hfirst
    have hothers : bus.byteReads s (address + 1) values.length = (values, s) :=
      ih fun i hi => by
        rw [add_one_add]
        exact h (i + 1) (Nat.succ_lt_succ hi)
    rw [List.length_cons, byteReads, hfirst, hothers]
    rfl

/-- Writes that nothing takes notice of. -/
theorem byteWrites_ignored {values : List UInt8} : ∀ {address : UInt32},
    (∀ i < values.length, ∀ value, bus.write8 s (address + UInt32.ofNat i) value = s) →
    bus.byteWrites s address values = s := by
  induction values with
  | nil => exact fun _ => rfl
  | cons value values ih =>
    intro address h
    have hfirst := h 0 (Nat.succ_pos _) value
    rw [show UInt32.ofNat 0 = 0 from rfl, UInt32.add_zero] at hfirst
    rw [byteWrites, hfirst]
    refine ih fun i hi value => ?_
    rw [add_one_add]
    exact h (i + 1) (Nat.succ_lt_succ hi) value

/-- A word put together from the reads of its bytes. -/
theorem word_of_reads (bus : Bus σ) (s : σ) (address : UInt32) :
    (((bus.read8 s address).1.toUInt16 <<< 8)
        ||| (bus.read8 (bus.read8 s address).2 (address + 1)).1.toUInt16,
      (bus.read8 (bus.read8 s address).2 (address + 1)).2)
      = (UInt16.ofNat (bigEndian (bus.byteReads s address 2).1), (bus.byteReads s address 2).2) := by
  rw [word_eq]
  rfl

theorem length_byteReads (bus : Bus σ) (size : Nat) : ∀ (s : σ) (address : UInt32),
    (bus.byteReads s address size).1.length = size := by
  induction size with
  | zero => exact fun _ _ => rfl
  | succ size ih => exact fun s address => congrArg (· + 1) (ih _ _)

/-- A long word read as two words, each of which is read as its bytes. -/
theorem long_of_words {high low : UInt16 × σ}
    (hhigh : high = (UInt16.ofNat (bigEndian (bus.byteReads s address 2).1),
      (bus.byteReads s address 2).2))
    (hlow : low = (UInt16.ofNat (bigEndian (bus.byteReads high.2 (address + 2) 2).1),
      (bus.byteReads high.2 (address + 2) 2).2)) :
    ((high.1.toUInt32 <<< 16) ||| low.1.toUInt32, low.2)
      = (UInt32.ofNat (bigEndian (bus.byteReads s address 4).1), (bus.byteReads s address 4).2) := by
  subst hlow
  subst hhigh
  rw [byteReads_four, long_eq (length_byteReads ..) (length_byteReads ..)]

/-- A word written as its bytes. -/
theorem word_of_writes (bus : Bus σ) (s : σ) (address : UInt32) (value : UInt16) :
    bus.write8 (bus.write8 s address (value >>> 8).toUInt8) (address + 1) value.toUInt8
      = bus.byteWrites s address (bytesOf value.toNat 2) := by
  rw [bytesOf_word]
  rfl

/-- A long word written as two words, each of which is written as its bytes. -/
theorem long_of_writes (bus : Bus σ) {value : UInt32}
    (hhigh : bus.write16 s address (value >>> 16).toUInt16
      = bus.byteWrites s address (bytesOf (value >>> 16).toUInt16.toNat 2))
    (hlow : bus.write16 (bus.write16 s address (value >>> 16).toUInt16) (address + 2) value.toUInt16
      = bus.byteWrites (bus.write16 s address (value >>> 16).toUInt16) (address + 2)
          (bytesOf value.toUInt16.toNat 2)) :
    bus.write16 (bus.write16 s address (value >>> 16).toUInt16) (address + 2) value.toUInt16
      = bus.byteWrites s address (bytesOf value.toNat 4) := by
  rw [hlow, hhigh, bytesOf_long, byteWrites_append]
  rfl

end Bus

end CuteMac.Core
