/-
  Bytes that go through a shift register, the most significant bit first.

  * `forall_byte`: what holds of the 256 bytes holds of every byte;
  * `shiftIn`, `shiftOut`: a bit comes in, the bits that go out;
  * `byteOf`: the byte that eight bits spell;
  * `foldl_shiftIn_eight`, `byteOf_shiftOut`: eight bits replace what was there, and
    the bits that go out spell it.
-/
import Mathlib.Data.List.Induction
import Mathlib.Tactic.Ring

namespace ShiftRegister

/-- What holds of the 256 bytes holds of every byte. -/
theorem forall_byte {P : UInt8 → Prop} (h : ∀ n : Fin 256, P (UInt8.ofNat n.val)) (x : UInt8) :
    P x := by
  have hx := h ⟨x.toNat, x.toNat_lt⟩
  rwa [show UInt8.ofNat x.toNat = x from UInt8.ofNat_toNat] at hx

def shiftIn (shift : UInt8) (bit : Bool) : UInt8 := (shift <<< 1) ||| if bit then 1 else 0

/-- The bit that goes out after `count` others. -/
def shiftOut (shift : UInt8) (count : Nat) : Bool := (shift >>> UInt8.ofNat (7 - count)) &&& 1 != 0

/-- A byte from its bits. -/
def byteOf (bits : List Bool) : UInt8 := bits.foldl shiftIn 0

theorem shiftIn_toNat (value : UInt8) (bit : Bool) :
    (shiftIn value bit).toNat = (2 * value.toNat + bit.toNat) % 256 := by
  revert value bit
  refine forall_byte ?_
  decide +kernel

theorem foldl_shiftIn_toNat (bits : List Bool) (value : UInt8) :
    (bits.foldl shiftIn value).toNat =
      (2 ^ bits.length * value.toNat + (byteOf bits).toNat) % 256 := by
  unfold byteOf
  induction bits using List.reverseRecOn with
  | nil =>
    have := value.toNat_lt
    simp only [List.foldl_nil, List.length_nil, UInt8.toNat_zero]
    omega
  | append_singleton bits bit ih =>
    simp only [List.foldl_append, List.foldl_cons, List.foldl_nil]
    rw [shiftIn_toNat, shiftIn_toNat, ih, List.length_append, List.length_singleton, Nat.pow_succ]
    obtain ⟨n, hn⟩ : ∃ n, n = 2 ^ bits.length * value.toNat := ⟨_, rfl⟩
    have hmul : 2 ^ bits.length * 2 * value.toNat = 2 * n := by rw [hn]; ring
    rw [hmul, ← hn]
    omega

/-- Eight bits push out what was in the register before. -/
theorem foldl_shiftIn_eight {bits : List Bool} (h : bits.length = 8) (value : UInt8) :
    bits.foldl shiftIn value = byteOf bits := by
  have hlt := (byteOf bits).toNat_lt
  rw [← UInt8.toNat_inj, foldl_shiftIn_toNat, h]
  omega

/-- The bits that are shifted out spell the byte. -/
theorem byteOf_shiftOut (value : UInt8) :
    byteOf ((List.range 8).map (shiftOut value)) = value := by
  revert value
  refine forall_byte ?_
  decide +kernel

end ShiftRegister
