/-
  What an image file is recognised by.

  * `readBe32`, `writeBe32`: the words of a container header;
  * `diskCopyChecksum`: the check sums of a Disk Copy 4.2 container;
  * `truncatedRawHfsKind`: a raw image that was cut short, as its volume header
    tells.
-/
import CuteMac.Floppy.Geometry
import CuteMac.Lib.Slice
import Mathlib.Data.UInt

namespace CuteMac.Floppy

open Slice

inductive Kind
  | empty
  | raw400K
  | raw800K
  | raw1440K
  | diskCopy42
  deriving DecidableEq

/-- The length of a Disk Copy 4.2 header. -/
def headerBytes : Nat := 84

def hfsGeometrySlackBytes : Nat := 4 * 1024

/-! ## Words -/

/-- A word of the file; zero where the file is too short. -/
def readBe32 (bytes : List UInt8) (offset : Nat) : UInt32 :=
  if bytes.length < offset + 4 then 0
  else
    ((bytes.getD offset 0).toUInt32 <<< (24 : UInt32)) |||
      ((bytes.getD (offset + 1) 0).toUInt32 <<< (16 : UInt32)) |||
      ((bytes.getD (offset + 2) 0).toUInt32 <<< (8 : UInt32)) ||| (bytes.getD (offset + 3) 0).toUInt32

def be32Bytes (value : UInt32) : List UInt8 :=
  [(value >>> (24 : UInt32)).toUInt8, (value >>> (16 : UInt32)).toUInt8,
    (value >>> (8 : UInt32)).toUInt8, value.toUInt8]

def writeBe32 (bytes : List UInt8) (offset : Nat) (value : UInt32) : List UInt8 :=
  if bytes.length < offset + 4 then bytes else overwrite bytes offset (be32Bytes value)

theorem be32_split (v : UInt32) :
    ((v >>> (24 : UInt32)).toUInt8.toUInt32 <<< (24 : UInt32)) |||
      ((v >>> (16 : UInt32)).toUInt8.toUInt32 <<< (16 : UInt32)) |||
      ((v >>> (8 : UInt32)).toUInt8.toUInt32 <<< (8 : UInt32)) ||| v.toUInt8.toUInt32 = v := by
  apply UInt32.toNat_inj.1
  have hv : v.toNat < 2 ^ 32 := v.toNat_lt
  simp only [UInt32.toNat_or, UInt32.toNat_shiftLeft, UInt32.toNat_shiftRight,
    UInt32.toNat_toUInt8, UInt8.toNat_toUInt32, UInt32.reduceToNat, Nat.reduceMod, Nat.reducePow,
    Nat.shiftLeft_eq, Nat.shiftRight_eq_div_pow]
  generalize v.toNat = n at hv
  -- the bytes do not overlap, so every `or` is a sum
  have h1 : n / 16777216 % 256 * 16777216 % 4294967296 ||| n / 65536 % 256 * 65536 % 4294967296 =
      n / 65536 * 65536 := by
    have := Nat.two_pow_add_eq_or_of_lt (i := 24) (b := n / 65536 % 256 * 65536) (by omega)
      (n / 16777216 % 256)
    rw [Nat.mod_eq_of_lt (a := n / 16777216 % 256 * 16777216) (by omega),
      Nat.mod_eq_of_lt (a := n / 65536 % 256 * 65536) (by omega),
      Nat.mul_comm (n / 16777216 % 256), ← this]
    omega
  have h2 : n / 65536 * 65536 ||| n / 256 % 256 * 256 % 4294967296 = n / 256 * 256 := by
    have := Nat.two_pow_add_eq_or_of_lt (i := 16) (b := n / 256 % 256 * 256) (by omega) (n / 65536)
    rw [Nat.mod_eq_of_lt (by omega), Nat.mul_comm (_ / 65536), ← this]
    omega
  have h3 : n / 256 * 256 ||| n % 256 = n := by
    have := Nat.two_pow_add_eq_or_of_lt (i := 8) (b := n % 256) (by omega) (n / 256)
    rw [Nat.mul_comm (_ / 256), ← this]
    omega
  rw [h1, h2, h3]

/-- A word that was written is read back. -/
theorem readBe32_writeBe32 {bytes : List UInt8} {offset : Nat} (h : offset + 4 ≤ bytes.length)
    (value : UInt32) : readBe32 (writeBe32 bytes offset value) offset = value := by
  have hb : (be32Bytes value).length = 4 := rfl
  have hget : ∀ i < 4, (overwrite bytes offset (be32Bytes value)).getD (offset + i) 0 =
      (be32Bytes value).getD i 0 := by
    intro i hi
    rw [List.getD_eq_getElem?_getD, getElem?_overwrite (by omega), if_pos (by omega),
      Nat.add_sub_cancel_left, List.getD_eq_getElem?_getD]
  rw [writeBe32, if_neg (by omega), readBe32, if_neg (by rw [length_overwrite] <;> omega)]
  have h0 := hget 0 (by decide)
  rw [Nat.add_zero] at h0
  rw [h0, hget 1 (by decide), hget 2 (by decide), hget 3 (by decide)]
  exact be32_split value

theorem readBe32_append {bytes rest : List UInt8} {offset : Nat} (h : offset + 4 ≤ bytes.length) :
    readBe32 (bytes ++ rest) offset = readBe32 bytes offset := by
  rw [readBe32, readBe32, if_neg (by rw [List.length_append]; omega), if_neg (by omega),
    getD_append_left _ _ (by omega), getD_append_left _ _ (by omega),
    getD_append_left _ _ (by omega), getD_append_left _ _ (by omega)]

/-- A word beside the one that was written. -/
theorem readBe32_writeBe32_ne {bytes : List UInt8} {offset other : Nat} (value : UInt32)
    (h : other + 4 ≤ offset ∨ offset + 4 ≤ other) :
    readBe32 (writeBe32 bytes offset value) other = readBe32 bytes other := by
  rw [writeBe32]
  split_ifs with hl
  · rfl
  have hb : (be32Bytes value).length = 4 := rfl
  have hget : ∀ i < 4, (overwrite bytes offset (be32Bytes value)).getD (other + i) 0 =
      bytes.getD (other + i) 0 := by
    intro i hi
    rw [List.getD_eq_getElem?_getD, getElem?_overwrite (by omega), if_neg (by omega),
      List.getD_eq_getElem?_getD]
  have h0 := hget 0 (by decide)
  rw [Nat.add_zero] at h0
  rw [readBe32, readBe32, length_overwrite (by omega), h0, hget 1 (by decide), hget 2 (by decide),
    hget 3 (by decide)]

/-- The words of a header are words of the file. -/
theorem readBe32_take {bytes : List UInt8} {offset n : Nat} (h : offset + 4 ≤ n)
    (hn : n ≤ bytes.length) : readBe32 (bytes.take n) offset = readBe32 bytes offset := by
  rw [readBe32, readBe32, if_neg (by rw [List.length_take]; omega), if_neg (by omega),
    getD_take (by omega), getD_take (by omega), getD_take (by omega), getD_take (by omega)]

theorem length_writeBe32 (bytes : List UInt8) (offset : Nat) (value : UInt32) :
    (writeBe32 bytes offset value).length = bytes.length := by
  rw [writeBe32]
  split_ifs with h
  · rfl
  · exact length_overwrite (by rw [be32Bytes]; simp; omega)

/-- Bytes outside the word stay. -/
theorem mid_writeBe32 {bytes : List UInt8} {offset i n : Nat} (value : UInt32)
    (h : i + n ≤ offset ∨ offset + 4 ≤ i) : mid (writeBe32 bytes offset value) i n = mid bytes i n := by
  rw [writeBe32]
  split_ifs with hl
  · rfl
  · exact mid_overwrite_of_disjoint (by rw [be32Bytes]; simp; omega) h

/-! ## Check sums -/

/-- The sum over the 16-bit words of a list, rotated after each. -/
def diskCopySum (checksum : UInt32) : List UInt8 → UInt32
  | hi :: lo :: rest =>
    let sum := checksum + ((hi.toUInt32 <<< (8 : UInt32)) ||| lo.toUInt32)
    diskCopySum ((sum >>> (1 : UInt32)) ||| (sum <<< (31 : UInt32))) rest
  | _ => checksum

def diskCopyChecksum (bytes : List UInt8) : UInt32 := diskCopySum 0 bytes

/-! ## Volumes -/

/-- A 16-bit word of a volume header. -/
def mdbWord (mdb : List UInt8) (offset : Nat) : Nat :=
  (mdb.getD offset 0).toNat * 256 + (mdb.getD (offset + 1) 0).toNat

/-- The bytes that the volume header says the volume has. -/
def volumeBytes (mdb : List UInt8) : Nat :=
  mdbWord mdb 28 * 512 + mdbWord mdb 18 * (mdbWord mdb 20 * 65536 + mdbWord mdb 22)

/-- The size that a file cut short is filled up to. -/
def targetBytes (size : Nat) : Nat := if size < raw800KBytes then raw800KBytes else raw1440KBytes

def truncatedRawHfsKind (bytes : List UInt8) : Kind :=
  if bytes.length ≤ raw400KBytes ∨ raw1440KBytes ≤ bytes.length ∨ bytes.length < 1056 then .empty
  else
    let targetBytes := targetBytes bytes.length
    let mdb := mid bytes 1024 32
    let allocationBlocks := mdbWord mdb 18
    let allocationBlockSize := mdbWord mdb 20 * 65536 + mdbWord mdb 22
    if mdbWord mdb 0 ≠ 0x4244 ∨ allocationBlocks = 0 ∨ allocationBlockSize = 0 ∨
        volumeBytes mdb ≤ bytes.length ∨ targetBytes + hfsGeometrySlackBytes < volumeBytes mdb then
      .empty
    else if targetBytes = raw800KBytes then .raw800K
    else .raw1440K

theorem truncatedRawHfsKind_cases (bytes : List UInt8) : truncatedRawHfsKind bytes = .empty ∨
    truncatedRawHfsKind bytes = .raw800K ∨ truncatedRawHfsKind bytes = .raw1440K := by
  simp only [truncatedRawHfsKind]
  split_ifs <;> simp

end CuteMac.Floppy
