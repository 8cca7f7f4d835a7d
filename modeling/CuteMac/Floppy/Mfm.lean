/-
  The recording format of 1.44 MB disks.

  * `mfmCrc`: the check sum of a field;
  * `mfmField`: a field, from its sync marks to its check sum;
  * `mfmTrack`: the bytes of a track, with their marks.
-/
import CuteMac.Floppy.Gcr
import CuteMac.Lib.Slice

namespace CuteMac.Floppy

open Slice

/-- A byte under the head, and whether it has the missing clock of a mark. -/
structure DiskByte where
  value : UInt8 := 0
  mark : Bool := false
  deriving DecidableEq

def mfmCrcBit (crc : UInt16) : UInt16 :=
  if crc &&& 0x8000 ≠ 0 then (crc <<< (1 : UInt16)) ^^^ 0x1021 else crc <<< (1 : UInt16)

def mfmCrcByte (crc : UInt16) (byte : UInt8) : UInt16 :=
  mfmCrcBit^[8] (crc ^^^ (byte.toUInt16 <<< (8 : UInt16)))

def mfmCrc (bytes : List UInt8) : UInt16 := bytes.foldl mfmCrcByte 0xffff

/-- The two bytes of a check sum, as the scanner reads them. -/
def be16 (hi lo : UInt8) : UInt16 := (hi.toUInt16 <<< (8 : UInt16)) ||| lo.toUInt16

theorem be16_split (crc : UInt16) : be16 (crc >>> (8 : UInt16)).toUInt8 crc.toUInt8 = crc := by
  have hc : crc.toNat < 2 ^ 16 := crc.toNat_lt
  apply UInt16.toNat_inj.1
  simp only [be16, UInt16.toNat_or, UInt16.toNat_shiftLeft, UInt8.toNat_toUInt16,
    UInt16.toNat_toUInt8, UInt16.toNat_shiftRight]
  have h : crc.toNat >>> 8 % 256 < 256 := Nat.mod_lt _ (by decide)
  have h8 : (crc.toNat >>> 8 % 256) <<< 8 < 65536 := by
    rw [Nat.shiftLeft_eq]
    omega
  simp only [UInt16.reduceToNat, Nat.reduceMod, Nat.reducePow, Nat.mod_eq_of_lt h8]
  rw [← Nat.shiftLeft_add_eq_or_of_lt (Nat.mod_lt _ (by decide)), Nat.shiftLeft_eq,
    Nat.shiftRight_eq_div_pow]
  omega

/-! ## Tracks -/

/-- Bytes without marks. -/
def mfmBytes (bytes : List UInt8) : List DiskByte := bytes.map fun value => { value := value }

/-- What `appendMfmRepeated` appends. -/
def mfmRepeated (value : UInt8) (count : Nat) : List DiskByte := mfmBytes (List.replicate count value)

/-- The bytes of a field, in front of its check sum. -/
def mfmFieldBody (type : UInt8) (payload : List UInt8) (syncMark : UInt8 := 0xa1) : List UInt8 :=
  List.replicate 3 syncMark ++ type :: payload

/-- What `appendMfmField` appends. -/
def mfmField (type : UInt8) (payload : List UInt8) (syncMark : UInt8 := 0xa1) : List DiskByte :=
  let crc := mfmCrc (mfmFieldBody type payload syncMark)
  List.replicate 3 { value := syncMark, mark := true } ++ mfmBytes (type :: payload) ++
    mfmBytes [(crc >>> (8 : UInt16)).toUInt8, crc.toUInt8]

def sectorsPerTrack : Nat := 18
def bytesPerRevolution : Nat := 12500

/-- The address of a sector; the last byte says that it has 512 bytes. -/
def mfmAddress (physicalTrack side sector : Nat) : List UInt8 :=
  [UInt8.ofNat physicalTrack, UInt8.ofNat side, UInt8.ofNat (sector + 1), 2]

/-- The gap in front of the first sector. -/
def mfmIndex : List DiskByte :=
  mfmRepeated 0x4e 80 ++ mfmRepeated 0x00 12 ++ mfmField 0xfc [] 0xc2 ++ mfmRepeated 0x4e 50

/-- One sector of a track, with the gaps around its two fields. -/
def mfmSector (data : List UInt8) (physicalTrack side sector : Nat) : List DiskByte :=
  mfmRepeated 0x00 12 ++ mfmField 0xfe (mfmAddress physicalTrack side sector) ++
    mfmRepeated 0x4e 22 ++ mfmRepeated 0x00 12 ++
    mfmField 0xfb (block bytesPerSector data
      ((physicalTrack * 2 + side) * sectorsPerTrack + sector)) ++
    mfmRepeated 0x4e 101

/-- What `buildMfmTrack` builds. -/
def mfmTrack (data : List UInt8) (physicalTrack side : Nat) : List DiskByte :=
  let bytes := mfmIndex ++ (List.range sectorsPerTrack).flatMap (mfmSector data physicalTrack side)
  bytes ++ mfmRepeated 0x4e (bytesPerRevolution - bytes.length)

end CuteMac.Floppy
