/-
  The group code of 400K and 800K disks.

  * `gcrEncodeTable`, `decodeGcr`: six bits as a disk byte, and back;
  * `encodedPayload`: a sector (tag and data) as disk bytes, with three running
    check sums;
  * `decodeGcrPayload`: the sector of disk bytes, if the check sums agree;
  * `decodeGcrPayload_encodedPayload`: decoding what was encoded;
  * `encodeGroups_decodeGroups`: encoding what was decoded, up to two bits.
-/
import Mathlib.Data.UInt
import Mathlib.Tactic.IntervalCases
import Mathlib.Tactic.SplitIfs

namespace CuteMac.Floppy

def bytesPerSector : Nat := 512
def tagBytesPerSector : Nat := 12
def encodedPayloadBytes : Nat := bytesPerSector + tagBytesPerSector

/-! ## Disk bytes -/

def gcrEncodeTable : List UInt8 := [
  0x96, 0x97, 0x9a, 0x9b, 0x9d, 0x9e, 0x9f, 0xa6,
  0xa7, 0xab, 0xac, 0xad, 0xae, 0xaf, 0xb2, 0xb3,
  0xb4, 0xb5, 0xb6, 0xb7, 0xb9, 0xba, 0xbb, 0xbc,
  0xbd, 0xbe, 0xbf, 0xcb, 0xcd, 0xce, 0xcf, 0xd3,
  0xd6, 0xd7, 0xd9, 0xda, 0xdb, 0xdc, 0xdd, 0xde,
  0xdf, 0xe5, 0xe6, 0xe7, 0xe9, 0xea, 0xeb, 0xec,
  0xed, 0xee, 0xef, 0xf2, 0xf3, 0xf4, 0xf5, 0xf6,
  0xf7, 0xf9, 0xfa, 0xfb, 0xfc, 0xfd, 0xfe, 0xff]

/-- The disk byte that `appendGcr` appends for the low six bits of a value. -/
def gcr (value : UInt8) : UInt8 := gcrEncodeTable.getD (value &&& 0x3f).toNat 0

/-- The six bits of a disk byte; `none` is the source's `-1`. -/
def decodeGcr (value : UInt8) : Option UInt8 := (gcrEncodeTable.idxOf? value).map UInt8.ofNat

theorem and_mask_lt (value : UInt8) : (value &&& 0x3f).toNat < 64 := by
  rw [UInt8.toNat_and]
  exact Nat.lt_succ_of_le Nat.and_le_right

/-- What the table says of every index. -/
theorem gcrEncodeTable_spec : ∀ i < 64, decodeGcr (gcrEncodeTable.getD i 0) = some (UInt8.ofNat i) ∧
    gcrEncodeTable.getD i 0 ≠ 0xd5 ∧ gcrEncodeTable.getD i 0 ≠ 0xaa := by
  decide

theorem decodeGcr_gcr (value : UInt8) : decodeGcr (gcr value) = some (value &&& 0x3f) := by
  rw [gcr, (gcrEncodeTable_spec _ (and_mask_lt value)).1, UInt8.ofNat_toNat]

/-- The marks of the disk are no code bytes. -/
theorem gcr_ne_d5 (value : UInt8) : gcr value ≠ 0xd5 :=
  (gcrEncodeTable_spec _ (and_mask_lt value)).2.1

theorem gcr_ne_aa (value : UInt8) : gcr value ≠ 0xaa :=
  (gcrEncodeTable_spec _ (and_mask_lt value)).2.2

/-! ## Packing -/

/-- The high bits of three bytes, in one code byte. -/
def packed (x y z : UInt8) : UInt8 :=
  ((x >>> (2 : UInt8)) &&& (0x30 : UInt8)) ||| ((y >>> (4 : UInt8)) &&& (0x0c : UInt8)) |||
    ((z >>> (6 : UInt8)) &&& (0x03 : UInt8))

/-- A byte of its low bits and the high bits for the first, second and third of three bytes. -/
def unpackA (low high : UInt8) : UInt8 := low ||| ((high &&& (0x30 : UInt8)) <<< (2 : UInt8))
def unpackB (low high : UInt8) : UInt8 := low ||| ((high &&& (0x0c : UInt8)) <<< (4 : UInt8))
def unpackC (low high : UInt8) : UInt8 := low ||| ((high &&& (0x03 : UInt8)) <<< (6 : UInt8))

section
variable (x y z : UInt8)

theorem unpackA_packed : unpackA (x &&& 0x3f) (packed x y z &&& 0x3f) = x := by
  apply UInt8.toBitVec_inj.1
  apply BitVec.eq_of_getLsbD_eq
  intro i hi
  interval_cases i <;> simp [packed, unpackA]

theorem unpackB_packed : unpackB (y &&& 0x3f) (packed x y z &&& 0x3f) = y := by
  apply UInt8.toBitVec_inj.1
  apply BitVec.eq_of_getLsbD_eq
  intro i hi
  interval_cases i <;> simp [packed, unpackB]

theorem unpackC_packed : unpackC (z &&& 0x3f) (packed x y z &&& 0x3f) = z := by
  apply UInt8.toBitVec_inj.1
  apply BitVec.eq_of_getLsbD_eq
  intro i hi
  interval_cases i <;> simp [packed, unpackC]

end

/-! ## Groups of three bytes -/

/-- The check sums that run along a payload. -/
structure GcrChecksums where
  a : UInt8 := 0
  b : UInt8 := 0
  c : UInt8 := 0
  deriving DecidableEq

def rol1 (value : UInt8) : UInt8 := (value <<< (1 : UInt8)) ||| (value >>> (7 : UInt8))

/-- Three plain bytes are encoded; the last group of a payload has no third byte. -/
def encodeGroup (last : Bool) (sums : GcrChecksums) (plainA plainB plainC : UInt8) :
    (UInt8 × UInt8 × UInt8) × GcrChecksums :=
  let checksumC := rol1 sums.c
  let sumA := sums.a.toNat + plainA.toNat + (checksumC &&& 0x01).toNat
  let checksumA := UInt8.ofNat sumA
  let encodedA := plainA ^^^ checksumC
  let sumB := sums.b.toNat + plainB.toNat + (if 0xff < sumA then 1 else 0)
  let checksumB := UInt8.ofNat sumB
  let encodedB := plainB ^^^ checksumA
  let sumC := checksumC.toNat + plainC.toNat + (if 0xff < sumB then 1 else 0)
  let encodedC := plainC ^^^ checksumB
  ((encodedA, encodedB, encodedC),
    { a := checksumA, b := checksumB, c := if last then checksumC else UInt8.ofNat sumC })

/-- Three encoded bytes are decoded. -/
def decodeGroup (last : Bool) (sums : GcrChecksums) (encodedA encodedB encodedC : UInt8) :
    (UInt8 × UInt8 × UInt8) × GcrChecksums :=
  let checksumC := rol1 sums.c
  let plainA := encodedA ^^^ checksumC
  let sumA := sums.a.toNat + plainA.toNat + (checksumC &&& 0x01).toNat
  let checksumA := UInt8.ofNat sumA
  let plainB := encodedB ^^^ checksumA
  let sumB := sums.b.toNat + plainB.toNat + (if 0xff < sumA then 1 else 0)
  let checksumB := UInt8.ofNat sumB
  let plainC := encodedC ^^^ checksumB
  let sumC := checksumC.toNat + plainC.toNat + (if 0xff < sumB then 1 else 0)
  ((plainA, plainB, plainC),
    { a := checksumA, b := checksumB, c := if last then checksumC else UInt8.ofNat sumC })

theorem xor_cancel (x y : UInt8) : x ^^^ y ^^^ y = x := by
  rw [UInt8.xor_assoc, UInt8.xor_self, UInt8.xor_zero]

/-- The decoder keeps the check sums of the encoder. -/
theorem decodeGroup_encodeGroup (sums : GcrChecksums) (plainA plainB plainC : UInt8) :
    decodeGroup false sums (encodeGroup false sums plainA plainB plainC).1.1
        (encodeGroup false sums plainA plainB plainC).1.2.1
        (encodeGroup false sums plainA plainB plainC).1.2.2 =
      ((plainA, plainB, plainC), (encodeGroup false sums plainA plainB plainC).2) := by
  simp only [decodeGroup, encodeGroup, xor_cancel]

/-- In the last group, the third byte does not matter. -/
theorem decodeGroup_encodeGroup_last (sums : GcrChecksums) (plainA plainB plainC c : UInt8) :
    let e := encodeGroup true sums plainA plainB plainC
    let d := decodeGroup true sums e.1.1 e.1.2.1 c
    d.1.1 = plainA ∧ d.1.2.1 = plainB ∧ d.2 = e.2 := by
  simp only [decodeGroup, encodeGroup, xor_cancel, if_true, and_self]

/-! ## Payloads -/

/-- The groups from a payload's current position on, `groups` of them, and the check sums. -/
def encodeGroups : Nat → List UInt8 → GcrChecksums → List UInt8
  | 0, _, sums =>
    [gcr (packed sums.a sums.b sums.c), gcr sums.a, gcr sums.b, gcr sums.c]
  | groups + 1, payload, sums =>
    let last := groups == 0
    let e := encodeGroup last sums (payload.getD 0 0) (payload.getD 1 0)
      (if last then 0 else payload.getD 2 0)
    [gcr (packed e.1.1 e.1.2.1 e.1.2.2), gcr e.1.1, gcr e.1.2.1] ++
      (if last then [] else [gcr e.1.2.2]) ++ encodeGroups groups (payload.drop 3) e.2

/-- What `appendEncodedPayload` appends. -/
def encodedPayload (payload : List UInt8) : List UInt8 := encodeGroups 175 payload {}

def decodeGroups : Nat → List UInt8 → GcrChecksums → Option (List UInt8)
  | 0, encoded, sums => do
    let high ← decodeGcr (encoded.getD 0 0)
    let checkA ← decodeGcr (encoded.getD 1 0)
    let checkB ← decodeGcr (encoded.getD 2 0)
    let checkC ← decodeGcr (encoded.getD 3 0)
    if unpackA checkA high = sums.a ∧ unpackB checkB high = sums.b ∧ unpackC checkC high = sums.c
    then some [] else none
  | groups + 1, encoded, sums => do
    let last := groups == 0
    let high ← decodeGcr (encoded.getD 0 0)
    let lowA ← decodeGcr (encoded.getD 1 0)
    let lowB ← decodeGcr (encoded.getD 2 0)
    let lowC ← if last then some 0 else decodeGcr (encoded.getD 3 0)
    let d := decodeGroup last sums (unpackA lowA high) (unpackB lowB high) (unpackC lowC high)
    let rest ← decodeGroups groups (encoded.drop (if last then 3 else 4)) d.2
    some ([d.1.1, d.1.2.1] ++ (if last then [] else [d.1.2.2]) ++ rest)

/-- The payload of 703 disk bytes; `none` where the source returns `false`. -/
def decodeGcrPayload (encoded : List UInt8) : Option (List UInt8) :=
  if encoded.length ≠ 703 then none else decodeGroups 175 encoded {}

theorem length_encodeGroups (n : Nat) (payload : List UInt8) (sums : GcrChecksums) :
    (encodeGroups (n + 1) payload sums).length = 4 * n + 7 := by
  induction n generalizing payload sums with
  | zero => rfl
  | succ n ih =>
    rw [encodeGroups]
    simp only [List.length_append, ih]
    simp
    omega

theorem length_encodedPayload (payload : List UInt8) : (encodedPayload payload).length = 703 :=
  length_encodeGroups 174 payload {}

/-- A payload has no marks of the disk. -/
theorem mem_encodeGroups (n : Nat) (payload : List UInt8) (sums : GcrChecksums) :
    ∀ v ∈ encodeGroups n payload sums, v ≠ 0xd5 ∧ v ≠ 0xaa := by
  have hgcr : ∀ v, gcr v ≠ 0xd5 ∧ gcr v ≠ 0xaa := fun v => ⟨gcr_ne_d5 v, gcr_ne_aa v⟩
  induction n generalizing payload sums with
  | zero =>
    intro v hv
    simp only [encodeGroups, List.mem_cons, List.not_mem_nil, or_false] at hv
    rcases hv with rfl | rfl | rfl | rfl <;> exact hgcr _
  | succ n ih =>
    intro v hv
    rw [encodeGroups] at hv
    rcases List.mem_append.1 hv with hv | hv
    · rcases List.mem_append.1 hv with hv | hv
      · simp only [List.mem_cons, List.not_mem_nil, or_false] at hv
        rcases hv with rfl | rfl | rfl <;> exact hgcr _
      · split at hv
        · cases hv
        · rw [List.mem_singleton.1 hv]
          exact hgcr _
    · exact ih _ _ v hv

theorem mem_encodedPayload (payload : List UInt8) :
    ∀ v ∈ encodedPayload payload, v ≠ 0xd5 ∧ v ≠ 0xaa :=
  mem_encodeGroups 175 payload {}

/-- The check sums of the encoder are the ones the decoder expects. -/
theorem decodeGroups_encodeGroups_zero (payload : List UInt8) (sums : GcrChecksums) :
    decodeGroups 0 (encodeGroups 0 payload sums) sums = some [] := by
  simp only [encodeGroups, decodeGroups, List.getD_cons_zero, List.getD_cons_succ, decodeGcr_gcr,
    Option.bind_eq_bind, Option.bind_some, unpackA_packed, unpackB_packed, unpackC_packed,
    and_self, if_true]

/-- Decoding runs along with encoding, group by group. -/
theorem decodeGroups_encodeGroups (n : Nat) (payload : List UInt8) (sums : GcrChecksums)
    (h : 3 * n + 2 ≤ payload.length) :
    decodeGroups (n + 1) (encodeGroups (n + 1) payload sums) sums =
      some (payload.take (3 * n + 2)) := by
  induction n generalizing payload sums with
  | zero =>
    match payload, h with
    | x :: y :: rest, _ =>
      have hd := decodeGroup_encodeGroup_last sums x y 0
      rw [encodeGroups, decodeGroups]
      generalize he : encodeGroup true sums x y 0 = e at hd
      simp only [beq_self_eq_true, if_true, List.getD_cons_zero, List.getD_cons_succ, he,
        List.append_nil, List.cons_append, List.nil_append, decodeGcr_gcr, Option.bind_eq_bind,
        Option.bind_some, unpackA_packed, unpackB_packed, List.drop_succ_cons, List.drop_zero,
        (hd _).1, (hd _).2.1, (hd _).2.2, decodeGroups_encodeGroups_zero]
      rfl
  | succ n ih =>
    match payload, h with
    | x :: y :: z :: rest, h =>
      have hd := decodeGroup_encodeGroup sums x y z
      have hlast : (n + 1 == 0) = false := rfl
      rw [encodeGroups, decodeGroups]
      generalize he : encodeGroup false sums x y z = e at hd
      simp only [hlast, Bool.false_eq_true, if_false, List.getD_cons_zero,
        List.getD_cons_succ, he, List.cons_append, List.nil_append,
        decodeGcr_gcr, Option.bind_eq_bind, Option.bind_some, unpackA_packed, unpackB_packed,
        unpackC_packed, List.drop_succ_cons, List.drop_zero, hd]
      rw [ih rest e.2 (by simp only [List.length_cons] at h; omega)]
      rfl

theorem decodeGcrPayload_encodedPayload {payload : List UInt8}
    (h : payload.length = encodedPayloadBytes) :
    decodeGcrPayload (encodedPayload payload) = some payload := by
  rw [decodeGcrPayload, if_neg (by rw [length_encodedPayload]; decide), encodedPayload,
    decodeGroups_encodeGroups 174 payload {} (by rw [h]; decide)]
  exact congrArg some (List.take_of_length_le (by rw [h]; decide))

/-! ## Disk bytes that are accepted -/

/-- A code byte is the one that its six bits are written as. -/
theorem gcr_of_decodeGcr {value bits : UInt8} (h : decodeGcr value = some bits) :
    gcr bits = value ∧ bits &&& 0x3f = bits := by
  obtain ⟨i, hi, rfl⟩ := Option.map_eq_some_iff.1 h
  obtain ⟨hlt, hvalue, -⟩ := List.findIdx?_eq_some_iff_getElem.1 hi
  have hlt' : i < 64 := hlt
  have hbits : UInt8.ofNat i &&& 0x3f = UInt8.ofNat i := by
    interval_cases i <;> rfl
  refine ⟨?_, hbits⟩
  rw [gcr, hbits, UInt8.toNat_ofNat', Nat.mod_eq_of_lt (by omega)]
  rw [List.getD_eq_getElem?_getD, List.getElem?_eq_getElem hlt]
  exact beq_iff_eq.1 hvalue

section
variable {low high x y z : UInt8}

theorem gcr_congr (h : x &&& 0x3f = y &&& 0x3f) : gcr x = gcr y := by rw [gcr, gcr, h]

theorem unpackA_low (h : low &&& 0x3f = low) : unpackA low high &&& 0x3f = low &&& 0x3f := by
  rw [← h]
  apply UInt8.toBitVec_inj.1
  apply BitVec.eq_of_getLsbD_eq
  intro i hi
  interval_cases i <;> simp [unpackA]

theorem unpackB_low (h : low &&& 0x3f = low) : unpackB low high &&& 0x3f = low &&& 0x3f := by
  rw [← h]
  apply UInt8.toBitVec_inj.1
  apply BitVec.eq_of_getLsbD_eq
  intro i hi
  interval_cases i <;> simp [unpackB]

theorem unpackC_low (h : low &&& 0x3f = low) : unpackC low high &&& 0x3f = low &&& 0x3f := by
  rw [← h]
  apply UInt8.toBitVec_inj.1
  apply BitVec.eq_of_getLsbD_eq
  intro i hi
  interval_cases i <;> simp [unpackC]

/-- The high bits come back, those of the third byte where it is unpacked as well. -/
theorem packed_unpack (hx : x &&& 0x3f = x) (hy : y &&& 0x3f = y) (hz : z &&& 0x3f = z) :
    packed (unpackA x high) (unpackB y high) (unpackC z high) &&& 0x3f = high &&& 0x3f := by
  rw [← hx, ← hy, ← hz]
  apply UInt8.toBitVec_inj.1
  apply BitVec.eq_of_getLsbD_eq
  intro i hi
  interval_cases i <;> simp [packed, unpackA, unpackB, unpackC]

theorem packed_unpack_two (hx : x &&& 0x3f = x) (hy : y &&& 0x3f = y) :
    packed (unpackA x high) (unpackB y high) z &&& 0x3c = high &&& 0x3c := by
  rw [← hx, ← hy]
  apply UInt8.toBitVec_inj.1
  apply BitVec.eq_of_getLsbD_eq
  intro i hi
  interval_cases i <;> simp [packed, unpackA, unpackB]

end

/-- The encoder keeps the check sums of the decoder. -/
theorem encodeGroup_decodeGroup (sums : GcrChecksums) (a b c : UInt8) :
    encodeGroup false sums (decodeGroup false sums a b c).1.1 (decodeGroup false sums a b c).1.2.1
        (decodeGroup false sums a b c).1.2.2 = ((a, b, c), (decodeGroup false sums a b c).2) := by
  unfold decodeGroup encodeGroup
  dsimp only
  rw [xor_cancel, xor_cancel, xor_cancel]

theorem encodeGroup_decodeGroup_last (sums : GcrChecksums) (a b c z : UInt8) :
    let d := decodeGroup true sums a b c
    let e := encodeGroup true sums d.1.1 d.1.2.1 z
    e.1.1 = a ∧ e.1.2.1 = b ∧ e.2 = d.2 := by
  simp only [decodeGroup, encodeGroup, xor_cancel, if_true, and_self]

/-- Two disk bytes carry the same high bits of two bytes. -/
def SameTwo (value value' : UInt8) : Prop :=
  ∃ bits bits', decodeGcr value = some bits ∧ decodeGcr value' = some bits' ∧
    bits &&& 0x3c = bits' &&& 0x3c

/-- The check sums that are accepted are the ones that are written. -/
theorem encodeGroups_decodeGroups_zero {encoded payload plain : List UInt8} {sums : GcrChecksums}
    (hlength : encoded.length = 4) (h : decodeGroups 0 encoded sums = some payload) :
    payload = [] ∧ encodeGroups 0 plain sums = encoded := by
  match encoded, hlength with
  | [e₀, e₁, e₂, e₃], _ =>
    rw [decodeGroups] at h
    simp only [Option.bind_eq_bind, Option.bind_eq_some_iff, List.getD_cons_zero,
      List.getD_cons_succ] at h
    obtain ⟨high, hhigh, checkA, hA, checkB, hB, checkC, hC, h⟩ := h
    split_ifs at h with hsums
    obtain ⟨ha, hb, hc⟩ := hsums
    obtain ⟨hhigh, -⟩ := gcr_of_decodeGcr hhigh
    obtain ⟨hA, hA'⟩ := gcr_of_decodeGcr hA
    obtain ⟨hB, hB'⟩ := gcr_of_decodeGcr hB
    obtain ⟨hC, hC'⟩ := gcr_of_decodeGcr hC
    refine ⟨(Option.some.inj h).symm, ?_⟩
    rw [encodeGroups, ← ha, ← hb, ← hc, gcr_congr (packed_unpack hA' hB' hC'),
      gcr_congr (unpackA_low hA'), gcr_congr (unpackB_low hB'), gcr_congr (unpackC_low hC'),
      hhigh, hA, hB, hC]

/-- Encoding what was decoded, group by group. -/
theorem encodeGroups_decodeGroups (n : Nat) {encoded payload : List UInt8} {sums : GcrChecksums}
    (hlength : encoded.length = 4 * n + 7)
    (h : decodeGroups (n + 1) encoded sums = some payload) :
    payload.length = 3 * n + 2 ∧ ∃ value, SameTwo (encoded.getD (4 * n) 0) value ∧
      encodeGroups (n + 1) payload sums = encoded.set (4 * n) value := by
  induction n generalizing encoded payload sums with
  | zero =>
    match encoded, hlength with
    | [e₀, e₁, e₂, e₃, e₄, e₅, e₆], _ =>
      rw [decodeGroups] at h
      simp only [beq_self_eq_true, if_true, Option.bind_eq_bind, Option.bind_some,
        Option.bind_eq_some_iff, List.getD_cons_zero, List.getD_cons_succ, List.drop_succ_cons,
        List.drop_zero, List.append_nil] at h
      obtain ⟨high, hhigh, lowA, hA, lowB, hB, rest, hrest, heq⟩ := h
      generalize hd : decodeGroup true sums (unpackA lowA high) (unpackB lowB high)
        (unpackC 0 high) = d at hrest heq
      have hgroup := encodeGroup_decodeGroup_last sums (unpackA lowA high) (unpackB lowB high)
        (unpackC 0 high) 0
      rw [hd] at hgroup
      obtain ⟨hencA, hencB, hsums⟩ := hgroup
      obtain ⟨rfl, hend⟩ := @encodeGroups_decodeGroups_zero _ _ [] _ rfl hrest
      obtain rfl := Option.some.inj heq
      obtain ⟨hA, hA'⟩ := gcr_of_decodeGcr hA
      obtain ⟨hB, hB'⟩ := gcr_of_decodeGcr hB
      generalize he : encodeGroup true sums d.1.1 d.1.2.1 0 = e at hencA hencB hsums
      refine ⟨rfl, gcr (packed e.1.1 e.1.2.1 e.1.2.2), ⟨high, _, hhigh, decodeGcr_gcr _, ?_⟩, ?_⟩
      · rw [hencA, hencB, UInt8.and_assoc]
        exact (packed_unpack_two hA' hB').symm
      · rw [encodeGroups]
        simp only [beq_self_eq_true, if_true, List.cons_append, List.nil_append, List.append_nil,
          List.getD_cons_zero, List.getD_cons_succ, List.drop_succ_cons, List.drop_nil, he,
          Nat.mul_zero, List.set_cons_zero, hsums, hend]
        rw [hencA, hencB, gcr_congr (unpackA_low hA'), gcr_congr (unpackB_low hB'), hA, hB]
  | succ n ih =>
    match encoded, hlength with
    | e₀ :: e₁ :: e₂ :: e₃ :: encoded, hlength =>
      have hlast : (n + 1 == 0) = false := rfl
      rw [decodeGroups] at h
      simp only [hlast, Bool.false_eq_true, if_false, Option.bind_eq_bind, Option.bind_some,
        Option.bind_eq_some_iff, List.getD_cons_zero, List.getD_cons_succ, List.drop_succ_cons,
        List.drop_zero] at h
      obtain ⟨high, hhigh, lowA, hA, lowB, hB, lowC, hC, rest, hrest, heq⟩ := h
      generalize hd : decodeGroup false sums (unpackA lowA high) (unpackB lowB high)
        (unpackC lowC high) = d at hrest heq
      have hgroup := encodeGroup_decodeGroup sums (unpackA lowA high) (unpackB lowB high)
        (unpackC lowC high)
      rw [hd] at hgroup
      obtain rfl := Option.some.inj heq
      obtain ⟨hlen, value, hsame, hrest⟩ := ih (by simp only [List.length_cons] at hlength; omega) hrest
      obtain ⟨hhigh, -⟩ := gcr_of_decodeGcr hhigh
      obtain ⟨hA, hA'⟩ := gcr_of_decodeGcr hA
      obtain ⟨hB, hB'⟩ := gcr_of_decodeGcr hB
      obtain ⟨hC, hC'⟩ := gcr_of_decodeGcr hC
      refine ⟨?_, value, ?_, ?_⟩
      · simp only [List.length_append, List.length_cons, List.length_nil, hlen]
        omega
      · rw [show 4 * (n + 1) = 4 * n + 1 + 1 + 1 + 1 by omega]
        simpa using hsame
      · rw [encodeGroups, show 4 * (n + 1) = 4 * n + 1 + 1 + 1 + 1 by omega]
        simp only [hlast, Bool.false_eq_true, if_false, List.cons_append, List.nil_append,
          List.getD_cons_zero, List.getD_cons_succ, List.drop_succ_cons, List.drop_zero, hgroup,
          hrest, gcr_congr (packed_unpack hA' hB' hC'), gcr_congr (unpackA_low hA'),
          gcr_congr (unpackB_low hB'), gcr_congr (unpackC_low hC'), hhigh, hA, hB, hC,
          List.set_cons_succ]

/-- The payload codec, up to the bits of the last group that carry nothing. -/
theorem gcrPayload_codec :
    (∀ payload : List UInt8, payload.length = encodedPayloadBytes →
      decodeGcrPayload (encodedPayload payload) = some payload) ∧
    ∀ encoded payload : List UInt8, decodeGcrPayload encoded = some payload →
      encoded.length = 703 ∧ payload.length = encodedPayloadBytes ∧
        SameTwo (encoded.getD 696 0) ((encodedPayload payload).getD 696 0) ∧
        ∀ i, i ≠ 696 → (encodedPayload payload)[i]? = encoded[i]? := by
  refine ⟨fun payload h => decodeGcrPayload_encodedPayload h, ?_⟩
  intro encoded payload h
  unfold decodeGcrPayload at h
  split_ifs at h with hlength
  rw [not_not] at hlength
  obtain ⟨hpayload, value, hsame, hencode⟩ := encodeGroups_decodeGroups 174 hlength h
  have hset : encodedPayload payload = encoded.set 696 value := hencode
  refine ⟨hlength, hpayload, ?_, ?_⟩
  · have hget : (encoded.set 696 value).getD 696 0 = value := by
      rw [List.getD_eq_getElem?_getD, List.getElem?_set_self (by omega)]
      rfl
    rw [hset, hget]
    exact hsame
  · intro i hi
    rw [hset, List.getElem?_set_ne (Ne.symm hi)]

end CuteMac.Floppy
