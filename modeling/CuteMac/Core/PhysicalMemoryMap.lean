/-
  The table of pages that can be accessed directly (`PhysicalMemoryMap`).

  * `Page`, `PhysicalMemoryMap`: where the bytes of a page are, to be read and to
    be written;
  * `tryRead`, `tryWrite`: accesses of some bytes within a page;
  * `pageFor_mapPages`: a loop that maps consecutive pages;
  * `tryRead_bytes`, `tryWrite_cons`: an access is one access for each byte.

  A pointer to bytes is a region with an offset into it.  The directories, which
  only save room, are left out: the table is a function of the page number.
-/
import Mathlib.Data.List.Basic
import Mathlib.Logic.Function.Basic
import Mathlib.Tactic.SplitIfs
import Mathlib.Data.UInt
import Mathlib.Tactic.Ring

namespace CuteMac.Core

variable {ρ : Type} [DecidableEq ρ]

structure Page (ρ : Type) where
  read : Option (ρ × Nat) := none
  write : Option (ρ × Nat) := none

namespace Page

def readWrite (bytes : ρ × Nat) : Page ρ := { read := some bytes, write := some bytes }
def readOnly (bytes : ρ × Nat) : Page ρ := { read := some bytes }

end Page

/-- The pages, by their number. -/
abbrev PhysicalMemoryMap (ρ : Type) := Nat → Page ρ

abbrev Bytes (ρ : Type) := ρ → Nat → UInt8

/-- The value of some bytes, the high one first. -/
def bigEndian (bytes : List UInt8) : Nat := bytes.foldl (fun value b => value * 256 + b.toNat) 0

/-- The bytes of a value, the high one first. -/
def bytesOf (value : Nat) : Nat → List UInt8
  | 0 => []
  | size + 1 => UInt8.ofNat (value / 256 ^ size) :: bytesOf value size

namespace PhysicalMemoryMap

def pageSize : Nat := 4096

def clear : PhysicalMemoryMap ρ := fun _ => {}

def pageFor (map : PhysicalMemoryMap ρ) (address : UInt32) : Page ρ :=
  map (address.toNat / pageSize)

/-- The place of an address in its page. -/
def pageOffset (address : UInt32) : Nat := address.toNat % pageSize

def mapPage (map : PhysicalMemoryMap ρ) (address : UInt32) (page : Page ρ) : PhysicalMemoryMap ρ :=
  if pageOffset address ≠ 0 then map else Function.update map (address.toNat / pageSize) page

def mapReadWritePage (map : PhysicalMemoryMap ρ) (address : UInt32) (bytes : ρ × Nat) :
    PhysicalMemoryMap ρ := map.mapPage address (.readWrite bytes)

def mapReadOnlyPage (map : PhysicalMemoryMap ρ) (address : UInt32) (bytes : ρ × Nat) :
    PhysicalMemoryMap ρ := map.mapPage address (.readOnly bytes)

/-- The loops over pages: `page i` is what becomes of the page at `address + i * pageSize`, if
    anything. -/
def mapPages (map : PhysicalMemoryMap ρ) (address : UInt32) (count : Nat)
    (page : Nat → Option (Page ρ)) : PhysicalMemoryMap ρ :=
  (List.range count).foldl (fun map i =>
    match page i with
    | some p => map.mapPage (address + UInt32.ofNat (i * pageSize)) p
    | none => map) map

def mapReadOnlyMirrored (map : PhysicalMemoryMap ρ) (address : UInt32) (length : Nat)
    (bytes : ρ × Nat) (bytesLength : Nat) : PhysicalMemoryMap ρ :=
  if pageOffset address ≠ 0 ∨ length % pageSize ≠ 0 ∨ bytesLength = 0 ∨ bytesLength % pageSize ≠ 0
  then map
  else
    map.mapPages address (length / pageSize) fun i =>
      some (.readOnly (bytes.1, bytes.2 + i * pageSize % bytesLength))

/-- The bytes of a read of `size` bytes, if they are in one page that can be read. -/
def tryRead (map : PhysicalMemoryMap ρ) (bytes : Bytes ρ) (size : Nat) (address : UInt32) :
    Option (List UInt8) :=
  if pageSize < pageOffset address + size then none
  else
    (map.pageFor address).read.map fun p =>
      (List.range size).map fun i => bytes p.1 (p.2 + pageOffset address + i)

def tryRead8 (map : PhysicalMemoryMap ρ) (bytes : Bytes ρ) (address : UInt32) : Option UInt8 :=
  (map.tryRead bytes 1 address).map fun bs => UInt8.ofNat (bigEndian bs)

def tryRead16 (map : PhysicalMemoryMap ρ) (bytes : Bytes ρ) (address : UInt32) : Option UInt16 :=
  (map.tryRead bytes 2 address).map fun bs => UInt16.ofNat (bigEndian bs)

def tryRead32 (map : PhysicalMemoryMap ρ) (bytes : Bytes ρ) (address : UInt32) : Option UInt32 :=
  (map.tryRead bytes 4 address).map fun bs => UInt32.ofNat (bigEndian bs)

/-- Consecutive bytes of a region are written. -/
def writeBytes (bytes : Bytes ρ) (region : ρ) (offset : Nat) : List UInt8 → Bytes ρ
  | [] => bytes
  | b :: bs =>
    writeBytes (Function.update bytes region (Function.update (bytes region) offset b)) region
      (offset + 1) bs

/-- A write of some bytes, if they are in one page that can be written. -/
def tryWrite (map : PhysicalMemoryMap ρ) (bytes : Bytes ρ) (address : UInt32)
    (values : List UInt8) : Option (Bytes ρ) :=
  if pageSize < pageOffset address + values.length then none
  else
    (map.pageFor address).write.map fun p =>
      writeBytes bytes p.1 (p.2 + pageOffset address) values

def tryWrite8 (map : PhysicalMemoryMap ρ) (bytes : Bytes ρ) (address : UInt32) (value : UInt8) :
    Option (Bytes ρ) := map.tryWrite bytes address [value]

def tryWrite16 (map : PhysicalMemoryMap ρ) (bytes : Bytes ρ) (address : UInt32) (value : UInt16) :
    Option (Bytes ρ) := map.tryWrite bytes address (bytesOf value.toNat 2)

def tryWrite32 (map : PhysicalMemoryMap ρ) (bytes : Bytes ρ) (address : UInt32) (value : UInt32) :
    Option (Bytes ρ) := map.tryWrite bytes address (bytesOf value.toNat 4)

end PhysicalMemoryMap

/-! ## Words and long words -/

/-- Two bytes, as the buses put them together. -/
theorem toNat_word (high low : UInt8) :
    ((high.toUInt16 <<< 8) ||| low.toUInt16).toNat = high.toNat * 256 + low.toNat := by
  have h1 := high.toNat_lt
  have h2 := low.toNat_lt
  rw [UInt16.toNat_or, UInt16.toNat_shiftLeft, UInt8.toNat_toUInt16, UInt8.toNat_toUInt16,
    show (8 : UInt16).toNat % 16 = 8 from rfl, Nat.mod_eq_of_lt (by rw [Nat.shiftLeft_eq]; omega),
    ← Nat.shiftLeft_add_eq_or_of_lt h2, Nat.shiftLeft_eq]

theorem toNat_long (high low : UInt16) :
    ((high.toUInt32 <<< 16) ||| low.toUInt32).toNat = high.toNat * 65536 + low.toNat := by
  have h1 := high.toNat_lt
  have h2 := low.toNat_lt
  rw [UInt32.toNat_or, UInt32.toNat_shiftLeft, UInt16.toNat_toUInt32, UInt16.toNat_toUInt32,
    show (16 : UInt32).toNat % 32 = 16 from rfl, Nat.mod_eq_of_lt (by rw [Nat.shiftLeft_eq]; omega),
    ← Nat.shiftLeft_add_eq_or_of_lt h2, Nat.shiftLeft_eq]

theorem bigEndian_append (xs ys : List UInt8) :
    bigEndian (xs ++ ys) = bigEndian xs * 256 ^ ys.length + bigEndian ys := by
  have hfrom : ∀ (ys : List UInt8) (n : Nat),
      ys.foldl (fun value b => value * 256 + b.toNat) n = n * 256 ^ ys.length + bigEndian ys := by
    intro ys
    induction ys with
    | nil => simp [bigEndian]
    | cons y ys ih =>
      intro n
      unfold bigEndian
      rw [List.foldl_cons, List.foldl_cons, ih, ih (0 * 256 + y.toNat), List.length_cons,
        Nat.pow_succ]
      ring
  rw [bigEndian, List.foldl_append, hfrom]
  rfl

theorem length_bytesOf (value : Nat) : ∀ size, (bytesOf value size).length = size
  | 0 => rfl
  | size + 1 => congrArg (· + 1) (length_bytesOf value size)

/-- The bytes of a value make it again, as far as there are enough of them. -/
theorem bigEndian_bytesOf (value size : Nat) :
    bigEndian (bytesOf value size) = value % 256 ^ size := by
  induction size with
  | zero => exact (Nat.mod_one value).symm
  | succ size ih =>
    have hone : bigEndian [UInt8.ofNat (value / 256 ^ size)] = value / 256 ^ size % 256 :=
      (Nat.zero_add _).trans (UInt8.toNat_ofNat' ..)
    rw [bytesOf, ← List.singleton_append, bigEndian_append, hone, ih, length_bytesOf, Nat.pow_succ,
      Nat.mod_mul, Nat.mul_comm, Nat.add_comm]

theorem bigEndian_lt (xs : List UInt8) : bigEndian xs < 256 ^ xs.length := by
  induction xs using List.reverseRecOn with
  | nil => exact Nat.one_pos
  | append_singleton xs x ih =>
    have hx := x.toNat_lt
    have hone : bigEndian [x] = x.toNat := Nat.zero_add _
    rw [bigEndian_append, List.length_append, List.length_singleton, Nat.pow_one, hone,
      Nat.pow_succ]
    omega

theorem bigEndian_lt_word {xs : List UInt8} (h : xs.length = 2) : bigEndian xs < 2 ^ 16 := by
  have hlt := bigEndian_lt xs
  rw [h] at hlt
  omega

theorem word_eq (high low : UInt8) :
    (high.toUInt16 <<< 8) ||| low.toUInt16 = UInt16.ofNat (bigEndian [high, low]) := by
  have hlt : bigEndian [high, low] < 2 ^ 16 := bigEndian_lt_word rfl
  have hbe : bigEndian [high, low] = high.toNat * 256 + low.toNat := by simp [bigEndian]
  rw [← UInt16.toNat_inj, toNat_word, UInt16.toNat_ofNat', Nat.mod_eq_of_lt hlt, hbe]

theorem long_eq {xs ys : List UInt8} (hx : xs.length = 2) (hy : ys.length = 2) :
    ((UInt16.ofNat (bigEndian xs)).toUInt32 <<< 16) ||| (UInt16.ofNat (bigEndian ys)).toUInt32
      = UInt32.ofNat (bigEndian (xs ++ ys)) := by
  have h1 := bigEndian_lt_word hx
  have h2 := bigEndian_lt_word hy
  rw [← UInt32.toNat_inj, toNat_long, UInt16.toNat_ofNat', UInt16.toNat_ofNat',
    UInt32.toNat_ofNat', Nat.mod_eq_of_lt h1, Nat.mod_eq_of_lt h2, bigEndian_append, hy,
    Nat.mod_eq_of_lt (by omega)]
  rfl

theorem bytesOf_word (value : UInt16) :
    bytesOf value.toNat 2 = [(value >>> 8).toUInt8, value.toUInt8] := by
  have h1 : UInt8.ofNat (value.toNat / 256 ^ 1) = (value >>> 8).toUInt8 := by
    rw [← UInt8.toNat_inj, UInt8.toNat_ofNat', UInt16.toNat_toUInt8, UInt16.toNat_shiftRight,
      show (8 : UInt16).toNat % 16 = 8 from rfl, Nat.shiftRight_eq_div_pow, Nat.pow_one]
  have h0 : UInt8.ofNat (value.toNat / 256 ^ 0) = value.toUInt8 := by
    rw [← UInt8.toNat_inj, UInt8.toNat_ofNat', UInt16.toNat_toUInt8, Nat.pow_zero, Nat.div_one]
  rw [bytesOf, bytesOf, bytesOf, h1, h0]

/-- The bytes of a long word are those of its two words. -/
theorem bytesOf_long (value : UInt32) :
    bytesOf value.toNat 4
      = bytesOf (value >>> 16).toUInt16.toNat 2 ++ bytesOf value.toUInt16.toNat 2 := by
  have hb : ∀ m n : Nat, m % 256 = n % 256 → UInt8.ofNat m = UInt8.ofNat n := by
    intro m n h
    rw [← UInt8.toNat_inj, UInt8.toNat_ofNat', UInt8.toNat_ofNat']
    exact h
  have hlt := value.toNat_lt
  have hh : (value >>> 16).toUInt16.toNat = value.toNat / 65536 % 65536 := by
    rw [UInt32.toNat_toUInt16, UInt32.toNat_shiftRight,
      show (16 : UInt32).toNat % 32 = 16 from rfl, Nat.shiftRight_eq_div_pow]
  rw [hh, UInt32.toNat_toUInt16]
  simp only [bytesOf, List.cons_append, List.nil_append]
  rw [hb (value.toNat / 256 ^ 3) (value.toNat / 65536 % 65536 / 256 ^ 1) (by omega),
    hb (value.toNat / 256 ^ 2) (value.toNat / 65536 % 65536 / 256 ^ 0) (by omega),
    hb (value.toNat / 256 ^ 1) (value.toNat % 2 ^ 16 / 256 ^ 1) (by omega),
    hb (value.toNat / 256 ^ 0) (value.toNat % 2 ^ 16 / 256 ^ 0) (by omega)]

/-- The 256 MiB that an address is in. -/
theorem toNat_and_window (address : UInt32) :
    (address &&& 0xf0000000).toNat = address.toNat / 2 ^ 28 * 2 ^ 28 := by
  have hlt := address.toNat_lt
  have hmask : ∀ i < 32, Nat.testBit 0xf0000000 i = decide (28 ≤ i) := by decide
  rw [UInt32.toNat_and]
  apply Nat.eq_of_testBit_eq
  intro i
  rw [Nat.testBit_and, Nat.testBit_mul_two_pow, Nat.testBit_div_two_pow]
  by_cases hi : i < 32
  · rw [show (0xf0000000 : UInt32).toNat = 0xf0000000 from rfl, hmask i hi, Bool.and_comm]
    by_cases h28 : 28 ≤ i
    · rw [Nat.sub_add_cancel h28]
    · rw [decide_eq_false h28, Bool.false_and, Bool.false_and]
  · have hbit : address.toNat.testBit i = false := by
      apply Nat.testBit_lt_two_pow
      exact lt_of_lt_of_le hlt (Nat.pow_le_pow_right (by omega) (by omega))
    rw [hbit, Nat.sub_add_cancel (by omega), hbit, Bool.and_false, Bool.false_and]

namespace PhysicalMemoryMap

/-! ## Loops over pages -/

theorem pageSize_pos : 0 < pageSize := by
  unfold pageSize
  omega

omit [DecidableEq ρ] in
/-- Mapping a page changes that page alone. -/
theorem mapPage_apply (map : PhysicalMemoryMap ρ) (address : UInt32) (page : Page ρ)
    (ha : pageOffset address = 0) (n : Nat) :
    map.mapPage address page n = if n = address.toNat / pageSize then page else map n := by
  unfold mapPage
  rw [if_neg (not_not.2 ha)]
  exact Function.update_apply ..

omit [DecidableEq ρ] in
theorem mapPages_succ (map : PhysicalMemoryMap ρ) (address : UInt32) (count : Nat)
    (page : Nat → Option (Page ρ)) :
    map.mapPages address (count + 1) page =
      match page count with
      | some p =>
        (map.mapPages address count page).mapPage (address + UInt32.ofNat (count * pageSize)) p
      | none => map.mapPages address count page := by
  rw [mapPages, List.range_succ, List.foldl_append]
  rfl

omit [DecidableEq ρ] in
/-- A loop over pages maps each of them as it says. -/
theorem pageFor_mapPages (map : PhysicalMemoryMap ρ) (address : UInt32) (count : Nat)
    (page : Nat → Option (Page ρ)) (ha : pageOffset address = 0)
    (hend : address.toNat + count * pageSize ≤ 2 ^ 32) (n : Nat) :
    map.mapPages address count page n =
      if address.toNat / pageSize ≤ n ∧ n < address.toNat / pageSize + count then
        (page (n - address.toNat / pageSize)).getD (map n)
      else map n := by
  induction count with
  | zero =>
    rw [if_neg (by omega)]
    rfl
  | succ count ih =>
    have hlast : (address + UInt32.ofNat (count * pageSize)).toNat
        = address.toNat + count * pageSize := by
      rw [UInt32.toNat_add, UInt32.toNat_ofNat']
      unfold pageSize at hend ⊢
      omega
    have hzero : pageOffset (address + UInt32.ofNat (count * pageSize)) = 0 := by
      rw [pageOffset, hlast, Nat.add_mul_mod_self_right]
      exact ha
    have hkey : (address.toNat + count * pageSize) / pageSize
        = address.toNat / pageSize + count :=
      Nat.add_mul_div_right address.toNat count pageSize_pos
    have hbefore := ih (Nat.le_trans (Nat.add_le_add_left (Nat.mul_le_mul_right _ count.le_succ) _) hend)
    rw [mapPages_succ]
    generalize address.toNat / pageSize = first at hkey hbefore ⊢
    by_cases hn : n = first + count
    · rw [if_neg (by omega)] at hbefore
      rw [if_pos (by omega), hn, Nat.add_sub_cancel_left, ← hn]
      cases page count with
      | none => exact hbefore
      | some p =>
        show mapPage _ _ p n = p
        rw [mapPage_apply _ _ _ hzero, hlast]
        exact if_pos (hn.trans hkey.symm)
    · have hother : map.mapPages address count page n
          = if first ≤ n ∧ n < first + (count + 1) then (page (n - first)).getD (map n)
            else map n := by
        rw [hbefore]
        by_cases hin : first ≤ n ∧ n < first + count
        · rw [if_pos hin, if_pos (by omega)]
        · rw [if_neg hin, if_neg (by omega)]
      cases page count with
      | none => exact hother
      | some p =>
        show mapPage _ _ p n = _
        rw [mapPage_apply _ _ _ hzero, hlast, hkey, if_neg hn]
        exact hother

omit [DecidableEq ρ] in
/-- A mirror that starts at a page and repeats whole pages. -/
theorem pageFor_mapReadOnlyMirrored (map : PhysicalMemoryMap ρ) {address : UInt32} {length : Nat}
    (bytes : ρ × Nat) {bytesLength : Nat} (ha : pageOffset address = 0)
    (hl : length % pageSize = 0) (hpos : 0 < bytesLength) (hb : bytesLength % pageSize = 0)
    (hend : address.toNat + length ≤ 2 ^ 32) (n : Nat) :
    map.mapReadOnlyMirrored address length bytes bytesLength n =
      if address.toNat / pageSize ≤ n ∧ n < address.toNat / pageSize + length / pageSize then
        Page.readOnly (bytes.1, bytes.2 + (n - address.toNat / pageSize) * pageSize % bytesLength)
      else map n := by
  have hpages : length / pageSize * pageSize = length := by
    have hdiv := Nat.div_add_mod' length pageSize
    rwa [hl, Nat.add_zero] at hdiv
  unfold mapReadOnlyMirrored
  rw [if_neg (by omega), pageFor_mapPages _ _ _ _ ha (by rw [hpages]; exact hend)]
  rfl

/-! ## Accesses byte by byte -/

variable {map : PhysicalMemoryMap ρ} {bytes : Bytes ρ} {address : UInt32}

omit [DecidableEq ρ] in
/-- Addresses of one page. -/
theorem pageFor_add (map : PhysicalMemoryMap ρ) (address : UInt32) (i : Nat)
    (h : pageOffset address + i < pageSize) :
    map.pageFor (address + UInt32.ofNat i) = map.pageFor address
      ∧ pageOffset (address + UInt32.ofNat i) = pageOffset address + i := by
  have hlt := address.toNat_lt
  have hadd : (address + UInt32.ofNat i).toNat = address.toNat + i := by
    rw [UInt32.toNat_add, UInt32.toNat_ofNat']
    unfold pageOffset pageSize at h
    omega
  unfold pageFor pageOffset
  rw [hadd]
  unfold pageOffset pageSize at h
  unfold pageSize
  constructor
  · rw [show (address.toNat + i) / 4096 = address.toNat / 4096 by omega]
  · omega

omit [DecidableEq ρ] in
theorem tryRead8_eq :
    map.tryRead8 bytes address =
      (map.pageFor address).read.map fun p => bytes p.1 (p.2 + pageOffset address) := by
  have hin : ¬ pageSize < pageOffset address + 1 := Nat.not_lt.2 (Nat.mod_lt _ pageSize_pos)
  unfold tryRead8 tryRead
  rw [if_neg hin, Option.map_map]
  congr 1
  funext p
  simp [bigEndian]

omit [DecidableEq ρ] in
/-- Each byte of a direct read is a direct read of that byte. -/
theorem tryRead_bytes {size : Nat} {values : List UInt8}
    (h : map.tryRead bytes size address = some values) {i : Nat} (hi : i < size) :
    map.tryRead8 bytes (address + UInt32.ofNat i) = values[i]? := by
  unfold tryRead at h
  split_ifs at h with hin
  obtain ⟨p, hp, rfl⟩ := Option.map_eq_some_iff.1 h
  obtain ⟨hpage, hoff⟩ := pageFor_add map address i (by omega)
  rw [tryRead8_eq, hpage, hp, hoff, List.getElem?_map, List.getElem?_range hi]
  simp only [Option.map_some, Nat.add_assoc]

omit [DecidableEq ρ] in
/-- A page that cannot be read. -/
theorem tryRead_none (h : (map.pageFor address).read = none) (size : Nat) :
    map.tryRead bytes size address = none := by
  unfold tryRead
  rw [h, Option.map_none, ite_self]

/-- A page that cannot be written. -/
theorem tryWrite_none (h : (map.pageFor address).write = none) (values : List UInt8) :
    map.tryWrite bytes address values = none := by
  unfold tryWrite
  rw [h, Option.map_none, ite_self]

theorem tryWrite8_eq (value : UInt8) :
    map.tryWrite8 bytes address value =
      (map.pageFor address).write.map fun p =>
        writeBytes bytes p.1 (p.2 + pageOffset address) [value] := by
  have hin : ¬ pageSize < pageOffset address + [value].length :=
    Nat.not_lt.2 (Nat.mod_lt _ pageSize_pos)
  rw [tryWrite8, tryWrite, if_neg hin]

/-- A direct write is a direct write of its first byte and of the others. -/
theorem tryWrite_cons {b b' : UInt8} {bs : List UInt8} {bytes' : Bytes ρ}
    (h : map.tryWrite bytes address (b :: b' :: bs) = some bytes') :
    ∃ bytes₁, map.tryWrite8 bytes address b = some bytes₁ ∧
      map.tryWrite bytes₁ (address + 1) (b' :: bs) = some bytes' := by
  unfold tryWrite at h
  split_ifs at h with hin
  obtain ⟨p, hp, rfl⟩ := Option.map_eq_some_iff.1 h
  simp only [List.length_cons] at hin
  obtain ⟨hpage, hoff⟩ := pageFor_add map address 1 (by omega)
  rw [show UInt32.ofNat 1 = (1 : UInt32) from rfl] at hpage hoff
  refine ⟨_, by rw [tryWrite8_eq, hp]; rfl, ?_⟩
  unfold tryWrite
  rw [if_neg (by rw [hoff, List.length_cons]; omega), hpage, hp, hoff]
  simp only [Option.map_some, writeBytes, Nat.add_assoc]

end PhysicalMemoryMap

end CuteMac.Core
