/-
  Walks through the translation tables of the 68030, compared.

  * `Kept`: a word with the marks that accesses leave in descriptors;
  * `Place`, `places`: the descriptors that a walk visits; `Unshared`: no word is
    part of two of them;
  * `MarkedIn`: a memory that differs by marks in visited descriptors only;
  * `Alike`: two walks at the same point, for addresses in one page;
  * `freshWalk_marked`, `walk_marks`: marks do not change what the tables say, and
    a walk leaves nothing else.
-/
import CuteMac.Cpu.Pmmu
import CuteMac.Lib.Pages
import Mathlib.Tactic.IntervalCases

namespace CuteMac.Cpu

open ByteMemory Pages

/-! ## Marks -/

/-- The bits of a descriptor word that accesses do not change. -/
def keptBits (word : UInt32) : UInt32 :=
  if word &&& dfDt = dfDtPage then ~~~(dfUsed ||| dfModified) else ~~~dfUsed

/-- The second word is the first one, up to marks. -/
def Kept (x y : UInt32) : Prop := y &&& keptBits x = x &&& keptBits x

theorem Kept.refl (x : UInt32) : Kept x x := rfl

section
variable {x y : UInt32}

theorem Kept.and_eq (h : Kept x y) {mask : UInt32} (hmask : keptBits x &&& mask = mask) :
    y &&& mask = x &&& mask := by
  rw [← hmask, ← UInt32.and_assoc, ← UInt32.and_assoc, h]

theorem keptBits_and {mask : UInt32} (h : ~~~(dfUsed ||| dfModified) &&& mask = mask) :
    keptBits x &&& mask = mask := by
  unfold keptBits
  split_ifs
  · exact h
  · rw [← h, ← UInt32.and_assoc]
    rfl

theorem Kept.type (h : Kept x y) : y &&& dfDt = x &&& dfDt := h.and_eq (keptBits_and (by decide))

theorem Kept.writeProtect (h : Kept x y) : y &&& dfWp = x &&& dfWp :=
  h.and_eq (keptBits_and (by decide))

theorem Kept.supervisor (h : Kept x y) : y &&& dfSupervisor = x &&& dfSupervisor :=
  h.and_eq (keptBits_and (by decide))

theorem Kept.frame (h : Kept x y) : y &&& 0xffffff00 = x &&& 0xffffff00 :=
  h.and_eq (keptBits_and (by decide))

theorem Kept.table (h : Kept x y) (htype : x &&& dfDt ≠ dfDtPage) :
    y &&& dfAddrMask = x &&& dfAddrMask := by
  refine h.and_eq ?_
  rw [keptBits, if_neg htype]
  decide

/-- A mark on top of marks. -/
theorem Kept.marked (h : Kept x y) (rw : Bool) : Kept x (marked (y &&& dfDt) y rw) := by
  have hused : dfUsed &&& keptBits x = 0 := by
    unfold keptBits
    split_ifs <;> rfl
  unfold Cpu.marked
  split_ifs with hinvalid hpage
  · exact h
  · have hmodified : dfModified &&& keptBits x = 0 := by
      rw [keptBits, if_pos (h.type ▸ hpage.1)]
      rfl
    exact (or_and_of_disjoint hmodified).trans ((or_and_of_disjoint hused).trans h)
  · exact (or_and_of_disjoint UInt32.zero_and).trans ((or_and_of_disjoint hused).trans h)

end

/-! ## Descriptors -/

/-- Where a descriptor stands; an indirect one says where the page descriptor is. -/
structure Place where
  address : UInt32
  isLong : Bool
  indirect : Bool
  deriving DecidableEq

def Place.words (p : Place) : List UInt32 :=
  p.address :: if p.isLong then [p.address + 4] else []

/-- The descriptors that an iteration visits from an address on. -/
def Walk.places (error : UInt32 → Bool) (w : Walk) (indirect : Bool) (address : UInt32)
    (isLong : Bool) : List Place :=
  let (first, second, w) := w.readDescriptor error address isLong
  if w.tmpSr &&& srBusError ≠ 0 then []
  else if indirect && (first &&& dfDt == dfDtTable4Byte || first &&& dfDt == dfDtTable8Byte) then
    [⟨address, isLong, true⟩,
      ⟨(if isLong then second else first) &&& dfIndAddrMask, first &&& dfDt == dfDtTable8Byte, false⟩]
  else [⟨address, isLong, false⟩]

/-- No word is part of two descriptors. -/
def Unshared (visited : Place → Prop) : Prop :=
  ∀ p p', visited p → visited p' → ∀ x ∈ p.words, x ∈ p'.words → p = p'

def Aligned (x : UInt32) : Prop := x.toNat % 4 = 0

/-- The second memory differs by marks in visited descriptors only. -/
def MarkedIn (visited : Place → Prop) (m m' : Memory) : Prop :=
  ∀ x, Aligned x → read32 m' x = read32 m x ∨
    (Kept (read32 m x) (read32 m' x) ∧ ∃ isLong, visited ⟨x, isLong, false⟩)

section
variable {visited : Place → Prop} {m m' : Memory} {x y : UInt32} {error : UInt32 → Bool}
  {w v : Walk} {indirect isLong : Bool} {address : UInt32}

theorem MarkedIn.refl (visited : Place → Prop) (m : Memory) : MarkedIn visited m m :=
  fun _ _ => .inl rfl

theorem MarkedIn.kept (h : MarkedIn visited m m') (hx : Aligned x) :
    Kept (read32 m x) (read32 m' x) := by
  rcases h x hx with heq | ⟨hkept, -⟩
  · rw [heq]
    exact .refl _
  · exact hkept

/-- Words that lead elsewhere are not marked. -/
theorem MarkedIn.pointer (h : MarkedIn visited m m') (hu : Unshared visited) {p : Place}
    (hp : visited p) (hx : Aligned x) (hword : x ∈ p.words)
    (hpointer : p.indirect = true ∨ x ≠ p.address) : read32 m' x = read32 m x := by
  rcases h x hx with heq | ⟨-, isLong, hd⟩
  · exact heq
  · have hpd := hu p _ hp hd x hword (List.mem_cons_self ..)
    subst hpd
    rcases hpointer with hindirect | hne
    · cases hindirect
    · exact absurd rfl hne

theorem MarkedIn.write (h : MarkedIn visited m m') (hx : Aligned x) (hd : visited ⟨x, isLong, false⟩)
    {value : UInt32} (hvalue : Kept (read32 m x) value) :
    MarkedIn visited m (write32 m' x value) := by
  intro y hy
  by_cases hyx : y = x
  · subst hyx
    rw [read32_write32]
    exact .inr ⟨hvalue, isLong, hd⟩
  · rw [read32_write32_of_ne m' hx hy hyx]
    exact h y hy

theorem aligned_add_four (hx : Aligned x) : Aligned (x + 4) := by
  unfold Aligned at *
  rw [UInt32.toNat_add]
  show (x.toNat + 4) % 2 ^ 32 % 4 = 0
  omega

/-- Two memories in which visited descriptors say the same. -/
structure SameWords (visited : Place → Prop) (m m' : Memory) : Prop where
  kept : ∀ x, Aligned x → Kept (read32 m x) (read32 m' x)
  pointer : ∀ p, visited p → ∀ x ∈ p.words, Aligned x → p.indirect = true ∨ x ≠ p.address →
    read32 m' x = read32 m x

theorem MarkedIn.sameWords (h : MarkedIn visited m m') (hu : Unshared visited) :
    SameWords visited m m' where
  kept _ hx := h.kept hx
  pointer _ hp _ hword hx hpointer := h.pointer hu hp hx hword hpointer

theorem SameWords.refl (visited : Place → Prop) (m : Memory) : SameWords visited m m where
  kept _ _ := .refl _
  pointer _ _ _ _ _ _ := rfl

/-- The second words are the same. -/
theorem SameWords.second (h : SameWords visited m m') (hp : visited ⟨x, isLong, indirect⟩)
    (hx : Aligned x) :
    (if isLong then read32 m' (x + 4) else 0) = if isLong then read32 m (x + 4) else 0 := by
  cases isLong with
  | false => simp
  | true =>
    rw [if_pos rfl, if_pos rfl]
    exact h.pointer _ hp _ (by simp [Place.words]) (aligned_add_four hx) (.inr (by simp))

theorem aligned_and {mask : UInt32} (h : mask &&& 3 = 0) : Aligned (x &&& mask) := by
  have h3 : (x &&& mask) &&& 3 = 0 := by rw [UInt32.and_assoc, h, UInt32.and_zero]
  have hnat := congrArg UInt32.toNat h3
  rwa [UInt32.toNat_and, show (3 : UInt32).toNat = 2 ^ 2 - 1 from rfl,
    Nat.and_two_pow_sub_one_eq_mod] at hnat

theorem aligned_index (hx : Aligned x) (index : UInt32) (isLong : Bool) :
    Aligned (x + index * if isLong then 8 else 4) := by
  unfold Aligned at *
  rw [UInt32.toNat_add, UInt32.toNat_mul]
  cases isLong
  · show (x.toNat + index.toNat * 4 % 2 ^ 32) % 2 ^ 32 % 4 = 0
    omega
  · show (x.toNat + index.toNat * 8 % 2 ^ 32) % 2 ^ 32 % 4 = 0
    omega

/-- The status of the reads of a descriptor. -/
def readStatus (error : UInt32 → Bool) (address : UInt32) (isLong : Bool) : UInt16 :=
  flag (error address) (srBusError ||| srInvalid) |||
    if isLong then flag (error (address + 4)) (srBusError ||| srInvalid) else 0

theorem readDescriptor_eq (w : Walk) (address : UInt32) (isLong : Bool) :
    w.readDescriptor error address isLong =
      (read32 w.memory address, if isLong then read32 w.memory (address + 4) else 0,
        { w with tmpSr := w.tmpSr ||| readStatus error address isLong }) := by
  cases isLong
  · simp [Walk.readDescriptor, Walk.read, Walk.reported, readStatus]
  · simp [Walk.readDescriptor, Walk.read, Walk.reported, readStatus, UInt16.or_assoc]

theorem no_error_of_status {status : UInt16}
    (h : (status ||| readStatus error address isLong) &&& srBusError = 0) :
    error address = false := by
  cases he : error address with
  | false => rfl
  | true =>
    have hbit := congrArg (fun x => x.toBitVec.getLsbD 15) h
    simp [readStatus, he, flag, srBusError, srInvalid] at hbit

/-- What two walks read where one descriptor is, from memories that differ by marks. -/
structure Fetched (visited : Place → Prop) (error : UInt32 → Bool) (m m' : Memory)
    (d d' : Descriptor) : Prop where
  address : d.address = d'.address
  isLong : d.isLong = d'.isLong
  second : d.second = d'.second
  first : d.first = read32 m' d'.address
  first' : d'.first = read32 m d'.address
  aligned : Aligned d'.address
  place : visited ⟨d'.address, d'.isLong, false⟩
  noError : error d'.address = false

theorem fetch_alike (hm : SameWords visited m w.memory) (hv : v.memory = m)
    (htype : w.type = v.type) (hlevel : w.level = v.level) (htmp : w.tmpSr = v.tmpSr)
    (ha : Aligned address) (hp : ∀ p ∈ v.places error indirect address isLong, visited p) :
    w.places error indirect address isLong = v.places error indirect address isLong ∧
    ∃ type level tmpSr,
      (w.fetch error indirect address isLong).1 =
        { w with type := type, level := level, tmpSr := tmpSr } ∧
      (v.fetch error indirect address isLong).1 =
        { v with type := type, level := level, tmpSr := tmpSr } ∧
      ((w.fetch error indirect address isLong).2 = none ∧
          (v.fetch error indirect address isLong).2 = none ∨
        ∃ d d', (w.fetch error indirect address isLong).2 = some d ∧
          (v.fetch error indirect address isLong).2 = some d' ∧
          Fetched visited error m w.memory d d' ∧ type = d'.first &&& dfDt) := by
  subst hv
  have hkept := hm.kept _ ha
  unfold Walk.places at hp
  unfold Walk.places Walk.fetch
  simp only [readDescriptor_eq] at hp ⊢
  rw [htmp]
  by_cases herror : (v.tmpSr ||| readStatus error address isLong) &&& srBusError = 0
  · rw [if_neg (not_not.2 herror)] at hp
    simp only [if_neg (not_not.2 herror)]
    rw [hkept.type]
    by_cases hind : (indirect && (read32 v.memory address &&& dfDt == dfDtTable4Byte ||
        read32 v.memory address &&& dfDt == dfDtTable8Byte)) = true
    · -- the pointer to the page descriptor is the same, as indirect descriptors are not marked
      rw [if_pos hind] at hp
      simp only [if_pos hind]
      have hpointer := hp _ (List.mem_cons_self ..)
      have hplace := hp _ (List.mem_cons_of_mem _ (List.mem_singleton_self _))
      rw [hm.pointer _ hpointer _ (List.mem_cons_self ..) ha (.inl rfl), hm.second hpointer ha]
      generalize hx : (if isLong then if isLong then read32 v.memory (address + 4) else 0
        else read32 v.memory address) &&& dfIndAddrMask = x at hplace ⊢
      have hax : Aligned x := hx ▸ aligned_and rfl
      by_cases herror' : (v.tmpSr ||| readStatus error address isLong |||
          readStatus error x (read32 v.memory address &&& dfDt == dfDtTable8Byte)) &&& srBusError = 0
      · simp only [if_neg (not_not.2 herror')]
        rw [(hm.kept _ hax).type]
        refine ⟨trivial, _, _, _, rfl, ?_, .inr ⟨_, _, rfl, rfl, ?_, rfl⟩⟩
        · rw [hlevel]
        · exact ⟨rfl, rfl, hm.second hplace hax, rfl, rfl, hax, hplace, no_error_of_status herror'⟩
      · simp only [if_pos herror']
        exact ⟨trivial, _, _, _, rfl, by rw [hlevel], .inl ⟨trivial, trivial⟩⟩
    · rw [if_neg hind] at hp
      simp only [if_neg hind]
      have hd := hp _ (List.mem_singleton_self _)
      refine ⟨trivial, _, _, _, rfl, ?_, .inr ⟨_, _, rfl, rfl, ?_, rfl⟩⟩
      · rw [hlevel]
      · exact ⟨rfl, rfl, hm.second hd ha, rfl, rfl, ha, hd, no_error_of_status herror⟩
  · simp only [if_pos herror]
    exact ⟨trivial, _, _, _, by rw [htype], by rw [hlevel], .inl ⟨trivial, trivial⟩⟩

end

/-! ## Index fields -/

section
variable {r : Registers} {bitpos : UInt32} {fuel : Nat}

/-- The index bits that are left from a field on. -/
def bitsLeft (r : Registers) (bitpos : UInt32) : Nat :=
  if bitpos ≤ 16 then
    (([12, 8, 4, 0].filter (· ≤ bitpos)).map fun shift => (indexBits r shift).toNat).sum
  else 0

/-- The positions of the fields, and those after the last one. -/
def Position (fuel : Nat) (bitpos : UInt32) : Prop :=
  bitpos ∈ [16, 12, 8, 4, 0] ∨ 32 + 4 * fuel ≤ bitpos.toNat

def nextField (bitpos : UInt32) : UInt32 := if 4 ≤ bitpos then bitpos - 4 else 0xffffffff

theorem position_next (hfuel : fuel ≤ 7) (h : Position (fuel + 1) bitpos) :
    Position fuel (nextField bitpos) := by
  rcases h with h | h
  · simp only [List.mem_cons, List.not_mem_nil, or_false] at h
    rcases h with rfl | rfl | rfl | rfl | rfl
    all_goals first | exact .inl (by decide) | skip
    right
    show 32 + 4 * fuel ≤ 0xffffffff
    omega
  · right
    have hle : (4 : UInt32) ≤ bitpos := UInt32.le_iff_toNat_le.2 (by simp; omega)
    rw [nextField, if_pos hle, UInt32.toNat_sub_of_le _ _ hle]
    simp
    omega

theorem field_and (tc mask shift : UInt32) :
    ((tc &&& mask) >>> shift) &&& 0xf = (tc >>> shift) &&& ((mask >>> shift) &&& 0xf) := by
  rw [UInt32.shiftRight_and, UInt32.and_assoc]

/-- Only the fields in front of the first zero field are left. -/
theorem tableFields_cases (tc : UInt32) :
    (field tc 12 = 0 ∧ tableFields (tc &&& 0xffff) [12, 8, 4, 0] = tc &&& 0) ∨
    (field tc 12 ≠ 0 ∧ field tc 8 = 0 ∧
      tableFields (tc &&& 0xffff) [12, 8, 4, 0] = tc &&& 0xf000) ∨
    (field tc 12 ≠ 0 ∧ field tc 8 ≠ 0 ∧ field tc 4 = 0 ∧
      tableFields (tc &&& 0xffff) [12, 8, 4, 0] = tc &&& 0xff00) ∨
    (field tc 12 ≠ 0 ∧ field tc 8 ≠ 0 ∧ field tc 4 ≠ 0 ∧ field tc 0 = 0 ∧
      tableFields (tc &&& 0xffff) [12, 8, 4, 0] = tc &&& 0xfff0) ∨
    (field tc 12 ≠ 0 ∧ field tc 8 ≠ 0 ∧ field tc 4 ≠ 0 ∧ field tc 0 ≠ 0 ∧
      tableFields (tc &&& 0xffff) [12, 8, 4, 0] = tc &&& 0xffff) := by
  have h12 : ((tc &&& 0xffff) >>> 12) &&& 0xf = field tc 12 := field_and tc 0xffff 12
  have h8 : ((tc &&& 0xffff) >>> 8) &&& 0xf = field tc 8 := field_and tc 0xffff 8
  have h4 : ((tc &&& 0xffff) >>> 4) &&& 0xf = field tc 4 := field_and tc 0xffff 4
  have h0 : ((tc &&& 0xffff) >>> 0) &&& 0xf = field tc 0 := field_and tc 0xffff 0
  simp only [tableFields, h12, h8, h4, h0]
  by_cases z12 : field tc 12 = 0
  · rw [if_pos z12, UInt32.and_assoc]
    exact .inl ⟨z12, rfl⟩
  rw [if_neg z12]
  by_cases z8 : field tc 8 = 0
  · rw [if_pos z8, UInt32.and_assoc]
    exact .inr (.inl ⟨z12, z8, rfl⟩)
  rw [if_neg z8]
  by_cases z4 : field tc 4 = 0
  · rw [if_pos z4, UInt32.and_assoc]
    exact .inr (.inr (.inl ⟨z12, z8, z4, rfl⟩))
  rw [if_neg z4]
  by_cases z0 : field tc 0 = 0
  · rw [if_pos z0, UInt32.and_assoc]
    exact .inr (.inr (.inr (.inl ⟨z12, z8, z4, z0, rfl⟩)))
  rw [if_neg z0]
  exact .inr (.inr (.inr (.inr ⟨z12, z8, z4, z0, rfl⟩)))

theorem indexBits_of_le (hb : bitpos ≤ 16) {mask : UInt32}
    (h : tableFields (r.tc &&& 0xffff) [12, 8, 4, 0] = r.tc &&& mask) :
    indexBits r bitpos = (r.tc >>> bitpos) &&& ((mask >>> bitpos) &&& 0xf) := by
  rw [indexBits, if_pos hb, h, field_and]

theorem indexBits_of_gt (hb : 32 ≤ bitpos.toNat) : indexBits r bitpos = 0 := by
  have hgt : ¬ bitpos ≤ 16 := fun h => by
    have := UInt32.le_iff_toNat_le.1 h
    simp at this
    omega
  rw [indexBits, if_neg hgt]

theorem bitsLeft_of_gt (hb : 28 ≤ bitpos.toNat) : bitsLeft r bitpos = 0 := by
  have hgt : ¬ bitpos ≤ 16 := fun h => by
    have := UInt32.le_iff_toNat_le.1 h
    simp at this
    omega
  rw [bitsLeft, if_neg hgt]

theorem indexBits_sixteen (r : Registers) : indexBits r 16 = 0 := by
  have hb : (16 : UInt32) ≤ 16 := by decide
  rcases tableFields_cases r.tc with ⟨-, h⟩ | ⟨-, -, h⟩ | ⟨-, -, -, h⟩ | ⟨-, -, -, -, h⟩ |
    ⟨-, -, -, -, h⟩
  all_goals
    rw [indexBits_of_le hb h]
    exact UInt32.and_zero

theorem bitsLeft_next (r : Registers) (h : Position (fuel + 1) bitpos) :
    (indexBits r bitpos).toNat + bitsLeft r (nextField bitpos) ≤ bitsLeft r bitpos := by
  rcases h with h | h
  · simp only [List.mem_cons, List.not_mem_nil, or_false] at h
    rcases h with rfl | rfl | rfl | rfl | rfl
    · rw [indexBits_sixteen]
      simp [bitsLeft, nextField]
    all_goals simp [bitsLeft, nextField]
  · rw [indexBits_of_gt (by omega)]
    have hle : (4 : UInt32) ≤ bitpos := UInt32.le_iff_toNat_le.2 (by simp; omega)
    rw [nextField, if_pos hle, bitsLeft_of_gt]
    · exact Nat.zero_le _
    · rw [UInt32.toNat_sub_of_le _ _ hle]
      simp
      omega

theorem field_lt (tc shift : UInt32) : (field tc shift).toNat < 16 := by
  rw [field, UInt32.toNat_and]
  exact Nat.and_lt_two_pow _ (show (15 : Nat) < 2 ^ 4 by decide)

/-- A field counts up to the first one that is zero. -/
theorem indexBits_fields (r : Registers) :
    indexBits r 12 = field r.tc 12 ∧
    indexBits r 8 = (if field r.tc 12 = 0 then 0 else field r.tc 8) ∧
    indexBits r 4 = (if field r.tc 12 = 0 ∨ field r.tc 8 = 0 then 0 else field r.tc 4) ∧
    indexBits r 0 =
      (if field r.tc 12 = 0 ∨ field r.tc 8 = 0 ∨ field r.tc 4 = 0 then 0 else field r.tc 0) := by
  have some : ∀ {shift mask : UInt32}, shift ≤ 16 →
      tableFields (r.tc &&& 0xffff) [12, 8, 4, 0] = r.tc &&& mask →
      (mask >>> shift) &&& 0xf = 0xf → indexBits r shift = field r.tc shift := by
    intro shift mask hs h hmask
    rw [indexBits_of_le hs h, hmask]
    rfl
  have none : ∀ {shift mask : UInt32}, shift ≤ 16 →
      tableFields (r.tc &&& 0xffff) [12, 8, 4, 0] = r.tc &&& mask →
      (mask >>> shift) &&& 0xf = 0 → indexBits r shift = 0 := by
    intro shift mask hs h hmask
    rw [indexBits_of_le hs h, hmask, UInt32.and_zero]
  rcases tableFields_cases r.tc with ⟨h12, h⟩ | ⟨h12, h8, h⟩ | ⟨h12, h8, h4, h⟩ |
    ⟨h12, h8, h4, h0, h⟩ | ⟨h12, h8, h4, h0, h⟩
  · rw [none (by decide) h rfl, none (by decide) h rfl, none (by decide) h rfl,
      none (by decide) h rfl]
    simp [h12]
  · rw [some (by decide) h rfl, none (by decide) h rfl, none (by decide) h rfl,
      none (by decide) h rfl]
    simp [h12, h8]
  · rw [some (by decide) h rfl, some (by decide) h rfl, none (by decide) h rfl,
      none (by decide) h rfl]
    simp [h12, h8, h4]
  · rw [some (by decide) h rfl, some (by decide) h rfl, some (by decide) h rfl,
      none (by decide) h rfl]
    simp [h12, h8, h4, h0]
  · rw [some (by decide) h rfl, some (by decide) h rfl, some (by decide) h rfl,
      some (by decide) h rfl]
    simp [h12, h8, h4]

theorem indexBits_lt (r : Registers) (bitpos : UInt32) : (indexBits r bitpos).toNat < 16 := by
  unfold indexBits
  split_ifs
  · exact field_lt _ _
  · decide

theorem bitsLeft_sum (r : Registers) : bitsLeft r 16 =
    (indexBits r 12).toNat + (indexBits r 8).toNat + (indexBits r 4).toNat +
      (indexBits r 0).toNat := by
  simp [bitsLeft]
  omega

theorem bitsLeft_sixteen (r : Registers) : bitsLeft r 16 = (tableBits r.tc [12, 8, 4, 0]).toNat := by
  have f12 := field_lt r.tc 12
  have f8 := field_lt r.tc 8
  have f4 := field_lt r.tc 4
  have f0 := field_lt r.tc 0
  obtain ⟨h12, h8, h4, h0⟩ := indexBits_fields r
  rw [bitsLeft_sum, h12, h8, h4, h0]
  simp only [tableBits]
  by_cases z12 : field r.tc 12 = 0
  · simp [z12]
  by_cases z8 : field r.tc 8 = 0
  · simp [z12, z8]
  by_cases z4 : field r.tc 4 = 0
  · simp [z12, z8, z4]
    omega
  by_cases z0 : field r.tc 0 = 0
  · simp [z12, z8, z4, z0]
    omega
  · simp [z12, z8, z4, z0]
    omega

/-- Translation is enabled by a value that is valid. -/
structure ValidTc (r : Registers) : Prop where
  enabled : r.tc &&& 0x80000000 ≠ 0
  valid : pmmuValidateTc r.tc = true

theorem bitsLeft_start (htc : ValidTc r) :
    8 ≤ (pmmuPageShift r).toNat ∧ (pmmuPageShift r).toNat < 16 ∧
      (field r.tc 16).toNat + bitsLeft r 16 + (pmmuPageShift r).toNat = 32 := by
  have fps := field_lt r.tc 20
  have fis := field_lt r.tc 16
  have hbits : bitsLeft r 16 < 64 := by
    have i12 := indexBits_lt r 12
    have i8 := indexBits_lt r 8
    have i4 := indexBits_lt r 4
    have i0 := indexBits_lt r 0
    rw [bitsLeft_sum]
    omega
  have h := htc.valid
  unfold pmmuValidateTc at h
  rw [if_neg htc.enabled] at h
  by_cases hps : field r.tc 20 < 8
  · rw [if_pos hps] at h
    cases h
  · rw [if_neg hps, beq_iff_eq, ← UInt32.toNat_inj, UInt32.toNat_add, UInt32.toNat_add] at h
    have hle : (8 : UInt32) ≤ field r.tc 20 := UInt32.not_lt.1 hps
    have hle' : 8 ≤ (field r.tc 20).toNat := UInt32.le_iff_toNat_le.1 hle
    have hshift : pmmuPageShift r = field r.tc 20 := if_pos hle
    rw [← bitsLeft_sixteen, show (32 : UInt32).toNat = 32 from rfl] at h
    rw [hshift]
    exact ⟨hle', fps, by omega⟩

end

/-! ## Results -/

/-- Two statuses, up to what says that a page was modified. -/
def SameStatus (s t : UInt16) : Prop := s &&& ~~~srModified = t &&& ~~~srModified

section
variable {s t : UInt16}

theorem or_and_distrib (s t mask : UInt16) : (s ||| t) &&& mask = s &&& mask ||| t &&& mask := by
  rw [← UInt16.toBitVec_inj]
  ext i hi
  simp only [UInt16.toBitVec_or, UInt16.toBitVec_and, BitVec.getElem_or, BitVec.getElem_and]
  exact Bool.and_or_distrib_right ..

theorem SameStatus.or (h : SameStatus s t) (bits : UInt16) : SameStatus (s ||| bits) (t ||| bits) := by
  unfold SameStatus at *
  rw [or_and_distrib, or_and_distrib, h]

theorem SameStatus.modified (h : SameStatus s t) (set set' : Bool) :
    SameStatus (s ||| flag set srModified) (t ||| flag set' srModified) := by
  have hflag : ∀ b, flag b srModified &&& ~~~srModified = 0 := by decide
  unfold SameStatus at *
  rw [or_and_distrib, or_and_distrib, h, hflag, hflag]

theorem SameStatus.and_eq (h : SameStatus s t) {mask : UInt16} (hmask : ~~~srModified &&& mask = mask) :
    s &&& mask = t &&& mask := by
  rw [← hmask, ← UInt16.and_assoc, ← UInt16.and_assoc, h]

theorem SameStatus.and (h : SameStatus s t) (mask : UInt16) : SameStatus (s &&& mask) (t &&& mask) := by
  unfold SameStatus at *
  rw [UInt16.and_assoc, UInt16.and_comm mask, ← UInt16.and_assoc, h, UInt16.and_assoc,
    UInt16.and_comm _ mask, ← UInt16.and_assoc]

theorem SameStatus.hardFault (h : SameStatus s t) : hardFault s = hardFault t := by
  unfold Cpu.hardFault
  rw [h.and_eq (by decide)]

theorem SameStatus.writeProtect (h : SameStatus s t) :
    (s &&& srWriteProtect != 0) = (t &&& srWriteProtect != 0) := by
  rw [h.and_eq (by decide)]

theorem statusFromDescriptor_same (h : SameStatus s t) {x y : UInt32} (hxy : Kept x y)
    (type : UInt32) (isLong : Bool) (fc : UInt32) :
    SameStatus (pmmuStatusFromDescriptor type y isLong fc s)
      (pmmuStatusFromDescriptor type x isLong fc t) := by
  unfold pmmuStatusFromDescriptor
  rw [hxy.writeProtect, hxy.supervisor]
  exact ((h.modified _ _).or _).or _

end

/-- The results for two addresses say the same of their pages, which are one. -/
structure SameResult (r : Registers) (a b : UInt32) (t u : TranslationResult) : Prop where
  status : SameStatus t.status u.status
  page : SamePage (pmmuPageShift r) t.physicalAddress u.physicalAddress
  offset : t.physicalAddress.toNat % 2 ^ (pmmuPageShift r).toNat =
    a.toNat % 2 ^ (pmmuPageShift r).toNat
  offset' : u.physicalAddress.toNat % 2 ^ (pmmuPageShift r).toNat =
    b.toNat % 2 ^ (pmmuPageShift r).toNat

/-- Two walks at one point, for the addresses `a` and `b`. -/
structure Alike (r : Registers) (a b : UInt32) (fuel : Nat) (w v : Walk) : Prop where
  type : w.type = v.type
  table : w.type ≠ dfDtPage → w.table = v.table
  frame : w.table &&& 0xffffff00 = v.table &&& 0xffffff00
  aligned : Aligned v.table
  work : w.addressWork = a <<< w.pageshift
  work' : v.addressWork = b <<< v.pageshift
  pageshift : w.pageshift = v.pageshift
  room : v.pageshift.toNat + bitsLeft r v.bitpos + (pmmuPageShift r).toNat ≤ 32
  position : Position fuel v.bitpos
  bitpos : w.bitpos = v.bitpos
  level : w.level = v.level
  resolved : w.resolved = v.resolved
  tmpSr : w.tmpSr = v.tmpSr
  result : SameResult r a b w.result v.result

section
variable {r : Registers} {a b fc : UInt32} {fuel : Nat} {w v : Walk}

theorem Alike.index (h : Alike r a b (fuel + 1) w v) (hab : SamePage (pmmuPageShift r) a b) :
    walkIndex r fc w.bitpos w.addressWork = walkIndex r fc v.bitpos v.addressWork := by
  have hnext := bitsLeft_next r h.position
  have hroom := h.room
  unfold walkIndex
  rw [h.bitpos, h.work, h.work', h.pageshift]
  by_cases h16 : v.bitpos = 16
  · rw [if_pos h16, if_pos h16]
  rw [if_neg h16, if_neg h16]
  by_cases hbits : indexBits r v.bitpos = 0
  · rw [if_neg (not_not.2 hbits), if_neg (not_not.2 hbits)]
  · have hpos : 0 < (indexBits r v.bitpos).toNat :=
      Nat.pos_of_ne_zero fun hz => hbits (UInt32.toNat_inj.1 hz)
    rw [if_pos hbits, if_pos hbits]
    exact field_congr hab hpos (by omega)

variable {error : UInt32 → Bool} {rw sideEffects : Bool}

theorem walkStep_invalid (h : w.type = dfDtInvalid) :
    walkStep r error fc rw sideEffects w =
      { w with
        bitpos := nextField w.bitpos
        result := { w.result with status := w.result.status ||| srInvalid }
        resolved := true } := by
  simp [walkStep, nextField, h]

theorem walkStep_page (h : w.type = dfDtPage) :
    walkStep r error fc rw sideEffects w =
      { w with
        bitpos := nextField w.bitpos
        result := { w.result with
          physicalAddress := (w.table &&& (0xffffffff <<< pmmuPageShift r)) +
            (w.addressWork >>> w.pageshift) }
        resolved := true } := by
  have h0 : dfDtPage ≠ dfDtInvalid := by decide
  simp [walkStep, nextField, h, h0]

/-- Where the descriptor of an iteration is. -/
def descriptorAddress (r : Registers) (fc : UInt32) (w : Walk) : UInt32 :=
  w.table + walkIndex r fc w.bitpos w.addressWork * if w.type == dfDtTable8Byte then 8 else 4

/-- The walk that reads the descriptor. -/
def fetchStep (r : Registers) (error : UInt32 → Bool) (fc : UInt32) (w : Walk) :
    Walk × Option Descriptor :=
  Walk.fetch error { w with bitpos := nextField w.bitpos } (lastField r w.bitpos)
    (descriptorAddress r fc w) (w.type == dfDtTable8Byte)

theorem walkStep_table (h0 : w.type ≠ dfDtInvalid) (h1 : w.type ≠ dfDtPage) :
    walkStep r error fc rw sideEffects w =
      match fetchStep r error fc w with
      | (w', none) => w'.busError
      | (w', some d) => useDescriptor error fc rw sideEffects d (indexBits r w.bitpos) w' := by
  simp only [walkStep, if_neg h0, if_neg h1]
  rfl

theorem walkStep_none (h0 : w.type ≠ dfDtInvalid) (h1 : w.type ≠ dfDtPage) {w' : Walk}
    (h : (fetchStep r error fc w).1 = w') (hn : (fetchStep r error fc w).2 = none) :
    walkStep r error fc rw sideEffects w = w'.busError := by
  rw [walkStep_table h0 h1, show fetchStep r error fc w = (w', none) from Prod.ext h hn]

theorem walkStep_some (h0 : w.type ≠ dfDtInvalid) (h1 : w.type ≠ dfDtPage) {w' : Walk}
    {d : Descriptor} (h : (fetchStep r error fc w).1 = w')
    (hs : (fetchStep r error fc w).2 = some d) :
    walkStep r error fc rw sideEffects w =
      useDescriptor error fc rw sideEffects d (indexBits r w.bitpos) w' := by
  rw [walkStep_table h0 h1, show fetchStep r error fc w = (w', some d) from Prod.ext h hs]

theorem useDescriptor_eq {d : Descriptor} {bits : UInt32} (he : error d.address = false) :
    useDescriptor error fc rw sideEffects d bits w =
      { w with
        result := { w.result with
          descriptorAddress := d.address
          status := pmmuStatusFromDescriptor w.type d.first d.isLong fc w.result.status }
        memory :=
          if sideEffects = true ∧ marked w.type d.first rw ≠ d.first then
            write32 w.memory d.address (marked w.type d.first rw)
          else w.memory
        table := (if d.isLong then d.second else d.first) &&& dfAddrMask
        addressWork := w.addressWork <<< bits
        pageshift := w.pageshift + bits } := by
  cases sideEffects with
  | false => simp [useDescriptor]
  | true =>
    by_cases hm : marked w.type d.first rw = d.first
    · simp [useDescriptor, pmmuUpdateDescriptor, hm]
    · simp [useDescriptor, pmmuUpdateDescriptor, hm, Walk.write, Walk.reported, he, flag]

/-- The masks of pages of 256 bytes to 32 KiB. -/
theorem frameMask {n : UInt32} (h8 : 8 ≤ n.toNat) (h16 : n.toNat < 16) :
    (0xffffff00 : UInt32) &&& (0xffffffff : UInt32) <<< n = (0xffffffff : UInt32) <<< n ∧
      (0xffffffff : UInt32) <<< n &&& lowMask n = 0 := by
  have hn : n = UInt32.ofNat n.toNat := UInt32.ofNat_toNat.symm
  generalize n.toNat = k at *
  subst hn
  interval_cases k <;> exact ⟨rfl, rfl⟩

/-- Pages of 256 bytes to 32 KiB. -/
structure PageSize (r : Registers) : Prop where
  low : 8 ≤ (pmmuPageShift r).toNat
  high : (pmmuPageShift r).toNat < 16

variable {visited : Place → Prop} {m : Memory} {rw' sideEffects' : Bool}

theorem Alike.invalid (h : Alike r a b (fuel + 1) w v) (hfuel : fuel ≤ 7)
    (htype : v.type = dfDtInvalid) :
    Alike r a b fuel (walkStep r error fc rw sideEffects w) (walkStep r error fc rw' sideEffects' v) := by
  have hnext := bitsLeft_next r h.position
  have hroom := h.room
  rw [walkStep_invalid htype, walkStep_invalid (h.type.trans htype)]
  refine
    { h with
      room := ?_
      position := position_next hfuel h.position
      bitpos := ?_
      resolved := rfl
      result := { h.result with status := h.result.status.or _ } }
  · show v.pageshift.toNat + bitsLeft r (nextField v.bitpos) + _ ≤ 32
    omega
  · show nextField w.bitpos = nextField v.bitpos
    rw [h.bitpos]

theorem Alike.page (h : Alike r a b (fuel + 1) w v) (hfuel : fuel ≤ 7) (hsize : PageSize r)
    (hab : SamePage (pmmuPageShift r) a b) (htype : v.type = dfDtPage) :
    Alike r a b fuel (walkStep r error fc rw sideEffects w) (walkStep r error fc rw' sideEffects' v) := by
  have hnext := bitsLeft_next r h.position
  have hroom := h.room
  obtain ⟨hmask, hlow⟩ := frameMask hsize.low hsize.high
  have hframe : w.table &&& (0xffffffff <<< pmmuPageShift r) =
      v.table &&& (0xffffffff <<< pmmuPageShift r) := by
    rw [← hmask, ← UInt32.and_assoc, ← UInt32.and_assoc, h.frame]
  have hzero : (v.table &&& (0xffffffff <<< pmmuPageShift r)).toNat %
      2 ^ (pmmuPageShift r).toNat = 0 := by
    rw [← toNat_and_lowMask (by have := hsize.low; omega) (by have := hsize.high; omega),
      UInt32.and_assoc, hlow, UInt32.and_zero]
    rfl
  have hpos : 0 < (pmmuPageShift r).toNat := by have := hsize.low; omega
  have hadd := frame_add v.pageshift hpos (by omega) hzero hab
  have hadd' := frame_add v.pageshift hpos (by omega) hzero hab.symm
  rw [walkStep_page htype, walkStep_page (h.type.trans htype)]
  refine
    { h with
      room := ?_
      position := position_next hfuel h.position
      bitpos := ?_
      resolved := rfl
      result := { h.result with page := ?_, offset := ?_, offset' := ?_ } }
  · show v.pageshift.toNat + bitsLeft r (nextField v.bitpos) + _ ≤ 32
    omega
  · show nextField w.bitpos = nextField v.bitpos
    rw [h.bitpos]
  · show SamePage _ (_ + w.addressWork >>> w.pageshift) (_ + v.addressWork >>> v.pageshift)
    rw [hframe, h.work, h.work', h.pageshift]
    exact hadd.1
  · show (_ + w.addressWork >>> w.pageshift).toNat % _ = _
    rw [hframe, h.work, h.pageshift]
    exact hadd.2
  · show (_ + v.addressWork >>> v.pageshift).toNat % _ = _
    rw [h.work']
    exact hadd'.2

/-- The descriptors that an iteration visits. -/
def stepPlaces (r : Registers) (error : UInt32 → Bool) (fc : UInt32) (w : Walk) : List Place :=
  if w.type = dfDtInvalid ∨ w.type = dfDtPage then []
  else w.places error (lastField r w.bitpos) (descriptorAddress r fc w) (w.type == dfDtTable8Byte)

/-- Two walks use what they have read of one descriptor. -/
theorem Alike.use (h : Alike r a b (fuel + 1) w v) (hfuel : fuel ≤ 7) (hsize : PageSize r)
    (hm : SameWords visited m w.memory) {d d' : Descriptor}
    (hd : Fetched visited error m w.memory d d') {type : UInt32} {level : Nat} {tmpSr : UInt16}
    (htype : type = d'.first &&& dfDt) :
    Alike r a b fuel
      (useDescriptor error fc rw sideEffects d (indexBits r w.bitpos)
        { w with bitpos := nextField w.bitpos, type := type, level := level, tmpSr := tmpSr })
      (useDescriptor error fc rw' sideEffects' d' (indexBits r v.bitpos)
        { v with bitpos := nextField v.bitpos, type := type, level := level, tmpSr := tmpSr }) := by
  have hnext := bitsLeft_next r h.position
  have hroom := h.room
  have hlow := hsize.low
  have hkept : Kept d'.first d.first := by
    rw [hd.first, hd.first']
    exact hm.kept _ hd.aligned
  have hshift : v.pageshift.toNat + (indexBits r v.bitpos).toNat < 32 := by omega
  have hsum : (v.pageshift + indexBits r v.bitpos).toNat =
      v.pageshift.toNat + (indexBits r v.bitpos).toNat := by
    rw [UInt32.toNat_add]
    omega
  rw [useDescriptor_eq (hd.address ▸ hd.noError), useDescriptor_eq hd.noError]
  refine
    { type := rfl
      table := ?_
      frame := ?_
      aligned := aligned_and rfl
      work := ?_
      work' := ?_
      pageshift := ?_
      room := ?_
      position := position_next hfuel h.position
      bitpos := ?_
      level := rfl
      resolved := h.resolved
      tmpSr := rfl
      result := { h.result with status := ?_ } }
  · intro hpage
    show (if d.isLong then d.second else d.first) &&& dfAddrMask =
      (if d'.isLong then d'.second else d'.first) &&& dfAddrMask
    rw [hd.isLong, hd.second]
    split_ifs
    · rfl
    · exact hkept.table (htype ▸ hpage)
  · show (if d.isLong then d.second else d.first) &&& dfAddrMask &&& 0xffffff00 =
      (if d'.isLong then d'.second else d'.first) &&& dfAddrMask &&& 0xffffff00
    rw [hd.isLong, hd.second, UInt32.and_assoc, UInt32.and_assoc]
    split_ifs
    · rfl
    · exact hkept.frame
  · show w.addressWork <<< indexBits r w.bitpos = a <<< (w.pageshift + indexBits r w.bitpos)
    rw [h.work, h.bitpos, h.pageshift, UInt32.shiftLeft_add_of_toNat_lt hshift]
  · show v.addressWork <<< indexBits r v.bitpos = b <<< (v.pageshift + indexBits r v.bitpos)
    rw [h.work', UInt32.shiftLeft_add_of_toNat_lt hshift]
  · show w.pageshift + indexBits r w.bitpos = v.pageshift + indexBits r v.bitpos
    rw [h.pageshift, h.bitpos]
  · show (v.pageshift + indexBits r v.bitpos).toNat + bitsLeft r (nextField v.bitpos) + _ ≤ 32
    omega
  · show nextField w.bitpos = nextField v.bitpos
    rw [h.bitpos]
  · show SameStatus (pmmuStatusFromDescriptor type d.first d.isLong fc w.result.status)
      (pmmuStatusFromDescriptor type d'.first d'.isLong fc v.result.status)
    rw [hd.isLong]
    exact statusFromDescriptor_same h.result.status hkept _ _ _

theorem useDescriptor_memory (d : Descriptor) (bits : UInt32) :
    (useDescriptor error fc rw false d bits w).memory = w.memory := by
  simp [useDescriptor]

/-- The descriptor is marked, where the walk has side effects. -/
theorem useDescriptor_marked {m' : Memory} (hm : MarkedIn visited m m') {d d' : Descriptor}
    (hd : Fetched visited error m m' d d') (bits : UInt32) (hmem : w.memory = m')
    (htype : w.type = d'.first &&& dfDt) :
    MarkedIn visited m (useDescriptor error fc rw sideEffects d bits w).memory := by
  subst hmem
  have hkept : Kept d'.first d.first := by
    rw [hd.first, hd.first']
    exact hm.kept hd.aligned
  rw [useDescriptor_eq (hd.address ▸ hd.noError)]
  show MarkedIn visited m (if sideEffects = true ∧ marked w.type d.first rw ≠ d.first then
      write32 w.memory d.address (marked w.type d.first rw) else w.memory)
  split_ifs with hmark
  · rw [hd.address]
    refine hm.write hd.aligned hd.place ?_
    rw [htype, ← hkept.type, ← hd.first']
    exact hkept.marked rw
  · exact hm

/-- Two walks end with a bus error. -/
theorem Alike.bus (h : Alike r a b (fuel + 1) w v) (hfuel : fuel ≤ 7) (htable : w.table = v.table)
    (type : UInt32) (level : Nat) (tmpSr : UInt16) :
    Alike r a b fuel
      (Walk.busError
        { w with bitpos := nextField w.bitpos, type := type, level := level, tmpSr := tmpSr })
      (Walk.busError
        { v with bitpos := nextField v.bitpos, type := type, level := level, tmpSr := tmpSr }) := by
  have hnext := bitsLeft_next r h.position
  have hroom := h.room
  refine
    { type := rfl
      table := fun _ => htable
      frame := h.frame
      aligned := h.aligned
      work := h.work
      work' := h.work'
      pageshift := h.pageshift
      room := ?_
      position := position_next hfuel h.position
      bitpos := ?_
      level := rfl
      resolved := rfl
      tmpSr := rfl
      result := { h.result with status := h.result.status.or _ } }
  · show v.pageshift.toNat + bitsLeft r (nextField v.bitpos) + _ ≤ 32
    omega
  · show nextField w.bitpos = nextField v.bitpos
    rw [h.bitpos]

theorem places_bitpos (w : Walk) (bitpos : UInt32) (indirect : Bool) (address : UInt32)
    (isLong : Bool) :
    Walk.places error { w with bitpos := bitpos } indirect address isLong =
      w.places error indirect address isLong := by
  simp only [Walk.places, readDescriptor_eq]

/-- Two walks at one point read one descriptor. -/
theorem Alike.fetch (error : UInt32 → Bool) (fc : UInt32) (h : Alike r a b (fuel + 1) w v)
    (hab : SamePage (pmmuPageShift r) a b) (hm : SameWords visited m w.memory) (hv : v.memory = m) (h0 : v.type ≠ dfDtInvalid)
    (h1 : v.type ≠ dfDtPage) (hp : ∀ p ∈ stepPlaces r error fc v, visited p) :
    stepPlaces r error fc w = stepPlaces r error fc v ∧ ∃ type level tmpSr,
      (fetchStep r error fc w).1 =
        { w with bitpos := nextField w.bitpos, type := type, level := level, tmpSr := tmpSr } ∧
      (fetchStep r error fc v).1 =
        { v with bitpos := nextField v.bitpos, type := type, level := level, tmpSr := tmpSr } ∧
      ((fetchStep r error fc w).2 = none ∧ (fetchStep r error fc v).2 = none ∨
        ∃ d d', (fetchStep r error fc w).2 = some d ∧ (fetchStep r error fc v).2 = some d' ∧
          Fetched visited error m w.memory d d' ∧ type = d'.first &&& dfDt) := by
  have h0' : w.type ≠ dfDtInvalid := h.type ▸ h0
  have h1' : w.type ≠ dfDtPage := h.type ▸ h1
  have haddress : descriptorAddress r fc w = descriptorAddress r fc v := by
    unfold descriptorAddress
    rw [h.index hab, h.table h1', h.type]
  have ha : Aligned (descriptorAddress r fc v) := aligned_index h.aligned _ _
  have hplaces : stepPlaces r error fc v = v.places error (lastField r v.bitpos)
      (descriptorAddress r fc v) (v.type == dfDtTable8Byte) := if_neg (not_or.2 ⟨h0, h1⟩)
  have hplaces' : stepPlaces r error fc w = w.places error (lastField r v.bitpos)
      (descriptorAddress r fc v) (v.type == dfDtTable8Byte) := by
    rw [← haddress, ← h.bitpos, ← h.type]
    exact if_neg (not_or.2 ⟨h0', h1'⟩)
  have hstep : fetchStep r error fc v = Walk.fetch error { v with bitpos := nextField v.bitpos }
      (lastField r v.bitpos) (descriptorAddress r fc v) (v.type == dfDtTable8Byte) := rfl
  have hstep' : fetchStep r error fc w = Walk.fetch error { w with bitpos := nextField w.bitpos }
      (lastField r v.bitpos) (descriptorAddress r fc v) (v.type == dfDtTable8Byte) := by
    rw [← haddress, ← h.bitpos, ← h.type]
    rfl
  rw [hplaces] at hp ⊢
  rw [hplaces', hstep, hstep', ← places_bitpos v (nextField v.bitpos),
    ← places_bitpos w (nextField w.bitpos)]
  rw [← places_bitpos v (nextField v.bitpos)] at hp
  generalize hw1 : ({ w with bitpos := nextField w.bitpos } : Walk) = w1
  generalize hv1 : ({ v with bitpos := nextField v.bitpos } : Walk) = v1 at *
  have hm1 : SameWords visited m w1.memory := by rw [← hw1]; exact hm
  have hmem1 : v1.memory = m := by rw [← hv1]; exact hv
  have htype1 : w1.type = v1.type := by rw [← hw1, ← hv1]; exact h.type
  have hlevel1 : w1.level = v1.level := by rw [← hw1, ← hv1]; exact h.level
  have htmp1 : w1.tmpSr = v1.tmpSr := by rw [← hw1, ← hv1]; exact h.tmpSr
  have hfetch := fetch_alike hm1 hmem1 htype1 hlevel1 htmp1 ha hp
  rw [← hw1, ← hv1] at hfetch ⊢
  exact hfetch

/-- One iteration of two walks at one point. -/
theorem Alike.step (error : UInt32 → Bool) (fc : UInt32) (rw rw' sideEffects sideEffects' : Bool)
    (h : Alike r a b (fuel + 1) w v) (hfuel : fuel ≤ 7) (hsize : PageSize r) (hab : SamePage (pmmuPageShift r) a b)
    (hm : SameWords visited m w.memory) (hv : v.memory = m)
    (hp : ∀ p ∈ stepPlaces r error fc v, visited p) :
    stepPlaces r error fc w = stepPlaces r error fc v ∧
      Alike r a b fuel (walkStep r error fc rw sideEffects w)
        (walkStep r error fc rw' sideEffects' v) := by
  by_cases h0 : v.type = dfDtInvalid
  · refine ⟨?_, h.invalid hfuel h0⟩
    rw [stepPlaces, stepPlaces, if_pos (.inl (h.type.trans h0)), if_pos (.inl h0)]
  by_cases h1 : v.type = dfDtPage
  · refine ⟨?_, h.page hfuel hsize hab h1⟩
    rw [stepPlaces, stepPlaces, if_pos (.inr (h.type.trans h1)), if_pos (.inr h1)]
  obtain ⟨hplaces, type, level, tmpSr, hw, hv', hfetch⟩ := h.fetch error fc hab hm hv h0 h1 hp
  refine ⟨hplaces, ?_⟩
  have h0' : w.type ≠ dfDtInvalid := h.type ▸ h0
  have h1' : w.type ≠ dfDtPage := h.type ▸ h1
  rcases hfetch with ⟨hn, hn'⟩ | ⟨d, d', hs, hs', hd, htype⟩
  · rw [walkStep_none h0 h1 hv' hn', walkStep_none h0' h1' hw hn]
    exact h.bus hfuel (h.table h1') type level tmpSr
  · rw [walkStep_some h0 h1 hv' hs', walkStep_some h0' h1' hw hs]
    exact h.use hfuel hsize hm hd htype

/-- The memories of the two walks. -/
theorem Alike.step_marked (rw rw' sideEffects : Bool) (h : Alike r a b (fuel + 1) w v)
    (hab : SamePage (pmmuPageShift r) a b) (hu : Unshared visited) (hm : MarkedIn visited m w.memory) (hv : v.memory = m)
    (hp : ∀ p ∈ stepPlaces r error fc v, visited p) :
    MarkedIn visited m (walkStep r error fc rw sideEffects w).memory ∧
      (walkStep r error fc rw' false v).memory = m := by
  by_cases h0 : v.type = dfDtInvalid
  · rw [walkStep_invalid h0, walkStep_invalid (h.type.trans h0)]
    exact ⟨hm, hv⟩
  by_cases h1 : v.type = dfDtPage
  · rw [walkStep_page h1, walkStep_page (h.type.trans h1)]
    exact ⟨hm, hv⟩
  obtain ⟨-, type, level, tmpSr, hw, hv', hfetch⟩ := h.fetch error fc hab (hm.sameWords hu) hv h0 h1 hp
  have h0' : w.type ≠ dfDtInvalid := h.type ▸ h0
  have h1' : w.type ≠ dfDtPage := h.type ▸ h1
  rcases hfetch with ⟨hn, hn'⟩ | ⟨d, d', hs, hs', hd, htype⟩
  · rw [walkStep_none h0 h1 hv' hn', walkStep_none h0' h1' hw hn]
    exact ⟨hm, hv⟩
  · rw [walkStep_some h0 h1 hv' hs', walkStep_some h0' h1' hw hs]
    rw [useDescriptor_memory]
    refine ⟨?_, hv⟩
    refine useDescriptor_marked hm hd _ rfl ?_
    exact htype

/-- Two walks through one memory leave the same marks. -/
theorem Alike.step_memory (error : UInt32 → Bool) (fc : UInt32) (rw sideEffects : Bool)
    (h : Alike r a b (fuel + 1) w v) (hab : SamePage (pmmuPageShift r) a b) (hm : w.memory = v.memory) :
    (walkStep r error fc rw sideEffects w).memory =
      (walkStep r error fc rw sideEffects v).memory := by
  by_cases h0 : v.type = dfDtInvalid
  · rw [walkStep_invalid h0, walkStep_invalid (h.type.trans h0)]
    exact hm
  by_cases h1 : v.type = dfDtPage
  · rw [walkStep_page h1, walkStep_page (h.type.trans h1)]
    exact hm
  have hsame : SameWords (fun _ => True) v.memory w.memory := hm ▸ .refl _ _
  obtain ⟨-, type, level, tmpSr, hw, hv', hfetch⟩ :=
    h.fetch error fc hab hsame rfl h0 h1 fun _ _ => trivial
  have h0' : w.type ≠ dfDtInvalid := h.type ▸ h0
  have h1' : w.type ≠ dfDtPage := h.type ▸ h1
  rcases hfetch with ⟨hn, hn'⟩ | ⟨d, d', hs, hs', hd, htype⟩
  · rw [walkStep_none h0 h1 hv' hn', walkStep_none h0' h1' hw hn]
    exact hm
  · rw [walkStep_some h0 h1 hv' hs', walkStep_some h0' h1' hw hs]
    have hfirst : d.first = d'.first := by rw [hd.first, hd.first', hm]
    rw [useDescriptor_eq (hd.address ▸ hd.noError), useDescriptor_eq hd.noError]
    show (if _ ∧ marked type d.first rw ≠ d.first then
        write32 w.memory d.address (marked type d.first rw) else w.memory) =
      if _ ∧ marked type d'.first rw ≠ d'.first then
        write32 v.memory d'.address (marked type d'.first rw) else v.memory
    rw [hfirst, hd.address, hm]

/-- The loop ends here. -/
def Walk.stops (limit : Nat) (w : Walk) : Bool :=
  w.resolved || decide (limit ≤ w.level) || decide (7 ≤ w.level)

/-- The descriptors that the loop visits. -/
def trail (r : Registers) (error : UInt32 → Bool) (fc : UInt32) (limit : Nat) :
    Nat → Walk → List Place
  | 0, _ => []
  | fuel + 1, w =>
    stepPlaces r error fc w ++
      if (walkStep r error fc true false w).stops limit then []
      else trail r error fc limit fuel (walkStep r error fc true false w)

/-- Where two walks end. -/
structure AlikeEnd (r : Registers) (a b : UInt32) (w v : Walk) : Prop where
  result : SameResult r a b w.result v.result
  resolved : w.resolved = v.resolved
  level : w.level = v.level

theorem Alike.stops (h : Alike r a b fuel w v) (limit : Nat) : w.stops limit = v.stops limit := by
  rw [Walk.stops, Walk.stops, h.resolved, h.level]

theorem walkLoop_succ (limit : Nat) :
    walkLoop r error fc rw sideEffects limit (fuel + 1) w =
      if (walkStep r error fc rw sideEffects w).stops limit then
        walkStep r error fc rw sideEffects w
      else walkLoop r error fc rw sideEffects limit fuel (walkStep r error fc rw sideEffects w) := rfl

/-- A walk with side effects against one through the tables as they were. -/
theorem Alike.loop (rw sideEffects : Bool) {limit : Nat} (h : Alike r a b fuel w v) (hfuel : fuel ≤ 8)
    (hsize : PageSize r) (hab : SamePage (pmmuPageShift r) a b) (hu : Unshared visited)
    (hm : MarkedIn visited m w.memory) (hv : v.memory = m)
    (hp : ∀ p ∈ trail r error fc limit fuel v, visited p) :
    AlikeEnd r a b (walkLoop r error fc rw sideEffects limit fuel w)
        (walkLoop r error fc true false limit fuel v) ∧
      MarkedIn visited m (walkLoop r error fc rw sideEffects limit fuel w).memory := by
  induction fuel generalizing w v with
  | zero => exact ⟨⟨h.result, h.resolved, h.level⟩, hm⟩
  | succ fuel ih =>
    rw [trail] at hp
    have hp' : ∀ p ∈ stepPlaces r error fc v, visited p := fun p hpp =>
      hp p (List.mem_append_left _ hpp)
    obtain ⟨-, hstep⟩ := h.step error fc rw true sideEffects false (by omega) hsize hab
      (hm.sameWords hu) hv hp'
    obtain ⟨hmarks, hmem⟩ := h.step_marked rw true sideEffects hab hu hm hv hp'
    rw [walkLoop_succ, walkLoop_succ, hstep.stops]
    by_cases hstop : (walkStep r error fc true false v).stops limit = true
    · rw [if_pos hstop, if_pos hstop]
      exact ⟨⟨hstep.result, hstep.resolved, hstep.level⟩, hmarks⟩
    · rw [if_neg hstop, if_neg hstop]
      rw [if_neg hstop] at hp
      exact ih hstep (by omega) hmarks hmem fun p hpp => hp p (List.mem_append_right _ hpp)

/-- Marks do not lead a walk elsewhere. -/
theorem Alike.trail {limit : Nat} (h : Alike r a b fuel w v) (hfuel : fuel ≤ 8)
    (hsize : PageSize r) (hab : SamePage (pmmuPageShift r) a b) (hu : Unshared visited)
    (hm : MarkedIn visited m w.memory) (hv : v.memory = m)
    (hp : ∀ p ∈ Cpu.trail r error fc limit fuel v, visited p) :
    Cpu.trail r error fc limit fuel w = Cpu.trail r error fc limit fuel v := by
  induction fuel generalizing w v with
  | zero => rfl
  | succ fuel ih =>
    rw [Cpu.trail] at hp
    have hp' : ∀ p ∈ stepPlaces r error fc v, visited p := fun p hpp =>
      hp p (List.mem_append_left _ hpp)
    obtain ⟨hplaces, hstep⟩ := h.step error fc true true false false (by omega) hsize hab
      (hm.sameWords hu) hv hp'
    obtain ⟨hmarks, hmem⟩ := h.step_marked true true false hab hu hm hv hp'
    rw [Cpu.trail, Cpu.trail, hplaces, hstep.stops]
    by_cases hstop : (walkStep r error fc true false v).stops limit = true
    · rw [if_pos hstop, if_pos hstop]
    · rw [if_neg hstop, if_neg hstop]
      rw [if_neg hstop] at hp
      rw [ih hstep (by omega) hmarks hmem fun p hpp => hp p (List.mem_append_right _ hpp)]

/-- Two walks through one memory. -/
theorem Alike.loop_memory (error : UInt32 → Bool) (fc : UInt32) (rw sideEffects : Bool)
    (limit : Nat) (h : Alike r a b fuel w v) (hfuel : fuel ≤ 8) (hsize : PageSize r) (hab : SamePage (pmmuPageShift r) a b)
    (hm : w.memory = v.memory) :
    AlikeEnd r a b (walkLoop r error fc rw sideEffects limit fuel w)
      (walkLoop r error fc rw sideEffects limit fuel v) := by
  induction fuel generalizing w v with
  | zero => exact ⟨h.result, h.resolved, h.level⟩
  | succ fuel ih =>
    have hsame : SameWords (fun _ => True) v.memory w.memory := hm ▸ .refl _ _
    obtain ⟨-, hstep⟩ := h.step error fc rw rw sideEffects sideEffects (by omega) hsize hab hsame rfl
      fun _ _ => trivial
    have hmem := h.step_memory error fc rw sideEffects hab hm
    rw [walkLoop_succ, walkLoop_succ, hstep.stops]
    by_cases hstop : (walkStep r error fc rw sideEffects v).stops limit = true
    · rw [if_pos hstop, if_pos hstop]
      exact ⟨hstep.result, hstep.resolved, hstep.level⟩
    · rw [if_neg hstop, if_neg hstop]
      exact ih hstep (by omega) hmem

end

/-! ## The tables of a processor -/

/-- A walk without side effects through the tables as they are. -/
def freshWalk (s : M68kMmu) (logical fc : UInt32) (rw : Bool) : TranslationResult :=
  (pmmuWalkTables { s with tmpSr := 0 } logical fc rw 7 false { physicalAddress := logical }).2

/-- The descriptors that walks visit. -/
def visited (s : M68kMmu) (p : Place) : Prop :=
  ∃ logical fc, p ∈ trail s.regs s.physicalError fc 7 7
    (Walk.start s.regs s.memory 0 logical fc { physicalAddress := logical })

/-- Translation of a 68030 is enabled, and no word is part of two descriptors. -/
structure ValidTables (s : M68kMmu) : Prop where
  kind : s.regs.kind ≠ .m68040
  tc : ValidTc s.regs
  unshared : Unshared (visited s)

section
variable {s s' : M68kMmu} {a b fc : UInt32} {rw rw' sideEffects : Bool}

theorem ValidTc.size {r : Registers} (htc : ValidTc r) : PageSize r :=
  let ⟨h8, h16, _⟩ := bitsLeft_start htc
  ⟨h8, h16⟩

theorem bitsLeft_twelve (r : Registers) : bitsLeft r 12 = bitsLeft r 16 := by simp [bitsLeft]

theorem aligned_root (r : Registers) (fc : UInt32) : Aligned (rootOf r fc).2 := by
  unfold rootOf
  split_ifs <;> exact aligned_and rfl

theorem start_alike {r : Registers} (fc : UInt32) (htc : ValidTc r)
    (hab : SamePage (pmmuPageShift r) a b) (m m' : Memory) :
    Alike r a b 7 (Walk.start r m' 0 a fc { physicalAddress := a })
      (Walk.start r m 0 b fc { physicalAddress := b }) := by
  obtain ⟨-, -, hsum⟩ := bitsLeft_start htc
  refine
    { type := rfl
      table := fun _ => rfl
      frame := rfl
      aligned := aligned_root _ _
      work := rfl
      work' := rfl
      pageshift := rfl
      room := ?_
      position := ?_
      bitpos := rfl
      level := rfl
      resolved := rfl
      tmpSr := rfl
      result := ⟨rfl, hab, rfl, rfl⟩ }
  · show (field r.tc 16).toNat + bitsLeft r (if _ then 16 else 12) + _ ≤ 32
    split_ifs
    · omega
    · rw [bitsLeft_twelve]
      omega
  · show Position 7 (if _ then 16 else 12)
    split_ifs
    · exact .inl (by decide)
    · exact .inl (by decide)

theorem AlikeEnd.finish {r : Registers} {w v : Walk} (h : AlikeEnd r a b w v) (limit : Nat) :
    SameResult r a b (w.finish rw limit) (v.finish rw' limit) := by
  refine ⟨?_, h.result.page, h.result.offset, h.result.offset'⟩
  unfold Walk.finish
  rw [h.resolved, h.level]
  refine (SameStatus.and ?_ _).or _
  split_ifs
  · exact h.result.status.or _
  · exact h.result.status

/-- The direction of an access only matters for marks, and at the end. -/
theorem walkLoop_direction (rw : Bool) {r : Registers} {error : UInt32 → Bool} (limit fuel : Nat) (w : Walk) :
    walkLoop r error fc rw false limit fuel w = walkLoop r error fc true false limit fuel w := by
  have hstep : ∀ w, walkStep r error fc rw false w = walkStep r error fc true false w := by
    intro w
    simp only [walkStep, useDescriptor, Bool.false_eq_true, if_false]
  induction fuel generalizing w with
  | zero => rfl
  | succ fuel ih => rw [walkLoop_succ, walkLoop_succ, hstep, ih]

/-- What a walk through marked tables finds, and the marks that it adds. -/
theorem walk_alike (s' : M68kMmu) (hs : ValidTables s) (hr : s'.regs = s.regs)
    (he : s'.physicalError = s.physicalError) (htmp : s'.tmpSr = 0)
    (hm : MarkedIn (visited s) s.memory s'.memory) (hab : SamePage (pmmuPageShift s.regs) a b) :
    SameResult s.regs a b
        (pmmuWalkTables s' a fc rw 7 sideEffects { physicalAddress := a }).2
        (freshWalk s b fc rw') ∧
      MarkedIn (visited s) s.memory
        (pmmuWalkTables s' a fc rw 7 sideEffects { physicalAddress := a }).1.memory := by
  have hp : ∀ p ∈ trail s.regs s.physicalError fc 7 7
      (Walk.start s.regs s.memory 0 b fc { physicalAddress := b }), visited s p :=
    fun p hp => ⟨b, fc, hp⟩
  obtain ⟨hend, hmarks⟩ := (start_alike fc hs.tc hab s.memory s'.memory).loop rw sideEffects
    (by omega) hs.tc.size hab hs.unshared hm rfl hp
  unfold freshWalk pmmuWalkTables
  rw [hr, he, htmp, walkLoop_direction rw']
  exact ⟨hend.finish 7, hmarks⟩

/-- Marks do not change which descriptors walks visit. -/
theorem visited_marked (hs : ValidTables s) (hr : s'.regs = s.regs)
    (he : s'.physicalError = s.physicalError) (hm : MarkedIn (visited s) s.memory s'.memory) :
    visited s' = visited s := by
  funext p
  unfold visited
  rw [hr, he]
  refine propext (exists_congr fun logical => exists_congr fun fc => ?_)
  rw [(start_alike fc hs.tc (SamePage.refl _ _) s.memory s'.memory).trail (by omega) hs.tc.size
    (SamePage.refl _ _) hs.unshared hm rfl fun p hp => ⟨logical, fc, hp⟩]

theorem ValidTables.marked (hs : ValidTables s) (hr : s'.regs = s.regs)
    (he : s'.physicalError = s.physicalError) (hm : MarkedIn (visited s) s.memory s'.memory) :
    ValidTables s' where
  kind := hr ▸ hs.kind
  tc := hr ▸ hs.tc
  unshared := (visited_marked hs hr he hm).symm ▸ hs.unshared

end

/-! ## Tables of one level -/

section
variable {s : M68kMmu} {error : UInt32 → Bool} {w : Walk} {address fc : UInt32} {p : Place}

/-- A word that leads no further. -/
def Final (word : UInt32) : Prop := word &&& dfDt = dfDtInvalid ∨ word &&& dfDt = dfDtPage

theorem Final.no_table (h : Final (read32 w.memory address)) (indirect : Bool) :
    (indirect && (read32 w.memory address &&& dfDt == dfDtTable4Byte ||
      read32 w.memory address &&& dfDt == dfDtTable8Byte)) = false := by
  rcases h with h | h <;> rw [h] <;> cases indirect <;> rfl

theorem places_final (h : Final (read32 w.memory address)) {indirect : Bool}
    (hp : p ∈ w.places error indirect address false) : p = ⟨address, false, false⟩ := by
  unfold Walk.places at hp
  simp only [readDescriptor_eq, h.no_table, Bool.false_eq_true, if_false] at hp
  split_ifs at hp
  · cases hp
  · exact List.mem_singleton.1 hp

theorem walkStep_final (error : UInt32 → Bool) {r : Registers} (hw : w.type = dfDtTable4Byte)
    (h : Final (read32 w.memory (descriptorAddress r fc w))) :
    (walkStep r error fc true false w).resolved = true ∨
      (walkStep r error fc true false w).type = dfDtInvalid ∨
      (walkStep r error fc true false w).type = dfDtPage := by
  rw [walkStep_table (by rw [hw]; decide) (by rw [hw]; decide)]
  unfold fetchStep Walk.fetch
  have hlong : (w.type == dfDtTable8Byte) = false := by rw [hw]; rfl
  simp only [readDescriptor_eq, hlong, h.no_table, Bool.false_eq_true, if_false]
  split_ifs
  · exact .inl rfl
  · exact .inr h

/-- Tables of one level of short descriptors share no words. -/
theorem unshared_final (hroot : ∀ fc, (rootOf s.regs fc).1 = dfDtTable4Byte)
    (hfinal : ∀ x, Aligned x → Final (read32 s.memory x)) : Unshared (visited s) := by
  have hend : ∀ fuel (w : Walk) fc, w.type = dfDtInvalid ∨ w.type = dfDtPage →
      trail s.regs s.physicalError fc 7 fuel w = [] := by
    intro fuel w fc hw
    cases fuel with
    | zero => rfl
    | succ fuel =>
      have hresolved : (walkStep s.regs s.physicalError fc true false w).stops 7 = true := by
        rcases hw with hw | hw
        · rw [walkStep_invalid hw]
          rfl
        · rw [walkStep_page hw]
          rfl
      rw [trail, stepPlaces, if_pos hw, if_pos hresolved]
      rfl
  have hplace : ∀ p, visited s p → p.isLong = false ∧ p.indirect = false := by
    rintro p ⟨logical, fc, hp⟩
    generalize hw : Walk.start s.regs s.memory 0 logical fc { physicalAddress := logical } = w at hp
    have htype : w.type = dfDtTable4Byte := by rw [← hw]; exact hroot fc
    have haligned : Aligned (descriptorAddress s.regs fc w) := by
      have htable : w.table = (rootOf s.regs fc).2 := by rw [← hw]; rfl
      refine aligned_index ?_ _ _
      rw [htable]
      exact aligned_root _ _
    have hword : Final (read32 w.memory (descriptorAddress s.regs fc w)) := by
      rw [← hw] at haligned ⊢
      exact hfinal _ haligned
    have hlong : (w.type == dfDtTable8Byte) = false := by rw [htype]; rfl
    rw [trail, List.mem_append, stepPlaces, if_neg (by rw [htype]; decide), hlong] at hp
    rcases hp with hp | hp
    · rw [places_final hword hp]
      exact ⟨rfl, rfl⟩
    · rcases walkStep_final s.physicalError htype hword with hres | hres
      · rw [if_pos (by rw [Walk.stops, hres]; rfl)] at hp
        cases hp
      · rw [hend 6 _ fc hres] at hp
        split_ifs at hp <;> cases hp
  intro p p' hp hp' x hx hx'
  obtain ⟨hl, hi⟩ := hplace p hp
  obtain ⟨hl', hi'⟩ := hplace p' hp'
  cases p with
  | mk address isLong indirect =>
  cases p' with
  | mk address' isLong' indirect' =>
  cases hl
  cases hi
  cases hl'
  cases hi'
  have haddress : address = address' :=
    (List.mem_singleton.1 hx).symm.trans (List.mem_singleton.1 hx')
  rw [haddress]

end

end CuteMac.Cpu
