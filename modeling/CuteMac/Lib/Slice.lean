/-
  Slices and blocks of lists.

  * `mid`: some elements from a position on, `overwrite`: elements are replaced;
  * `block`, `putBlock`: the same for aligned blocks of one size;
  * `putBlocks`: several blocks are written, one after the other;
  * `block_putBlocks`: the blocks written hold what was written, the others are
    unchanged;
  * `indexOf`: the first occurrence of a pattern.
-/
import Mathlib.Data.List.Basic
import Mathlib.Data.List.Induction
import Mathlib.Tactic.SplitIfs

namespace Slice

variable {α : Type*}

/-! ## Slices -/

/-- The `n` elements from position `i`, as far as they exist. -/
def mid (l : List α) (i n : Nat) : List α := (l.drop i).take n

/-- `xs` replaces the elements from position `i`. -/
def overwrite (l : List α) (i : Nat) (xs : List α) : List α :=
  l.take i ++ xs ++ l.drop (i + xs.length)

@[simp] theorem length_mid (l : List α) (i n : Nat) : (mid l i n).length = min n (l.length - i) := by
  simp [mid]

theorem length_overwrite {l xs : List α} {i : Nat} (h : i + xs.length ≤ l.length) :
    (overwrite l i xs).length = l.length := by
  simp only [overwrite, List.length_append, List.length_take, List.length_drop]
  omega

theorem getElem?_mid (l : List α) (i n j : Nat) :
    (mid l i n)[j]? = if j < n then l[i + j]? else none := by
  simp [mid, List.getElem?_take, List.getElem?_drop]

theorem getElem?_overwrite {l xs : List α} {i : Nat} (h : i + xs.length ≤ l.length) (j : Nat) :
    (overwrite l i xs)[j]? = if i ≤ j ∧ j < i + xs.length then xs[j - i]? else l[j]? := by
  have hi : (l.take i).length = i := by rw [List.length_take]; omega
  unfold overwrite
  rcases Nat.lt_or_ge j i with hj | hj
  · rw [if_neg (by omega), List.append_assoc, List.getElem?_append_left (by omega),
      List.getElem?_take_of_lt hj]
  · rcases Nat.lt_or_ge j (i + xs.length) with hj' | hj'
    · rw [if_pos ⟨hj, hj'⟩, List.getElem?_append_left (by rw [List.length_append]; omega),
        List.getElem?_append_right (by omega), hi]
    · rw [if_neg (by omega), List.getElem?_append_right (by rw [List.length_append]; omega),
        List.length_append, hi, List.getElem?_drop]
      congr 1
      omega

theorem mid_overwrite {l xs : List α} {i : Nat} (h : i + xs.length ≤ l.length) :
    mid (overwrite l i xs) i xs.length = xs := by
  apply List.ext_getElem?
  intro j
  rw [getElem?_mid, getElem?_overwrite h]
  rcases Nat.lt_or_ge j xs.length with hj | hj
  · rw [if_pos hj, if_pos (by omega)]
    congr 1
    omega
  · rw [if_neg (by omega), List.getElem?_eq_none hj]

theorem mid_overwrite_of_disjoint {l xs : List α} {i j n : Nat} (h : i + xs.length ≤ l.length)
    (hd : j + n ≤ i ∨ i + xs.length ≤ j) : mid (overwrite l i xs) j n = mid l j n := by
  apply List.ext_getElem?
  intro k
  rw [getElem?_mid, getElem?_mid]
  split_ifs with hk
  · rw [getElem?_overwrite h, if_neg (by omega)]
  · rfl

theorem overwrite_mid {l : List α} {i n : Nat} (h : i + n ≤ l.length) :
    overwrite l i (mid l i n) = l := by
  have hn : (mid l i n).length = n := by rw [length_mid]; omega
  apply List.ext_getElem?
  intro j
  rw [getElem?_overwrite (by omega), hn]
  split_ifs with hj
  · rw [getElem?_mid, if_pos (by omega)]
    congr 1
    omega
  · rfl

section
variable {l xs : List α} {i n : Nat}

theorem set_eq_overwrite {x : α} (h : i < l.length) : l.set i x = overwrite l i [x] := by
  rw [List.set_eq_take_append_cons_drop, if_pos h, overwrite, List.append_assoc,
    List.singleton_append]
  rfl

theorem take_overwrite_of_le (h : i + xs.length ≤ l.length) (hn : n ≤ i) :
    (overwrite l i xs).take n = l.take n := by
  apply List.ext_getElem?
  intro j
  rw [List.getElem?_take, List.getElem?_take, getElem?_overwrite h]
  split_ifs with hj hj'
  · omega
  · rfl
  · rfl

theorem take_overwrite (h : i + xs.length ≤ l.length) (hn : i + xs.length ≤ n) :
    (overwrite l i xs).take n = overwrite (l.take n) i xs := by
  apply List.ext_getElem?
  intro j
  rw [List.getElem?_take, getElem?_overwrite h,
    getElem?_overwrite (by rw [List.length_take]; omega), List.getElem?_take]
  by_cases hj : i ≤ j ∧ j < i + xs.length
  · rw [if_pos hj, if_pos (by omega), if_pos hj]
  · rw [if_neg hj, if_neg hj]

theorem drop_overwrite (h : i + xs.length ≤ l.length) (hn : n ≤ i) :
    (overwrite l i xs).drop n = overwrite (l.drop n) (i - n) xs := by
  apply List.ext_getElem?
  intro j
  rw [List.getElem?_drop, getElem?_overwrite h,
    getElem?_overwrite (by rw [List.length_drop]; omega), List.getElem?_drop]
  by_cases hj : i ≤ n + j ∧ n + j < i + xs.length
  · rw [if_pos hj, if_pos (by omega)]
    congr 1
    omega
  · rw [if_neg hj, if_neg (by omega)]

theorem drop_overwrite_of_le (h : i + xs.length ≤ l.length) (hn : i + xs.length ≤ n) :
    (overwrite l i xs).drop n = l.drop n := by
  apply List.ext_getElem?
  intro j
  rw [List.getElem?_drop, List.getElem?_drop, getElem?_overwrite h, if_neg (by omega)]

/-- Two writes, one behind the other. -/
theorem overwrite_append (xs ys : List α) (h : i + xs.length + ys.length ≤ l.length) :
    overwrite (overwrite l i xs) (i + xs.length) ys = overwrite l i (xs ++ ys) := by
  apply List.ext_getElem?
  intro j
  rw [getElem?_overwrite (by rw [length_overwrite (by omega)]; exact h), getElem?_overwrite (by omega),
    getElem?_overwrite (by rw [List.length_append]; omega), List.length_append]
  by_cases hy : i + xs.length ≤ j ∧ j < i + xs.length + ys.length
  · rw [if_pos hy, if_pos (by omega), List.getElem?_append_right (by omega)]
    congr 1
    omega
  · rw [if_neg hy]
    by_cases hx : i ≤ j ∧ j < i + xs.length
    · rw [if_pos hx, if_pos (by omega), List.getElem?_append_left (by omega)]
    · rw [if_neg hx, if_neg (by omega)]

/-- The second of two writes to one place counts. -/
theorem overwrite_overwrite {ys : List α} (h : i + xs.length ≤ l.length)
    (hxy : xs.length = ys.length) : overwrite (overwrite l i xs) i ys = overwrite l i ys := by
  apply List.ext_getElem?
  intro j
  rw [getElem?_overwrite (by rw [length_overwrite h]; omega), getElem?_overwrite h,
    getElem?_overwrite (by omega), hxy]
  split_ifs <;> rfl

end

theorem mid_append_left {l m : List α} {i n : Nat} (h : i + n ≤ l.length) :
    mid (l ++ m) i n = mid l i n := by
  apply List.ext_getElem?
  intro j
  rw [getElem?_mid, getElem?_mid]
  split_ifs with hj
  · rw [List.getElem?_append_left (by omega)]
  · rfl

theorem mid_append_right {l m : List α} {i n : Nat} (h : l.length ≤ i) :
    mid (l ++ m) i n = mid m (i - l.length) n := by
  apply List.ext_getElem?
  intro j
  rw [getElem?_mid, getElem?_mid]
  split_ifs with hj
  · rw [List.getElem?_append_right (by omega)]
    congr 1
    omega
  · rfl

/-- A slice of a slice. -/
theorem mid_mid {l : List α} {i n j m : Nat} (h : j + m ≤ n) :
    mid (mid l i n) j m = mid l (i + j) m := by
  apply List.ext_getElem?
  intro k
  rw [getElem?_mid, getElem?_mid, getElem?_mid]
  by_cases hk : k < m
  · rw [if_pos hk, if_pos hk, if_pos (by omega), Nat.add_assoc]
  · rw [if_neg hk, if_neg hk]

theorem getD_append_left {l : List α} {i : Nat} (m : List α) (d : α) (h : i < l.length) :
    (l ++ m).getD i d = l.getD i d := by
  rw [List.getD_eq_getElem?_getD, List.getD_eq_getElem?_getD, List.getElem?_append_left h]

theorem getD_take {l : List α} {i n : Nat} {d : α} (h : i < n) :
    (l.take n).getD i d = l.getD i d := by
  rw [List.getD_eq_getElem?_getD, List.getD_eq_getElem?_getD, List.getElem?_take_of_lt h]

theorem getD_mid {l : List α} {i n j : Nat} {d : α} (h : j < n) :
    (mid l i n).getD j d = l.getD (i + j) d := by
  rw [List.getD_eq_getElem?_getD, List.getD_eq_getElem?_getD, getElem?_mid, if_pos h]

@[simp] theorem mid_self (l : List α) : mid l 0 l.length = l := by simp [mid]

/-! ## Blocks -/

/-- Block `k` of a list cut into blocks of `size` elements. -/
def block (size : Nat) (l : List α) (k : Nat) : List α := mid l (k * size) size

/-- `xs` replaces block `k`. -/
def putBlock (size : Nat) (l : List α) (k : Nat) (xs : List α) : List α := overwrite l (k * size) xs

/-- Block `k` lies in the list. -/
def HasBlock (size : Nat) (l : List α) (k : Nat) : Prop := (k + 1) * size ≤ l.length

variable {size : Nat}

theorem HasBlock.end_le {l : List α} {k : Nat} (h : HasBlock size l k) :
    k * size + size ≤ l.length := by
  unfold HasBlock at h
  rw [Nat.succ_mul] at h
  exact h

theorem length_block {l : List α} {k : Nat} (h : HasBlock size l k) :
    (block size l k).length = size := by
  have := h.end_le
  rw [block, length_mid]
  omega

theorem length_putBlock {l xs : List α} {k : Nat} (h : HasBlock size l k) (hx : xs.length = size) :
    (putBlock size l k xs).length = l.length :=
  length_overwrite (by rw [hx]; exact h.end_le)

theorem block_putBlock {l xs : List α} {k : Nat} (h : HasBlock size l k) (hx : xs.length = size) :
    block size (putBlock size l k xs) k = xs := by
  have hm := @mid_overwrite _ l xs (k * size) (by rw [hx]; exact h.end_le)
  rw [hx] at hm
  exact hm

theorem block_putBlock_ne {l xs : List α} {k j : Nat} (h : HasBlock size l k)
    (hx : xs.length = size) (hj : j ≠ k) :
    block size (putBlock size l k xs) j = block size l j := by
  apply mid_overwrite_of_disjoint (by rw [hx]; exact h.end_le)
  rw [hx]
  rcases Nat.lt_or_gt_of_ne hj with hj | hj
  · exact Or.inl (by rw [← Nat.succ_mul]; exact Nat.mul_le_mul_right size hj)
  · exact Or.inr (by rw [← Nat.succ_mul]; exact Nat.mul_le_mul_right size hj)

theorem putBlock_block {l : List α} {k : Nat} (h : HasBlock size l k) :
    putBlock size l k (block size l k) = l :=
  overwrite_mid h.end_le

/-- Inside what was written. -/
theorem mid_overwrite_within {l xs : List α} {i j m : Nat} (h : i + xs.length ≤ l.length)
    (hj : j + m ≤ xs.length) : mid (overwrite l i xs) (i + j) m = mid xs j m := by
  rw [← mid_mid hj, mid_overwrite h]

/-- Whole blocks are overwritten from block `k` on. -/
theorem block_overwrite {l xs : List α} {k n : Nat} (hx : xs.length = n * size)
    (h : k * size + xs.length ≤ l.length) (j : Nat) :
    block size (overwrite l (k * size) xs) j =
      if k ≤ j ∧ j < k + n then block size xs (j - k) else block size l j := by
  by_cases hj : k ≤ j ∧ j < k + n
  · obtain ⟨i, rfl⟩ := Nat.exists_eq_add_of_le hj.1
    have hi : (i + 1) * size ≤ n * size := Nat.mul_le_mul_right size (by omega)
    rw [Nat.succ_mul] at hi
    rw [if_pos hj, block, block, Nat.add_sub_cancel_left, Nat.add_mul]
    exact mid_overwrite_within h (by omega)
  · rw [if_neg hj]
    apply mid_overwrite_of_disjoint h
    rcases Nat.lt_or_ge j k with hlt | hge
    · exact Or.inl (by rw [← Nat.succ_mul]; exact Nat.mul_le_mul_right size hlt)
    · have hn : (k + n) * size ≤ j * size := Nat.mul_le_mul_right size (by omega)
      rw [Nat.add_mul] at hn
      exact Or.inr (by omega)

theorem mid_add (l : List α) (i m n : Nat) : mid l i (m + n) = mid l i m ++ mid l (i + m) n := by
  rw [mid, mid, mid, List.take_add, List.drop_drop]

/-- A slice of whole blocks is the blocks one after the other. -/
theorem mid_eq_flatMap_block (l : List α) (k n : Nat) :
    mid l (k * size) (n * size) = (List.range n).flatMap fun i => block size l (k + i) := by
  induction n with
  | zero => simp [mid]
  | succ n ih =>
    rw [List.range_succ, List.flatMap_append, ← ih, Nat.succ_mul, mid_add, ← Nat.add_mul]
    simp [block]

/-- Blocks are written, in order. -/
def putBlocks (size : Nat) (l : List α) (ps : List (Nat × List α)) : List α :=
  ps.foldl (fun l p => putBlock size l p.1 p.2) l

/-- Every block to be written lies in the list and has the block size. -/
def Writable (size : Nat) (l : List α) (ps : List (Nat × List α)) : Prop :=
  ∀ p ∈ ps, HasBlock size l p.1 ∧ p.2.length = size

theorem Writable.tail {l : List α} {p : Nat × List α} {ps : List (Nat × List α)}
    (h : Writable size l (p :: ps)) : Writable size (putBlock size l p.1 p.2) ps := by
  intro q hq
  obtain ⟨hp, hx⟩ := h p (List.mem_cons_self ..)
  obtain ⟨hq1, hq2⟩ := h q (List.mem_cons_of_mem _ hq)
  exact ⟨by unfold HasBlock; rw [length_putBlock hp hx]; exact hq1, hq2⟩

theorem length_putBlocks {l : List α} {ps : List (Nat × List α)} (h : Writable size l ps) :
    (putBlocks size l ps).length = l.length := by
  induction ps generalizing l with
  | nil => rfl
  | cons p ps ih =>
    obtain ⟨hp, hx⟩ := h p (List.mem_cons_self ..)
    exact (ih h.tail).trans (length_putBlock hp hx)

/-- Where each block is written with its own new contents, the order does not matter. -/
theorem block_putBlocks {l : List α} {ps : List (Nat × List α)} (h : Writable size l ps)
    {new : Nat → List α} (hnew : ∀ p ∈ ps, p.2 = new p.1) (k : Nat) :
    block size (putBlocks size l ps) k =
      if k ∈ ps.map Prod.fst then new k else block size l k := by
  induction ps generalizing l with
  | nil => simp [putBlocks]
  | cons p ps ih =>
    obtain ⟨hp, hx⟩ := h p (List.mem_cons_self ..)
    have hp' := hnew p (List.mem_cons_self ..)
    have := ih h.tail fun q hq => hnew q (List.mem_cons_of_mem _ hq)
    rw [putBlocks, List.foldl_cons]
    refine this.trans ?_
    by_cases hk : k ∈ ps.map Prod.fst
    · rw [if_pos hk, if_pos (by rw [List.map_cons]; exact List.mem_cons_of_mem _ hk)]
    · rw [if_neg hk]
      by_cases hpk : k = p.1
      · subst hpk
        rw [block_putBlock hp hx, if_pos (by simp), hp']
      · rw [block_putBlock_ne hp hx hpk, if_neg (by simpa [hpk] using hk)]

/-- Writing back what is there changes nothing. -/
theorem putBlocks_self {l : List α} {ps : List (Nat × List α)} (h : Writable size l ps)
    (hself : ∀ p ∈ ps, p.2 = block size l p.1) : putBlocks size l ps = l := by
  induction ps with
  | nil => rfl
  | cons p ps ih =>
    obtain ⟨hp, -⟩ := h p (List.mem_cons_self ..)
    rw [putBlocks, List.foldl_cons, hself p (List.mem_cons_self ..), putBlock_block hp]
    exact ih (fun q hq => h q (List.mem_cons_of_mem _ hq))
      fun q hq => hself q (List.mem_cons_of_mem _ hq)

/-- Cutting blocks that were put together. -/
theorem block_flatten {bs : List (List α)} (h : ∀ b ∈ bs, b.length = size) :
    (List.range bs.length).map (block size bs.flatten) = bs := by
  induction bs with
  | nil => rfl
  | cons b bs ih =>
    have hb := h b (List.mem_cons_self ..)
    have hbs := ih fun b' hb' => h b' (List.mem_cons_of_mem _ hb')
    rw [List.length_cons, List.range_succ_eq_map, List.map_cons, List.map_map, List.flatten_cons]
    have h0 : block size (b ++ bs.flatten) 0 = b := by
      rw [block, Nat.zero_mul, mid_append_left (by omega), ← hb, mid_self]
    have hS : block size (b ++ bs.flatten) ∘ Nat.succ = block size bs.flatten := by
      funext k
      rw [Function.comp_apply, block, mid_append_right (by rw [hb, Nat.succ_mul]; omega), hb,
        Nat.succ_mul, Nat.add_sub_cancel]
      rfl
    rw [h0, hS, hbs]

/-- One block of blocks that were put together. -/
theorem block_flatten_map {n k : Nat} {f : Nat → List α} (hk : k < n)
    (h : ∀ i < n, (f i).length = size) : block size ((List.range n).map f).flatten k = f k := by
  have hall : ∀ b ∈ (List.range n).map f, b.length = size := by
    intro b hb
    obtain ⟨i, hi, rfl⟩ := List.mem_map.1 hb
    exact h i (List.mem_range.1 hi)
  have hb := congrArg (fun bs => bs[k]?) (block_flatten hall)
  simpa [hk] using hb

theorem length_flatten_blocks {bs : List (List α)} (h : ∀ b ∈ bs, b.length = size) :
    bs.flatten.length = bs.length * size := by
  induction bs with
  | nil => simp
  | cons b bs ih =>
    rw [List.flatten_cons, List.length_append, h b (List.mem_cons_self ..),
      ih fun b' hb' => h b' (List.mem_cons_of_mem _ hb'), List.length_cons, Nat.succ_mul,
      Nat.add_comm]

/-! ## Patterns -/

/-- A search that keeps its last hit. -/
theorem foldl_last {β : Type*} {p : Nat → Prop} [DecidablePred p] {f : Nat → β} {b : β} {n i : Nat}
    (hi : i < n) (hp : p i) (hlast : ∀ j, i < j → j < n → ¬ p j) :
    (List.range n).foldl (fun hit j => if p j then f j else hit) b = f i := by
  induction n with
  | zero => exact absurd hi (Nat.not_lt_zero i)
  | succ n ih =>
    rw [List.range_succ, List.foldl_append, List.foldl_cons, List.foldl_nil]
    by_cases hn : i = n
    · subst hn
      rw [if_pos hp]
    · rw [if_neg (hlast n (by omega) (Nat.lt_succ_self n))]
      exact ih (by omega) fun j hij hj => hlast j hij (by omega)

/-- An occurrence that is not in the first part ends in the second. -/
theorem not_infix_append {p w g : List α} {x : α} (hx : p.getLast? = some x) (hw : ¬ p <:+: w)
    (hg : x ∉ g) : ¬ p <:+: w ++ g := by
  induction g using List.reverseRecOn with
  | nil => rwa [List.append_nil]
  | append_singleton g y ih =>
    intro h
    rw [← List.append_assoc, List.infix_concat_iff] at h
    rcases h with h | h
    · obtain ⟨t, ht⟩ := h
      have hy := congrArg List.getLast? ht
      rw [List.getLast?_append, hx, List.getLast?_concat] at hy
      exact hg (by simp [Option.some.inj hy])
    · exact ih (fun hm => hg (List.mem_append_left _ hm)) h

/-- An occurrence does not start in a part without the first element of the pattern. -/
theorem infix_of_infix_append {p w g : List α} {x : α} (hx : p.head? = some x) (hw : x ∉ w)
    (h : p <:+: w ++ g) : p <:+: g := by
  induction w with
  | nil => exact h
  | cons y w ih =>
    rw [List.cons_append, List.infix_cons_iff] at h
    rcases h with h | h
    · obtain ⟨t, ht⟩ := h
      have hy := congrArg List.head? ht
      rw [List.head?_append, hx, List.head?_cons] at hy
      exact absurd (List.mem_cons.2 (Or.inl (Option.some.inj hy))) hw
    · exact ih (fun hm => hw (List.mem_cons_of_mem _ hm)) h

section
variable [DecidableEq α]

/-- The position of the first occurrence of `pattern`. -/
def indexOf (pattern : List α) : List α → Option Nat
  | [] => if pattern = [] then some 0 else none
  | x :: xs => if pattern.isPrefixOf (x :: xs) then some 0 else (indexOf pattern xs).map (· + 1)

variable {pattern : List α}

theorem indexOf_eq_zero {l : List α} (hne : pattern ≠ []) (h : pattern <+: l) :
    indexOf pattern l = some 0 := by
  cases l with
  | nil => exact absurd (List.prefix_nil.1 h) hne
  | cons x xs => rw [indexOf, if_pos (List.isPrefixOf_iff_prefix.2 h)]

theorem indexOf_eq_none {l : List α} (hne : pattern ≠ []) :
    indexOf pattern l = none ↔ ¬ pattern <:+: l := by
  induction l with
  | nil => simp [indexOf, hne]
  | cons x xs ih =>
    rw [List.infix_cons_iff, indexOf]
    by_cases hp : pattern <+: x :: xs
    · simp [List.isPrefixOf_iff_prefix.2 hp, hp]
    · have hp' : ¬ pattern.isPrefixOf (x :: xs) := fun h => hp (List.isPrefixOf_iff_prefix.1 h)
      rw [if_neg hp', Option.map_eq_none_iff, ih]
      simp [hp]

theorem prefix_of_indexOf {l : List α} {i : Nat} (h : indexOf pattern l = some i) :
    pattern <+: l.drop i := by
  induction l generalizing i with
  | nil =>
    rw [indexOf] at h
    split_ifs at h with hp
    · rw [hp]; exact List.nil_prefix
  | cons x xs ih =>
    rw [indexOf] at h
    split_ifs at h with hp
    · cases h
      exact List.isPrefixOf_iff_prefix.1 hp
    · obtain ⟨j, hj, rfl⟩ := Option.map_eq_some_iff.1 h
      exact ih hj

theorem indexOf_lt {l : List α} {i : Nat} (hne : pattern ≠ []) (h : indexOf pattern l = some i) :
    i < l.length := by
  have hp := (prefix_of_indexOf h).length_le
  have hpos := List.length_pos_iff.2 hne
  rw [List.length_drop] at hp
  omega

theorem indexOf_append {l m : List α} {i : Nat} (hne : pattern ≠ []) (h : indexOf pattern l = some i) :
    indexOf pattern (l ++ m) = some i := by
  induction l generalizing i with
  | nil => simp [indexOf, hne] at h
  | cons x xs ih =>
    rw [indexOf] at h
    rw [List.cons_append, indexOf]
    split_ifs at h with hp
    · have hpre : pattern <+: x :: (xs ++ m) :=
        (List.isPrefixOf_iff_prefix.1 hp).trans (List.prefix_append (x :: xs) m)
      rw [if_pos (List.isPrefixOf_iff_prefix.2 hpre), h]
    · obtain ⟨j, hj, rfl⟩ := Option.map_eq_some_iff.1 h
      rw [if_neg, ih hj, Option.map_some]
      -- an occurrence inside `l` lies beyond the head, so none can start there
      intro hp'
      refine hp (List.isPrefixOf_iff_prefix.2 ?_)
      refine List.prefix_of_prefix_length_le (List.isPrefixOf_iff_prefix.1 hp')
        (List.prefix_append (x :: xs) m) ?_
      have hle := (prefix_of_indexOf hj).length_le
      rw [List.length_drop] at hle
      rw [List.length_cons]
      omega

/-- Positions where the pattern does not start are skipped. -/
theorem indexOf_drop {l : List α} {n : Nat} (hn : n ≤ l.length)
    (h : ∀ j < n, ¬ pattern <+: l.drop j) :
    indexOf pattern l = (indexOf pattern (l.drop n)).map (· + n) := by
  induction n generalizing l with
  | zero => simp
  | succ n ih =>
    cases l with
    | nil => simp at hn
    | cons x xs =>
      have h0 : ¬ pattern.isPrefixOf (x :: xs) := fun hp =>
        h 0 (Nat.succ_pos n) (List.isPrefixOf_iff_prefix.1 hp)
      rw [indexOf, if_neg h0, List.drop_succ_cons,
        ih (by simpa using hn) (fun j hj => h (j + 1) (by omega)), Option.map_map]
      congr 1

end

end Slice
