/-
  Several slices of a list are overwritten, one after the other.

  * `overwrites`: the slices are overwritten, in order;
  * `getElem?_overwrites`: every place holds what was written there last;
  * `Agree`: two writes put the same elements where they meet;
  * `present_iff`: everything written is there in the end exactly if the writes agree.
-/
import CuteMac.Lib.Slice
import CuteMac.Lib.WriteLog

namespace Overwrites

open Slice WriteLog

variable {α : Type*} {l : List α} {ws : List (Nat × List α)} {w : Nat × List α}

/-- The slices from `w.1` on are replaced by `w.2`, in order. -/
def overwrites (l : List α) (ws : List (Nat × List α)) : List α :=
  ws.foldl (fun l w => overwrite l w.1 w.2) l

def Inside (l : List α) (w : Nat × List α) : Prop := w.1 + w.2.length ≤ l.length

/-- What the write puts into the list is there. -/
def Present (l : List α) (w : Nat × List α) : Prop := mid l w.1 w.2.length = w.2

/-- The two writes put the same elements where they meet. -/
def Agree (w w' : Nat × List α) : Prop :=
  ∀ i x y, cellAt w i = some x → cellAt w' i = some y → x = y

theorem Agree.refl (w : Nat × List α) : Agree w w := by
  intro i x y hx hy
  rw [hx] at hy
  exact Option.some.inj hy

theorem agree_of_disjoint {w' : Nat × List α}
    (h : w.1 + w.2.length ≤ w'.1 ∨ w'.1 + w'.2.length ≤ w.1) : Agree w w' := by
  intro i x y hx hy
  obtain ⟨j, hj, rfl⟩ := cellAt_eq_some.1 hx
  obtain ⟨k, hk, hjk⟩ := cellAt_eq_some.1 hy
  have := (List.getElem?_eq_some_iff.1 hj).1
  have := (List.getElem?_eq_some_iff.1 hk).1
  omega

/-! ## What is left behind -/

theorem length_overwrites (h : ∀ w ∈ ws, Inside l w) : (overwrites l ws).length = l.length := by
  induction ws generalizing l with
  | nil => rfl
  | cons w ws ih =>
    obtain ⟨hw, hws⟩ := List.forall_mem_cons.1 h
    have hlen := length_overwrite hw
    refine (ih fun v hv => ?_).trans hlen
    unfold Inside
    rw [hlen]
    exact hws v hv

theorem getElem?_overwrite_eq (h : Inside l w) (i : Nat) :
    (overwrite l w.1 w.2)[i]? = (cellAt w i).or l[i]? := by
  rw [getElem?_overwrite h, cellAt]
  by_cases hi : w.1 ≤ i
  · rw [if_pos hi]
    by_cases hj : i < w.1 + w.2.length
    · rw [if_pos ⟨hi, hj⟩, List.getElem?_eq_getElem (by omega), Option.some_or]
    · rw [if_neg fun h => hj h.2,
        List.getElem?_eq_none (show w.2.length ≤ i - w.1 by omega), Option.none_or]
  · rw [if_neg fun h => hi h.1, if_neg hi, Option.none_or]

theorem getElem?_overwrites (h : ∀ w ∈ ws, Inside l w) (i : Nat) :
    (overwrites l ws)[i]? = (lastWritten i ws).or l[i]? := by
  induction ws generalizing l with
  | nil => rfl
  | cons w ws ih =>
    obtain ⟨hw, hws⟩ := List.forall_mem_cons.1 h
    have hws' : ∀ v ∈ ws, Inside (overwrite l w.1 w.2) v := by
      intro v hv
      unfold Inside
      rw [length_overwrite hw]
      exact hws v hv
    rw [lastWritten, Option.or_assoc, ← getElem?_overwrite_eq hw]
    exact ih hws'

/-! ## What is still there -/

theorem present_of_cells (h : ∀ i x, cellAt w i = some x → l[i]? = some x) : Present l w := by
  apply List.ext_getElem?
  intro j
  rw [getElem?_mid]
  by_cases hj : j < w.2.length
  · rw [if_pos hj]
    have hx := List.getElem?_eq_getElem hj
    rw [h _ _ (cellAt_eq_some.2 ⟨j, hx, rfl⟩), hx]
  · rw [if_neg hj, List.getElem?_eq_none (by omega)]

theorem Present.cells (h : Present l w) {i : Nat} {x : α} (hx : cellAt w i = some x) :
    l[i]? = some x := by
  obtain ⟨j, hj, rfl⟩ := cellAt_eq_some.1 hx
  have hlt : j < w.2.length := (List.getElem?_eq_some_iff.1 hj).1
  rw [← h, getElem?_mid, if_pos hlt] at hj
  exact hj

/-- Where a place is written at all, one of the writes is there in the end. -/
theorem present_iff (h : ∀ w ∈ ws, Inside l w) :
    (∀ w ∈ ws, Present (overwrites l ws) w) ↔ ∀ w ∈ ws, ∀ w' ∈ ws, Agree w w' := by
  constructor
  · intro hp w hw w' hw' i x y hx hy
    have hl := (hp w hw).cells hx
    rw [(hp w' hw').cells hy] at hl
    exact (Option.some.inj hl).symm
  · intro ha w hw
    refine present_of_cells fun i x hx => ?_
    rw [getElem?_overwrites h]
    rcases hlast : lastWritten i ws with _ | y
    · rw [lastWritten_eq_none.1 hlast w hw] at hx
      exact absurd hx (by simp)
    · obtain ⟨w', hw', hy⟩ := exists_of_lastWritten hlast
      rw [ha w hw w' hw' i x y hx hy, Option.some_or]

end Overwrites
