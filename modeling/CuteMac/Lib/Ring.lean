/-
  Ring buffers.

  * `contents`: some cells from a place on, around the end of the ring;
  * `contents_push`, `contents_pop`: a queue that fits in the ring;
  * `contents_overwrite`: one that does not.
-/
import Mathlib.Data.List.Range
import Mathlib.Data.Nat.ModEq
import Mathlib.Logic.Function.Basic

namespace Ring

variable {α : Type*} {size start count : Nat} {cells : Nat → α}

/-- The `count` cells from `start` on. -/
def contents (size : Nat) (cells : Nat → α) (start count : Nat) : List α :=
  (List.range count).map fun i => cells ((start + i) % size)

@[simp] theorem contents_zero : contents size cells start 0 = [] := rfl

@[simp] theorem length_contents : (contents size cells start count).length = count := by
  simp [contents]

/-- The places of a ring are apart. -/
theorem place_inj {i j : Nat} (hi : i < size) (hj : j < size) :
    (start + i) % size = (start + j) % size ↔ i = j := by
  constructor
  · intro h
    have hmod : i % size = j % size := Nat.ModEq.add_left_cancel' start h
    rwa [Nat.mod_eq_of_lt hi, Nat.mod_eq_of_lt hj] at hmod
  · rintro rfl
    rfl

/-- The new cell comes last. -/
theorem contents_push (h : count < size) (x : α) :
    contents size (Function.update cells ((start + count) % size) x) start (count + 1)
      = contents size cells start count ++ [x] := by
  unfold contents
  rw [List.range_succ, List.map_append, List.map_singleton, Function.update_self]
  congr 1
  refine List.map_congr_left fun i hi => ?_
  have hi := List.mem_range.1 hi
  refine Function.update_of_ne (fun he => ?_) _ _
  exact hi.ne ((place_inj (by omega) h).1 he)

/-- The oldest cell comes first. -/
theorem contents_pop :
    contents size cells start (count + 1)
      = cells (start % size) :: contents size cells ((start + 1) % size) count := by
  unfold contents
  rw [List.range_succ_eq_map, List.map_cons, List.map_map, Nat.add_zero]
  congr 1
  refine List.map_congr_left fun i _ => ?_
  rw [Function.comp_apply, Nat.mod_add_mod, Nat.succ_eq_add_one, Nat.add_right_comm, Nat.add_assoc]

/-- A cell that is written over in a full ring is the oldest one. -/
theorem contents_overwrite (h : 0 < size) (x : α) :
    contents size (Function.update cells (start % size) x) start size
      = x :: (contents size cells start size).tail := by
  obtain ⟨n, rfl⟩ : ∃ n, size = n + 1 := ⟨size - 1, by omega⟩
  rw [contents_pop, contents_pop, Function.update_self, List.tail_cons]
  congr 1
  refine List.map_congr_left fun i hi => ?_
  have hi := List.mem_range.1 hi
  rw [Nat.mod_add_mod, Nat.add_assoc]
  refine Function.update_of_ne (fun he => ?_) _ _
  have hplace := (place_inj (show 1 + i < n + 1 by omega) h).1 he
  omega

end Ring
