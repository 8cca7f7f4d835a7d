/-
  The geometry of 400K and 800K disks.

  * `sectorsForTrack`: the outer tracks have more sectors;
  * `firstBlockForTrack`: the block where a track of a side starts;
  * `interleavedSectorOrder`: the order of the sectors on a track.
-/
import Mathlib.Data.List.Basic

namespace CuteMac.Floppy

def tracksPerSide : Nat := 80
def raw400KBytes : Nat := 400 * 1024
def raw800KBytes : Nat := 800 * 1024
def raw1440KBytes : Nat := 1440 * 1024

def sectorsForTrack (track : Nat) : Nat :=
  if track < 16 then 12
  else if track < 32 then 11
  else if track < 48 then 10
  else if track < 64 then 9
  else 8

def firstBlockForTrack (track side : Nat) (doubleSided : Bool) : Nat :=
  let heads := if doubleSided then 2 else 1
  let block := (List.range track).foldl (fun block t => block + sectorsForTrack t * heads) 0
  block + if doubleSided then side * sectorsForTrack track else 0

/-- The loop fills every second slot, and the free ones in a second round. -/
def interleavedSectorOrder (sectorsOnTrack : Nat) : List Nat :=
  ((List.range sectorsOnTrack).foldl (fun (order, slot) logicalSector =>
    let next := (slot + 2) % sectorsOnTrack
    (order.set slot logicalSector, if next = 0 then next + 1 else next))
    (List.replicate sectorsOnTrack 0, 0)).1

theorem sectorsForTrack_mem (track : Nat) : sectorsForTrack track ∈ [8, 9, 10, 11, 12] := by
  unfold sectorsForTrack
  split
  · simp
  · split
    · simp
    · split
      · simp
      · split <;> simp

/-- Every sector stands once on the track. -/
theorem interleavedSectorOrder_perm (track : Nat) :
    (interleavedSectorOrder (sectorsForTrack track)).Perm (List.range (sectorsForTrack track)) := by
  have h : ∀ n ∈ [8, 9, 10, 11, 12], (interleavedSectorOrder n).Perm (List.range n) := by decide
  exact h _ (sectorsForTrack_mem track)

theorem mem_interleavedSectorOrder {track k : Nat} :
    k ∈ interleavedSectorOrder (sectorsForTrack track) ↔ k < sectorsForTrack track := by
  rw [(interleavedSectorOrder_perm track).mem_iff, List.mem_range]

/-- The sectors of every track lie on the disk. -/
theorem firstBlockForTrack_le (doubleSided : Bool) {track side : Nat} (ht : track < tracksPerSide)
    (hs : side < if doubleSided then 2 else 1) :
    firstBlockForTrack track side doubleSided + sectorsForTrack track ≤
      if doubleSided then 1600 else 800 := by
  cases doubleSided with
  | false =>
    have h : ∀ track < tracksPerSide,
        firstBlockForTrack track 0 false + sectorsForTrack track ≤ 800 := by decide +kernel
    obtain rfl : side = 0 := Nat.lt_one_iff.1 hs
    exact h track ht
  | true =>
    have h : ∀ track < tracksPerSide, ∀ side < 2,
        firstBlockForTrack track side true + sectorsForTrack track ≤ 1600 := by decide +kernel
    exact h track ht side hs

end CuteMac.Floppy
