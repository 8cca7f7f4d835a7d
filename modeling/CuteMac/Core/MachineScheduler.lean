/-
  The event queue of a machine (`MachineScheduler.cpp`).

  * `MachineScheduler`: the pending events in the order in which they are
    dispatched;
  * `schedule`, `advance`, `dispatchDue`;
  * `pending`: the events of one kind, with their cycles; scheduling adds one to
    them, dispatching takes some from the front.
-/
import Mathlib.Data.List.Sort
import Mathlib.Data.List.TakeWhile

namespace CuteMac.Core

variable {ε β : Type}

/-- `callback` stands for what the event does when it is due. -/
structure Event (ε : Type) where
  cycle : UInt64
  sequence : UInt64
  callback : ε

/-- Not `Later`: by cycle, and in the order of scheduling for one cycle. -/
def Event.Before (left right : Event ε) : Prop :=
  if left.cycle ≠ right.cycle then left.cycle < right.cycle else left.sequence ≤ right.sequence

instance (left right : Event ε) : Decidable (left.Before right) :=
  inferInstanceAs (Decidable (if left.cycle ≠ right.cycle then left.cycle < right.cycle
    else left.sequence ≤ right.sequence))

theorem Event.before_iff (left right : Event ε) :
    left.Before right ↔ left.cycle.toNat < right.cycle.toNat ∨
      left.cycle.toNat = right.cycle.toNat ∧ left.sequence.toNat ≤ right.sequence.toNat := by
  unfold Event.Before
  split
  · rename_i h
    rw [UInt64.lt_iff_toNat_lt]
    have : left.cycle.toNat ≠ right.cycle.toNat := fun h' => h (UInt64.toNat_inj.1 h')
    omega
  · rename_i h
    rw [UInt64.le_iff_toNat_le]
    have : left.cycle.toNat = right.cycle.toNat := by rw [not_not.1 h]
    omega

instance : Std.Total (Event.Before (ε := ε)) := ⟨by
  intro left right
  rw [Event.before_iff, Event.before_iff]
  omega⟩

instance : IsTrans (Event ε) Event.Before := ⟨by
  intro a b c hab hbc
  rw [Event.before_iff] at *
  omega⟩

structure MachineScheduler (ε : Type) where
  now : UInt64 := 0
  nextSequence : UInt64 := 0
  events : List (Event ε) := []
  sorted : events.Pairwise Event.Before := by exact List.Pairwise.nil

namespace MachineScheduler

def schedule (s : MachineScheduler ε) (cycle : UInt64) (callback : ε) : MachineScheduler ε where
  now := s.now
  nextSequence := s.nextSequence + 1
  events := s.events.orderedInsert Event.Before ⟨cycle, s.nextSequence, callback⟩
  sorted := s.sorted.orderedInsert _ _

/-- `advance` without its dispatch. -/
def pass (s : MachineScheduler ε) (cycles : UInt64) : MachineScheduler ε :=
  { s with now := s.now + cycles }

/-- The events that `dispatchDue` takes out of the queue, in order. -/
def due (s : MachineScheduler ε) : List (Event ε) :=
  s.events.takeWhile fun e => e.cycle ≤ s.now

/-- The queue after `dispatchDue`, if no event schedules another. -/
def dispatchDue (s : MachineScheduler ε) : MachineScheduler ε :=
  { s with
    events := s.events.dropWhile fun e => e.cycle ≤ s.now
    sorted := s.sorted.sublist (List.dropWhile_sublist _) }

/-! ## The events of one kind -/

variable (select : ε → Option β)

/-- The selected events of a list, with their cycles. -/
def selected (events : List (Event ε)) : List (UInt64 × β) :=
  events.filterMap fun e => (select e.callback).map (e.cycle, ·)

def pending (s : MachineScheduler ε) : List (UInt64 × β) := selected select s.events

theorem selected_append (es fs : List (Event ε)) :
    selected select (es ++ fs) = selected select es ++ selected select fs :=
  List.filterMap_append

theorem selected_sorted {events : List (Event ε)} (h : events.Pairwise Event.Before) :
    (selected select events).Pairwise fun p q => p.1 ≤ q.1 := by
  refine List.Pairwise.filterMap _ ?_ h
  intro e f hef p hp q hq
  obtain ⟨b, -, rfl⟩ := Option.map_eq_some_iff.1 hp
  obtain ⟨c, -, rfl⟩ := Option.map_eq_some_iff.1 hq
  rw [UInt64.le_iff_toNat_le]
  rw [Event.before_iff] at hef
  show e.cycle.toNat ≤ f.cycle.toNat
  omega

/-- The event is put somewhere into the queue. -/
theorem schedule_events (s : MachineScheduler ε) (cycle : UInt64) (callback : ε) :
    ∃ before after, s.events = before ++ after ∧
      (s.schedule cycle callback).events = before ++ ⟨cycle, s.nextSequence, callback⟩ :: after :=
  ⟨_, _, List.takeWhile_append_dropWhile.symm, List.orderedInsert_eq_take_drop _ _ _⟩

/-- An event of another kind is not among them. -/
theorem pending_schedule_none {s : MachineScheduler ε} {cycle : UInt64} {callback : ε}
    (h : select callback = none) :
    (s.schedule cycle callback).pending select = s.pending select := by
  obtain ⟨before, after, he, he'⟩ := s.schedule_events cycle callback
  rw [pending, pending, he, he', selected_append, selected_append]
  simp [selected, h]

/-- An event of the kind is put before those that are due later. -/
theorem pending_schedule_some (s : MachineScheduler ε) (cycle : UInt64) {callback : ε} {b : β}
    (h : select callback = some b) :
    ∃ before after, s.pending select = before ++ after ∧
      (s.schedule cycle callback).pending select = before ++ (cycle, b) :: after ∧
      ∀ q ∈ after, cycle ≤ q.1 := by
  obtain ⟨before, after, he, he'⟩ := s.schedule_events cycle callback
  have hp : (s.schedule cycle callback).pending select =
      selected select before ++ (cycle, b) :: selected select after := by
    rw [pending, he', selected_append]
    simp [selected, h]
  refine ⟨selected select before, selected select after, by rw [pending, he, selected_append], hp,
    ?_⟩
  have hsorted := selected_sorted select (s.schedule cycle callback).sorted
  rw [← pending, hp] at hsorted
  exact (List.pairwise_cons.1 (List.pairwise_append.1 hsorted).2.1).1

/-- What is due comes first, and is dispatched no sooner than its cycle. -/
theorem pending_dispatchDue (s : MachineScheduler ε) :
    s.pending select = selected select s.due ++ s.dispatchDue.pending select := by
  rw [pending, pending, ← selected_append]
  exact congrArg _ List.takeWhile_append_dropWhile.symm

theorem cycle_le_of_mem_due {s : MachineScheduler ε} {e : Event ε} (h : e ∈ s.due) :
    e.cycle ≤ s.now := by
  simpa using List.mem_takeWhile_imp h

end MachineScheduler

end CuteMac.Core
