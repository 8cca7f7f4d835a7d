/-
  The dispatch of events that schedule others (`MachineScheduler.cpp`).

  * `Callback`: what an event schedules when it is run, finitely much in all;
  * `Session`: the scheduler, with what was scheduled and what was run;
  * `dispatchDue`: the loop, which ends as every round takes an event away for good;
  * `Sound`: every event is run once, not too early, and in order;
  * `run_sound`: what holds after every sequence of calls.

  The events are numbered in the order of scheduling.  The numbers of the queue itself
  have 64 bits, and the order holds until they start again from zero.
-/
import CuteMac.Core.MachineScheduler
import CuteMac.Lib.Machine
import Mathlib.Algebra.BigOperators.Group.List.Basic
import Mathlib.Algebra.GroupWithZero.Nat

namespace CuteMac.Core

open Machine

variable {ε : Type}

/-! ## Callbacks -/

/-- An effect, and the events that are scheduled when it takes place, which may depend on the
    time. -/
inductive Callback (ε : Type) where
  | mk (effect : ε) (schedules : UInt64 → List (UInt64 × Callback ε))

namespace Callback

def schedules : Callback ε → UInt64 → List (UInt64 × Callback ε)
  | mk _ schedules => schedules

mutual

/-- The events that come of one, if they are all run at once. -/
def size (now : UInt64) : Callback ε → Nat
  | mk _ schedules => sizes now (schedules now) + 1

def sizes (now : UInt64) : List (UInt64 × Callback ε) → Nat
  | [] => 0
  | (_, callback) :: callbacks => size now callback + sizes now callbacks

end

theorem size_eq (now : UInt64) (callback : Callback ε) :
    callback.size now = sizes now (callback.schedules now) + 1 := by
  cases callback with
  | mk effect schedules => rw [size, Callback.schedules]

end Callback

/-! ## Sessions -/

/-- The first event is taken out of the queue. -/
def MachineScheduler.pop (s : MachineScheduler ε) : MachineScheduler ε :=
  { s with events := s.events.tail, sorted := s.sorted.tail }

/-- An event that was run, when it was, and the others that were pending. -/
structure Ran (ε : Type) where
  event : Event (Nat × Callback ε)
  now : UInt64
  pending : List (Event (Nat × Callback ε))

structure Session (ε : Type) where
  scheduler : MachineScheduler (Nat × Callback ε) := {}
  scheduled : List (UInt64 × Callback ε) := []
  ran : List (Ran ε) := []

namespace Session

def schedule (s : Session ε) (cycle : UInt64) (callback : Callback ε) : Session ε :=
  { s with
    scheduler := s.scheduler.schedule cycle (s.scheduled.length, callback)
    scheduled := s.scheduled ++ [(cycle, callback)] }

def scheduleAll (s : Session ε) (callbacks : List (UInt64 × Callback ε)) : Session ε :=
  callbacks.foldl (fun s p => s.schedule p.1 p.2) s

/-- The first event leaves the queue. -/
def pop (s : Session ε) (event : Event (Nat × Callback ε)) : Session ε :=
  { s with
    scheduler := s.scheduler.pop
    ran := s.ran ++ [⟨event, s.scheduler.now, s.scheduler.events.tail⟩] }

/-- The first event leaves the queue, and its callback schedules others. -/
def runEvent (s : Session ε) (event : Event (Nat × Callback ε)) : Session ε :=
  (s.pop event).scheduleAll (event.callback.2.schedules s.scheduler.now)

/-- The events that come of those in the queue, if they are all run at once. -/
def load (s : Session ε) : Nat :=
  (s.scheduler.events.map fun e => e.callback.2.size s.scheduler.now).sum

theorem load_schedule (s : Session ε) (cycle : UInt64) (callback : Callback ε) :
    (s.schedule cycle callback).load = callback.size s.scheduler.now + s.load := by
  have hperm := List.perm_orderedInsert Event.Before
    ⟨cycle, s.scheduler.nextSequence, (s.scheduled.length, callback)⟩ s.scheduler.events
  have hsum := (hperm.map fun e => e.callback.2.size s.scheduler.now).sum_eq
  rw [List.map_cons, List.sum_cons] at hsum
  exact hsum

theorem scheduleAll_now (s : Session ε) (callbacks : List (UInt64 × Callback ε)) :
    (s.scheduleAll callbacks).scheduler.now = s.scheduler.now := by
  induction callbacks generalizing s with
  | nil => rfl
  | cons p callbacks ih => exact ih (s.schedule p.1 p.2)

theorem load_scheduleAll (s : Session ε) (callbacks : List (UInt64 × Callback ε)) :
    (s.scheduleAll callbacks).load = Callback.sizes s.scheduler.now callbacks + s.load := by
  induction callbacks generalizing s with
  | nil => rw [Callback.sizes, Nat.zero_add]; rfl
  | cons p callbacks ih =>
    have hstep := ih (s.schedule p.1 p.2)
    rw [load_schedule] at hstep
    rw [Callback.sizes]
    show ((s.schedule p.1 p.2).scheduleAll callbacks).load = _
    rw [hstep, Nat.add_left_comm, ← Nat.add_assoc]
    rfl

/-- Every round takes an event away for good. -/
theorem load_runEvent {s : Session ε} {event : Event (Nat × Callback ε)}
    {rest : List (Event (Nat × Callback ε))} (h : s.scheduler.events = event :: rest) :
    (s.runEvent event).load < s.load := by
  have hload : s.load = event.callback.2.size s.scheduler.now + (s.pop event).load := by
    unfold load
    rw [h, List.map_cons, List.sum_cons]
    show _ = _ + ((s.scheduler.events.tail).map fun e => e.callback.2.size s.scheduler.now).sum
    rw [h]
    rfl
  have hnow : (s.pop event).scheduler.now = s.scheduler.now := rfl
  rw [runEvent, load_scheduleAll, hload, Callback.size_eq, hnow]
  omega

/-- The loop of `dispatchDue`. -/
def dispatchDue (s : Session ε) : Session ε :=
  match _h : s.scheduler.events with
  | [] => s
  | event :: _ => if event.cycle ≤ s.scheduler.now then dispatchDue (s.runEvent event) else s
termination_by s.load
decreasing_by exact load_runEvent _h

def advance (s : Session ε) (cycles : UInt64) : Session ε :=
  dispatchDue { s with scheduler := s.scheduler.pass cycles }

inductive Op (ε : Type) where
  | schedule (cycle : UInt64) (callback : Callback ε)
  | advance (cycles : UInt64)
  | dispatchDue

def step (s : Session ε) : Op ε → Session ε
  | .schedule cycle callback => s.schedule cycle callback
  | .advance cycles => s.advance cycles
  | .dispatchDue => s.dispatchDue

/-! ## What holds through a session -/

/-- The cycle, the callback and the number of an event. -/
def record (event : Event (Nat × Callback ε)) : (UInt64 × Callback ε) × Nat :=
  ((event.cycle, event.callback.2), event.callback.1)

/-- The order in which events are run: by cycle, and in the order of scheduling for one cycle. -/
def Earlier (left right : Event (Nat × Callback ε)) : Prop :=
  left.cycle < right.cycle ∨ left.cycle = right.cycle ∧ left.callback.1 < right.callback.1

/-- Every event is run once or pending, and none is run too early; the one that is run is the
    least that is pending, and events of one cycle are run in the order of scheduling, as long as
    the numbers of the queue do not start again. -/
structure Sound (s : Session ε) : Prop where
  once : (s.ran.map (fun r => record r.event) ++ s.scheduler.events.map record).Perm
    s.scheduled.zipIdx
  due : ∀ r ∈ s.ran, r.event.cycle ≤ r.now
  least : s.scheduled.length ≤ 2 ^ 64 → ∀ r ∈ s.ran, ∀ e ∈ r.pending, Earlier r.event e
  inOrder : s.scheduled.length ≤ 2 ^ 64 → ∀ before r, before ++ [r] <+: s.ran →
    ∀ callback number, ((r.event.cycle, callback), number) ∈ s.scheduled.zipIdx →
      number < r.event.callback.1 →
        ∃ r' ∈ before, record r'.event = ((r.event.cycle, callback), number)

/-- The numbers of the queue are those of the events, in 64 bits. -/
structure Numbered (s : Session ε) : Prop where
  next : s.scheduler.nextSequence = UInt64.ofNat s.scheduled.length
  sequence : ∀ e ∈ s.scheduler.events, e.sequence = UInt64.ofNat e.callback.1

section
variable {s : Session ε}

theorem Sound.number_lt (h : Sound s) {e : Event (Nat × Callback ε)}
    (he : e ∈ s.scheduler.events ∨ ∃ r ∈ s.ran, r.event = e) : e.callback.1 < s.scheduled.length := by
  have hmem : record e ∈ s.scheduled.zipIdx := by
    refine h.once.mem_iff.1 (List.mem_append.2 ?_)
    rcases he with he | ⟨r, hr, rfl⟩
    · exact Or.inr (List.mem_map_of_mem he)
    · exact Or.inl (List.mem_map.2 ⟨r, hr, rfl⟩)
  have hlt := (List.mem_zipIdx hmem).2.1
  rwa [Nat.zero_add] at hlt

theorem mem_schedule {cycle : UInt64} {callback : Callback ε} {e : Event (Nat × Callback ε)} :
    e ∈ (s.schedule cycle callback).scheduler.events ↔
      e = ⟨cycle, s.scheduler.nextSequence, (s.scheduled.length, callback)⟩ ∨
        e ∈ s.scheduler.events :=
  List.mem_orderedInsert _

theorem numbered_schedule (h : Numbered s) (cycle : UInt64) (callback : Callback ε) :
    Numbered (s.schedule cycle callback) where
  next := by
    show s.scheduler.nextSequence + 1 = UInt64.ofNat (s.scheduled ++ [(cycle, callback)]).length
    rw [h.next, List.length_append, List.length_singleton, UInt64.ofNat_add]
    rfl
  sequence e he := by
    rcases mem_schedule.1 he with rfl | he
    · exact h.next
    · exact h.sequence e he

theorem sound_schedule (h : Sound s) (cycle : UInt64) (callback : Callback ε) :
    Sound (s.schedule cycle callback) := by
  have hzip : (s.schedule cycle callback).scheduled.zipIdx =
      s.scheduled.zipIdx ++ [((cycle, callback), s.scheduled.length)] := by
    show (s.scheduled ++ [(cycle, callback)]).zipIdx = _
    rw [List.zipIdx_append, List.zipIdx_singleton, Nat.zero_add]
  have hlength : (s.schedule cycle callback).scheduled.length = s.scheduled.length + 1 :=
    List.length_append
  refine ⟨?_, h.due, fun hle => h.least (by omega),
    fun hle before r hr callback' number hmem hlt => ?_⟩
  · have hperm := (List.perm_orderedInsert Event.Before
      ⟨cycle, s.scheduler.nextSequence, (s.scheduled.length, callback)⟩ s.scheduler.events).map record
    rw [hzip]
    refine (hperm.append_left _).trans (List.perm_middle.trans ?_)
    exact (h.once.cons _).trans (List.perm_append_singleton _ _).symm
  · -- the new event has the last number
    have hrlt := h.number_lt (.inr ⟨r, hr.subset (by simp), rfl⟩)
    rw [hzip, List.mem_append, List.mem_singleton] at hmem
    rcases hmem with hmem | hnew
    · exact h.inOrder (by omega) before r hr callback' number hmem hlt
    · cases hnew
      omega

theorem scheduleAll_inv (h : Sound s ∧ Numbered s) (callbacks : List (UInt64 × Callback ε)) :
    Sound (s.scheduleAll callbacks) ∧ Numbered (s.scheduleAll callbacks) := by
  induction callbacks generalizing s with
  | nil => exact h
  | cons p callbacks ih => exact ih ⟨sound_schedule h.1 p.1 p.2, numbered_schedule h.2 p.1 p.2⟩

variable {event : Event (Nat × Callback ε)} {rest : List (Event (Nat × Callback ε))}

theorem numbered_pop (h : Numbered s) : Numbered (s.pop event) where
  next := h.next
  sequence e he := h.sequence e (List.mem_of_mem_tail he)

/-- The first event is the least one. -/
theorem earlier_of_head (h : Sound s) (hn : Numbered s)
    (hevents : s.scheduler.events = event :: rest) (hle : s.scheduled.length ≤ 2 ^ 64) :
    ∀ e ∈ rest, Earlier event e := by
  intro e he
  have hmem : event ∈ s.scheduler.events := by rw [hevents]; exact List.mem_cons_self ..
  have hemem : e ∈ s.scheduler.events := by rw [hevents]; exact List.mem_cons_of_mem _ he
  have hsorted := s.scheduler.sorted
  rw [hevents, List.pairwise_cons] at hsorted
  have hbefore := (Event.before_iff event e).1 (hsorted.1 e he)
  rw [hn.sequence _ hmem, hn.sequence _ hemem,
    UInt64.toNat_ofNat_of_lt' (lt_of_lt_of_le (h.number_lt (.inl hmem)) hle),
    UInt64.toNat_ofNat_of_lt' (lt_of_lt_of_le (h.number_lt (.inl hemem)) hle)] at hbefore
  -- no two events have one number
  have hdistinct : event.callback.1 ≠ e.callback.1 := by
    have hnodup : ((s.ran.map (fun r => record r.event) ++ s.scheduler.events.map record).map
        Prod.snd).Nodup := by
      rw [(h.once.map Prod.snd).nodup_iff, List.zipIdx_map_snd]
      exact List.nodup_range'
    rw [hevents, List.map_append, List.nodup_append, List.map_cons, List.map_cons,
      List.nodup_cons] at hnodup
    intro he'
    exact hnodup.2.1.1 (List.mem_map.2 ⟨record e, List.mem_map_of_mem he, he'.symm⟩)
  rcases hbefore with hlt | ⟨heq, hnumber⟩
  · exact Or.inl (UInt64.lt_iff_toNat_lt.2 hlt)
  · exact Or.inr ⟨UInt64.toNat_inj.1 heq, lt_of_le_of_ne hnumber hdistinct⟩

theorem sound_pop (h : Sound s) (hn : Numbered s) (hevents : s.scheduler.events = event :: rest)
    (hdue : event.cycle ≤ s.scheduler.now) : Sound (s.pop event) := by
  have htail : (s.pop event).scheduler.events = rest := by
    show s.scheduler.events.tail = rest
    rw [hevents, List.tail_cons]
  have hran : (s.pop event).ran = s.ran ++ [⟨event, s.scheduler.now, rest⟩] := by
    show s.ran ++ [⟨event, s.scheduler.now, s.scheduler.events.tail⟩] = _
    rw [hevents, List.tail_cons]
  have honce := h.once
  rw [hevents, List.map_cons] at honce
  refine ⟨?_, ?_, ?_, ?_⟩
  · rw [hran, htail, List.map_append, List.append_assoc]
    exact honce
  · rw [hran]
    intro r hr
    rcases List.mem_append.1 hr with hr | hr
    · exact h.due r hr
    · rw [List.mem_singleton] at hr
      rw [hr]
      exact hdue
  · rw [hran]
    intro hle r hr
    rcases List.mem_append.1 hr with hr | hr
    · exact h.least hle r hr
    · rw [List.mem_singleton] at hr
      rw [hr]
      exact earlier_of_head h hn hevents hle
  · rw [hran]
    intro hle before r hr callback number hmem hlt
    rcases List.prefix_concat_iff.1 hr with heq | hr
    · obtain ⟨hbefore, hlast⟩ := List.append_inj' heq rfl
      rw [hbefore]
      cases List.singleton_inj.1 hlast
      have hlt : number < event.callback.1 := hlt
      -- an earlier number for the same cycle is not pending any more
      rcases List.mem_append.1 (honce.mem_iff.2 hmem) with hran | hpending
      · obtain ⟨r', hr', he'⟩ := List.mem_map.1 hran
        exact ⟨r', hr', he'⟩
      · rcases List.mem_cons.1 hpending with hself | hpending
        · have hnumber := congrArg Prod.snd hself
          exact absurd hnumber hlt.ne
        · obtain ⟨e, he, he'⟩ := List.mem_map.1 hpending
          have hcycle : e.cycle = event.cycle := congrArg (fun p => p.1.1) he'
          have hnumber : e.callback.1 = number := congrArg Prod.snd he'
          rcases earlier_of_head h hn hevents hle e he with hearlier | ⟨-, hearlier⟩
          · rw [hcycle] at hearlier
            exact absurd hearlier (UInt64.lt_irrefl _)
          · omega
    · exact h.inOrder hle before r hr callback number hmem hlt

/-- Nothing that is pending is due. -/
def Punctual (s : Session ε) : Prop := ∀ e ∈ s.scheduler.events, s.scheduler.now < e.cycle

theorem dispatchDue_nil (h : s.scheduler.events = []) : s.dispatchDue = s := by
  rw [dispatchDue, h]

theorem dispatchDue_due (h : s.scheduler.events = event :: rest)
    (hdue : event.cycle ≤ s.scheduler.now) : s.dispatchDue = (s.runEvent event).dispatchDue := by
  rw [dispatchDue, h]
  exact if_pos hdue

theorem dispatchDue_later (h : s.scheduler.events = event :: rest)
    (hdue : ¬ event.cycle ≤ s.scheduler.now) : s.dispatchDue = s := by
  rw [dispatchDue, h]
  exact if_neg hdue

theorem dispatchDue_inv (h : Sound s ∧ Numbered s) :
    (Sound s.dispatchDue ∧ Numbered s.dispatchDue) ∧ Punctual s.dispatchDue := by
  induction s using dispatchDue.induct with
  | case1 s hevents =>
    rw [dispatchDue_nil hevents]
    refine ⟨h, fun e he => ?_⟩
    rw [hevents] at he
    cases he
  | case2 s event rest hevents hdue ih =>
    rw [dispatchDue_due hevents hdue]
    exact ih (scheduleAll_inv ⟨sound_pop h.1 h.2 hevents hdue, numbered_pop h.2⟩ _)
  | case3 s event rest hevents hdue =>
    rw [dispatchDue_later hevents hdue]
    refine ⟨h, fun e he => ?_⟩
    have hsorted := s.scheduler.sorted
    rw [hevents, List.pairwise_cons] at hsorted
    rw [hevents] at he
    rw [UInt64.le_iff_toNat_le] at hdue
    rw [UInt64.lt_iff_toNat_lt]
    rcases List.mem_cons.1 he with rfl | he
    · omega
    · have hbefore := (Event.before_iff event e).1 (hsorted.1 e he)
      omega

theorem sound_pass (h : Sound s) (cycles : UInt64) :
    Sound { s with scheduler := s.scheduler.pass cycles } := ⟨h.once, h.due, h.least, h.inOrder⟩

theorem advance_inv (h : Sound s ∧ Numbered s) (cycles : UInt64) :
    (Sound (s.advance cycles) ∧ Numbered (s.advance cycles)) ∧ Punctual (s.advance cycles) :=
  dispatchDue_inv ⟨sound_pass h.1 cycles, h.2.next, h.2.sequence⟩

theorem step_inv (h : Sound s ∧ Numbered s) (op : Op ε) :
    Sound (s.step op) ∧ Numbered (s.step op) := by
  cases op with
  | schedule cycle callback =>
    exact ⟨sound_schedule h.1 cycle callback, numbered_schedule h.2 cycle callback⟩
  | advance cycles => exact (advance_inv h cycles).1
  | dispatchDue => exact (dispatchDue_inv h).1

end

/-- After every sequence of calls the session is sound, and a dispatch leaves nothing behind that
    is due. -/
theorem run_sound (ops : List (Op ε)) :
    Sound (run step {} ops) ∧ Punctual (run step {} ops).dispatchDue ∧
      ∀ cycles, Punctual ((run step {} ops).advance cycles) := by
  have hstart : Sound (ε := ε) {} ∧ Numbered (ε := ε) {} := by
    refine ⟨⟨.nil, ?_, ?_, ?_⟩, rfl, ?_⟩
    · exact fun r hr => by cases hr
    · exact fun _ r hr => by cases hr
    · exact fun _ before r hr => by simp at hr
    · exact fun e he => by cases he
  have hrun := run_inv (I := fun s => Sound s ∧ Numbered s) (fun _ op h => step_inv h op) hstart ops
  exact ⟨hrun.1, (dispatchDue_inv hrun).2, fun cycles => (advance_inv hrun cycles).2⟩

/-! ## Where the numbers start again -/

theorem mem_ran_dispatchDue {s : Session ε} {r : Ran ε} (h : r ∈ s.ran) : r ∈ s.dispatchDue.ran := by
  have hschedule : ∀ (callbacks : List (UInt64 × Callback ε)) (s : Session ε),
      (s.scheduleAll callbacks).ran = s.ran := by
    intro callbacks
    induction callbacks with
    | nil => exact fun s => rfl
    | cons p callbacks ih => exact fun s => ih (s.schedule p.1 p.2)
  induction s using dispatchDue.induct with
  | case1 s hevents => rwa [dispatchDue_nil hevents]
  | case2 s event rest hevents hdue ih =>
    rw [dispatchDue_due hevents hdue]
    refine ih ?_
    rw [runEvent, hschedule]
    exact List.mem_append_left _ h
  | case3 s event rest hevents hdue => rwa [dispatchDue_later hevents hdue]

/-- An event that schedules no other. -/
def leaf : Callback Unit := .mk () fun _ => []

theorem run_schedules (n : Nat) :
    (∀ e ∈ (run step {} (List.replicate n (.schedule 2 leaf))).scheduler.events, e.cycle = 2) ∧
      (run step {} (List.replicate n (.schedule 2 leaf))).scheduler.nextSequence = UInt64.ofNat n ∧
      (run step {} (List.replicate n (.schedule 2 leaf))).scheduler.now = 0 ∧
      (run step {} (List.replicate n (.schedule 2 leaf))).scheduled.length = n := by
  induction n with
  | zero => exact ⟨fun e he => (by cases he), rfl, rfl, rfl⟩
  | succ n ih =>
    rw [List.replicate_succ', run_append]
    generalize run step {} (List.replicate n (.schedule 2 leaf)) = s at ih ⊢
    obtain ⟨hcycles, hnext, hnow, hlength⟩ := ih
    refine ⟨fun e he => ?_, ?_, hnow, ?_⟩
    · rcases mem_schedule.1 he with rfl | he
      · rfl
      · exact hcycles e he
    · show s.scheduler.nextSequence + 1 = _
      rw [hnext, UInt64.ofNat_add]
      rfl
    · show (s.scheduled ++ [_]).length = n + 1
      rw [List.length_append, hlength, List.length_singleton]

/-- An event that comes before all others is put first. -/
theorem schedule_first (s : Session ε) (cycle : UInt64) (callback : Callback ε)
    (h : ∀ e ∈ s.scheduler.events,
      Event.Before ⟨cycle, s.scheduler.nextSequence, (s.scheduled.length, callback)⟩ e) :
    (s.schedule cycle callback).scheduler.events =
      ⟨cycle, s.scheduler.nextSequence, (s.scheduled.length, callback)⟩ :: s.scheduler.events := by
  show s.scheduler.events.orderedInsert _ _ = _
  cases hevents : s.scheduler.events with
  | nil => rfl
  | cons e rest =>
    rw [hevents] at h
    exact List.orderedInsert_cons_of_le _ _ (h e (List.mem_cons_self ..))

/-- The last number of 64 bits, and the first one again, for one cycle. -/
theorem order_wraps :
    ¬ ∀ ops : List (Op Unit), ∀ r ∈ (run step {} ops).ran, ∀ e ∈ r.pending, Earlier r.event e := by
  intro h
  obtain ⟨n, hn⟩ : ∃ n, UInt64.ofNat n + 1 = 0 := ⟨2 ^ 64 - 1, rfl⟩
  have hops := h (List.replicate n (.schedule 2 leaf) ++
    [.schedule 1 leaf, .schedule 1 leaf, .advance 1])
  rw [run_append] at hops
  obtain ⟨hcycles, hnext, hnow, hlength⟩ := run_schedules n
  generalize run step {} (List.replicate n (.schedule 2 leaf)) = s at hops hcycles hnext hnow
  have hlate : (1 : UInt64).toNat < (2 : UInt64).toNat := by decide
  have hfirst := schedule_first s 1 leaf fun e he => by
    rw [Event.before_iff, hcycles e he]
    exact Or.inl hlate
  have hzero : (s.schedule 1 leaf).scheduler.nextSequence = 0 := by
    show s.scheduler.nextSequence + 1 = 0
    rw [hnext, hn]
  have hcount : (s.schedule 1 leaf).scheduled.length = s.scheduled.length + 1 := List.length_append
  have hsecond := schedule_first (s.schedule 1 leaf) 1 leaf
    fun e he => by
      rw [hfirst] at he
      rw [Event.before_iff, hzero]
      rcases List.mem_cons.1 he with rfl | he
      · exact Or.inr ⟨rfl, Nat.zero_le _⟩
      · rw [hcycles e he]
        exact Or.inl hlate
  generalize ht : s.schedule 1 leaf = t at hfirst hsecond hzero hcount
  have hran : (⟨⟨1, t.scheduler.nextSequence, (t.scheduled.length, leaf)⟩, 1, t.scheduler.events⟩ :
      Ran Unit) ∈ (run step s [.schedule 1 leaf, .schedule 1 leaf, .advance 1]).ran := by
    have htime : t.scheduler.now + 1 = 1 := by
      rw [← ht]
      show s.scheduler.now + 1 = 1
      rw [hnow]
      rfl
    show _ ∈ (((s.schedule 1 leaf).schedule 1 leaf).advance 1).ran
    have hevents : ({ t.schedule 1 leaf with
        scheduler := (t.schedule 1 leaf).scheduler.pass 1 } : Session Unit).scheduler.events = _ :=
      hsecond
    have hdue : (1 : UInt64) ≤ t.scheduler.now + 1 := by
      rw [htime]
      exact UInt64.le_refl 1
    rw [ht, advance, dispatchDue_due hevents hdue]
    refine mem_ran_dispatchDue (List.mem_append_right _ ?_)
    show _ ∈ [(⟨_, t.scheduler.now + 1, ((t.schedule 1 leaf).scheduler.events).tail⟩ : Ran Unit)]
    rw [hsecond, htime]
    exact List.mem_singleton_self _
  have hearlier := hops _ hran _ (by rw [hfirst]; exact List.mem_cons_self ..)
  rcases hearlier with hlt | ⟨-, hlt⟩
  · exact absurd hlt (UInt64.lt_irrefl _)
  · change t.scheduled.length < s.scheduled.length at hlt
    omega

end Session

end CuteMac.Core
