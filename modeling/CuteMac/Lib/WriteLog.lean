/-
  Sequences of writes of several cells, and what they leave behind.

  * `cellAt`, `lastWritten`: the value that a write, or a sequence of writes, leaves in
    a cell; `exists_of_lastWritten`: one of the writes put it there;
  * `Along`: a condition on every state of a run;
  * `run_lastWritten`: where each step is a write, seen through a view of the state,
    the view shows after a run what was written last.
-/
import Mathlib.Data.List.Basic
import Mathlib.Tactic.SplitIfs

namespace WriteLog

variable {σ ι β : Type*}

/-- What a write of some cells from `w.1` on puts into the cell `a`. -/
def cellAt (w : Nat × List β) (a : Nat) : Option β :=
  if w.1 ≤ a then w.2[a - w.1]? else none

/-- What a sequence of writes leaves in the cell `a`, if it writes there. -/
def lastWritten (a : Nat) : List (Nat × List β) → Option β
  | [] => none
  | w :: later => (lastWritten a later).or (cellAt w a)

/-- The first cell of a write, and the rest of it. -/
theorem cellAt_cons (start : Nat) (b : β) (bs : List β) (a : Nat) :
    cellAt (start, b :: bs) a = if a = start then some b else cellAt (start + 1, bs) a := by
  unfold cellAt
  dsimp only
  rcases Nat.lt_trichotomy a start with h | h | h
  · rw [if_neg (by omega), if_neg (by omega), if_neg (by omega)]
  · rw [if_pos (by omega), if_pos h, h, Nat.sub_self]
    rfl
  · rw [if_pos (by omega), if_neg (by omega), if_pos (by omega),
      show a - start = (a - (start + 1)) + 1 by omega, List.getElem?_cons_succ]

@[simp] theorem cellAt_nil (start a : Nat) : cellAt (start, ([] : List β)) a = none := by
  simp [cellAt]

theorem cellAt_eq_some {w : Nat × List β} {a : Nat} {b : β} :
    cellAt w a = some b ↔ ∃ j, w.2[j]? = some b ∧ a = w.1 + j := by
  unfold cellAt
  constructor
  · intro h
    split_ifs at h with hle
    exact ⟨a - w.1, h, by omega⟩
  · rintro ⟨j, hj, rfl⟩
    rw [if_pos (by omega), Nat.add_sub_cancel_left, hj]

/-- What a cell holds last was written by one of the writes. -/
theorem exists_of_lastWritten {a : Nat} {b : β} {ws : List (Nat × List β)}
    (h : lastWritten a ws = some b) : ∃ w ∈ ws, cellAt w a = some b := by
  induction ws with
  | nil => simp [lastWritten] at h
  | cons w ws ih =>
    rw [lastWritten, Option.or_eq_some_iff] at h
    rcases h with h | ⟨-, h⟩
    · obtain ⟨w', hw', hb⟩ := ih h
      exact ⟨w', List.mem_cons_of_mem _ hw', hb⟩
    · exact ⟨w, List.mem_cons_self, h⟩

theorem lastWritten_append (a : Nat) (ws ws' : List (Nat × List β)) :
    lastWritten a (ws ++ ws') = (lastWritten a ws').or (lastWritten a ws) := by
  induction ws with
  | nil => simp [lastWritten]
  | cons w ws ih => rw [List.cons_append, lastWritten, lastWritten, ih, Option.or_assoc]

theorem lastWritten_eq_none {a : Nat} {ws : List (Nat × List β)} :
    lastWritten a ws = none ↔ ∀ w ∈ ws, cellAt w a = none := by
  induction ws with
  | nil => simp [lastWritten]
  | cons w ws ih => rw [lastWritten, Option.or_eq_none_iff, ih, List.forall_mem_cons, and_comm]

/-- The condition holds in every state of the run. -/
def Along (step : σ → ι → Option σ) (P : σ → Prop) : σ → List ι → Prop
  | s, [] => P s
  | s, i :: is => P s ∧ ∀ s', step s i = some s' → Along step P s' is

theorem Along.head {step : σ → ι → Option σ} {P : σ → Prop} {s : σ} {is : List ι}
    (h : Along step P s is) : P s := by
  cases is with
  | nil => exact h
  | cons i is => exact h.1

/-- The condition holds where the run ends. -/
theorem Along.last {step : σ → ι → Option σ} {P : σ → Prop} {is : List ι} :
    ∀ {s s' : σ}, Along step P s is → is.foldlM step s = some s' → P s' := by
  induction is with
  | nil =>
    intro s s' h hrun
    cases hrun
    exact h
  | cons i is ih =>
    intro s s' h hrun
    obtain ⟨t, ht, hrest⟩ := Option.bind_eq_some_iff.1 (by rwa [List.foldlM_cons] at hrun)
    exact ih (h.2 t ht) hrest

/-- What every step preserves holds along a run. -/
theorem Along.and {step : σ → ι → Option σ} {P I : σ → Prop} {ok : ι → Prop}
    (hstep : ∀ {s s' i}, ok i → I s → step s i = some s' → I s') {is : List ι} (hok : ∀ i ∈ is, ok i) :
    ∀ {s : σ}, Along step P s is → I s → Along step (fun s => P s ∧ I s) s is := by
  induction is with
  | nil => exact fun {s} h hI => ⟨h, hI⟩
  | cons i is ih =>
    intro s h hI
    refine ⟨⟨h.1, hI⟩, fun s' hs' => ?_⟩
    have hnext := hstep (hok i List.mem_cons_self) hI hs'
    exact ih (fun j hj => hok j (List.mem_cons_of_mem _ hj)) (h.2 s' hs') hnext

/-- After a run of writes a cell holds what was written last, or what it held before. -/
theorem run_lastWritten {step : σ → ι → Option σ} {P : σ → Prop} {ok : ι → Prop}
    {write : ι → Nat × List β} {view : σ → Option β} {a : Nat}
    (hstep : ∀ {s s' i}, ok i → P s → P s' → step s i = some s' →
      view s' = (cellAt (write i) a).or (view s))
    {is : List ι} (hok : ∀ i ∈ is, ok i) : ∀ {s s' : σ}, Along step P s is →
      is.foldlM step s = some s' → view s' = (lastWritten a (is.map write)).or (view s) := by
  induction is with
  | nil =>
    intro s s' _ hrun
    cases hrun
    rfl
  | cons i is ih =>
    intro s s' halong hrun
    obtain ⟨t, ht, hrest⟩ := Option.bind_eq_some_iff.1 (by rwa [List.foldlM_cons] at hrun)
    have hnext := halong.2 t ht
    have hhead := hok i List.mem_cons_self
    have hview := hstep hhead halong.1 hnext.head ht
    rw [ih (fun j hj => hok j (List.mem_cons_of_mem _ hj)) hnext hrest, hview, List.map_cons,
      lastWritten, Option.or_assoc]

end WriteLog
