/-
  Records cut out of a stream.

  A record starts with a sync pattern. What follows the pattern says whether
  more of the stream is needed, whether the pattern starts no record, or how
  long the record is.

  * `Format`: a sync pattern and the verdict on what starts with it;
  * `cut`: the records of a buffer, and what is kept of the buffer;
  * `cut_append`: cutting piece by piece is cutting the whole;
  * `Scanner`: a machine that takes the stream one element at a time and acts on
    every record; `run_idle` and `run_frame` follow it over a gap and a record.
-/
import CuteMac.Lib.Machine
import CuteMac.Lib.Slice

namespace Framing

open Slice

variable {α σ : Type*}

/-! ## Formats -/

/-- What a buffer that starts with a sync pattern is: too short to tell, no record, or a record. -/
inductive Verdict
  | wait
  | slip
  | take (n : Nat)
  deriving DecidableEq

/-- A record format. A verdict other than `wait` does not change when more arrives. -/
structure Format (α : Type*) where
  sync : List α
  verdict : List α → Verdict
  sync_ne : sync ≠ []
  take_pos : ∀ b n, verdict b = .take n → 0 < n
  take_le : ∀ b n, verdict b = .take n → n ≤ b.length
  stable : ∀ b c, verdict b ≠ .wait → verdict (b ++ c) = verdict b

theorem Format.sync_length_pos (F : Format α) : 0 < F.sync.length := List.length_pos_iff.2 F.sync_ne

/-- What is kept of a buffer without sync pattern: the last elements, which may begin one. -/
def keep (F : Format α) (b : List α) : List α := b.drop (b.length - (F.sync.length - 1))

variable [DecidableEq α] (F : Format α)

/-- The records of a buffer, in order, and the rest of the buffer. -/
def cut (b : List α) : List (List α) × List α :=
  match _h : indexOf F.sync b with
  | none => ([], keep F b)
  | some i =>
    match _hv : F.verdict (b.drop i) with
    | .wait => ([], b.drop i)
    | .slip => cut ((b.drop i).drop 1)
    | .take n => ((b.drop i).take n :: (cut ((b.drop i).drop n)).1, (cut ((b.drop i).drop n)).2)
termination_by b.length
decreasing_by
  all_goals
    have hi := indexOf_lt F.sync_ne _h
    simp only [List.length_drop]
    first
      | omega
      | have := F.take_pos _ _ _hv
        omega

/-- Nothing of the buffer can be cut off. -/
def Settled (b : List α) : Prop := cut F b = ([], b)

variable {F} {b c g r w xs : List α} {i n : Nat}

theorem cut_none (h : indexOf F.sync b = none) : cut F b = ([], keep F b) := by
  rw [cut]
  split
  · rfl
  · rename_i hi
    rw [h] at hi
    cases hi

theorem cut_some (h : indexOf F.sync b = some i) : cut F b =
    match F.verdict (b.drop i) with
    | .wait => ([], b.drop i)
    | .slip => cut F ((b.drop i).drop 1)
    | .take n => ((b.drop i).take n :: (cut F ((b.drop i).drop n)).1,
        (cut F ((b.drop i).drop n)).2) := by
  rw [cut]
  split
  · rename_i hi
    rw [h] at hi
    cases hi
  · rename_i j hj
    rw [h] at hj
    cases hj
    split <;> simp only [*]

theorem cut_wait (h : indexOf F.sync b = some i) (hv : F.verdict (b.drop i) = .wait) :
    cut F b = ([], b.drop i) := by
  rw [cut_some h, hv]

theorem cut_slip (h : indexOf F.sync b = some i) (hv : F.verdict (b.drop i) = .slip) :
    cut F b = cut F (b.drop (i + 1)) := by
  rw [cut_some h, hv, List.drop_drop]

theorem cut_take (h : indexOf F.sync b = some i) (hv : F.verdict (b.drop i) = .take n) :
    cut F b = ((b.drop i).take n :: (cut F (b.drop (i + n))).1, (cut F (b.drop (i + n))).2) := by
  rw [cut_some h, hv]
  simp only [List.drop_drop]

/-- A buffer that starts with a sync pattern. -/
theorem cut_sync (h : F.sync <+: b) : cut F b =
    match F.verdict b with
    | .wait => ([], b)
    | .slip => cut F (b.drop 1)
    | .take n => (b.take n :: (cut F (b.drop n)).1, (cut F (b.drop n)).2) :=
  cut_some (indexOf_eq_zero F.sync_ne h)

/-- What stands before the first sync pattern is dropped. -/
theorem cut_drop_indexOf (h : indexOf F.sync b = some i) : cut F b = cut F (b.drop i) := by
  rw [cut_some h, cut_sync (prefix_of_indexOf h)]

@[simp] theorem cut_nil : cut F [] = ([], []) := by
  have h : indexOf F.sync [] = none := by simp [indexOf, F.sync_ne]
  rw [cut_none h, keep, List.drop_nil]

/-- What cannot start a record is dropped, as long as what may begin one is kept. -/
theorem cut_drop (hn : n + (F.sync.length - 1) ≤ b.length)
    (h : ∀ j < n, ¬ F.sync <+: b.drop j) : cut F b = cut F (b.drop n) := by
  have hi := indexOf_drop (by omega) h
  cases ho : indexOf F.sync (b.drop n) with
  | none =>
    rw [ho, Option.map_none] at hi
    rw [cut_none hi, cut_none ho, keep, keep, List.drop_drop, List.length_drop]
    congr 2
    omega
  | some i =>
    rw [ho, Option.map_some] at hi
    rw [cut_drop_indexOf hi, cut_drop_indexOf ho, List.drop_drop, Nat.add_comm]

/-- A buffer without sync pattern holds no record. -/
theorem cut_of_not_infix (h : ¬ F.sync <:+: b) : cut F b = ([], keep F b) :=
  cut_none ((indexOf_eq_none F.sync_ne).2 h)

/-- Where a buffer has no sync pattern, only what is kept of it matters. -/
theorem cut_keep_append (h : ¬ F.sync <:+: b) : cut F (b ++ c) = cut F (keep F b ++ c) := by
  have hpos := F.sync_length_pos
  have hk : keep F b ++ c = (b ++ c).drop (b.length - (F.sync.length - 1)) := by
    rw [keep, List.drop_append_of_le_length (by omega)]
  rcases Nat.lt_or_ge b.length (F.sync.length - 1) with hb | hb
  · rw [hk, Nat.sub_eq_zero_of_le (by omega), List.drop_zero]
  rw [hk]
  refine cut_drop (by rw [List.length_append]; omega) fun j hj hp => h ?_
  -- an occurrence that starts in front of what is kept ends inside the buffer
  rw [List.drop_append_of_le_length (by omega)] at hp
  have hp' := List.prefix_of_prefix_length_le hp (List.prefix_append (b.drop j) c)
    (by rw [List.length_drop]; omega)
  exact hp'.isInfix.trans (List.drop_suffix j b).isInfix

/-- Cutting piece by piece is cutting the whole. -/
theorem cut_append (b c : List α) : cut F (b ++ c) =
    ((cut F b).1 ++ (cut F ((cut F b).2 ++ c)).1, (cut F ((cut F b).2 ++ c)).2) := by
  induction hl : b.length using Nat.strongRecOn generalizing b with
  | ind l ih =>
    cases h : indexOf F.sync b with
    | none =>
      rw [cut_none h, cut_keep_append ((indexOf_eq_none F.sync_ne).1 h), List.nil_append]
    | some i =>
      have hi := indexOf_lt F.sync_ne h
      have hbc : (b ++ c).drop i = b.drop i ++ c := List.drop_append_of_le_length (by omega)
      rw [cut_some h, cut_drop_indexOf (indexOf_append F.sync_ne h), hbc]
      have hp : F.sync <+: b.drop i ++ c := (prefix_of_indexOf h).trans (List.prefix_append _ _)
      cases hv : F.verdict (b.drop i) with
      | wait => rw [List.nil_append]
      | slip =>
        have hv' : F.verdict (b.drop i ++ c) = .slip := by rw [F.stable _ _ (by simp [hv]), hv]
        rw [cut_sync hp, hv']
        have hd : (b.drop i ++ c).drop 1 = (b.drop i).drop 1 ++ c :=
          List.drop_append_of_le_length (by rw [List.length_drop]; omega)
        simp only [hd]
        exact ih _ (by simp only [List.length_drop]; omega) _ rfl
      | take n =>
        have hv' : F.verdict (b.drop i ++ c) = .take n := by rw [F.stable _ _ (by simp [hv]), hv]
        have hn := F.take_le _ _ hv
        have hpos := F.take_pos _ _ hv
        rw [List.length_drop] at hn
        rw [cut_sync hp, hv']
        have hd : (b.drop i ++ c).drop n = (b.drop i).drop n ++ c :=
          List.drop_append_of_le_length (by rw [List.length_drop]; omega)
        have ht : (b.drop i ++ c).take n = (b.drop i).take n :=
          List.take_append_of_le_length (by rw [List.length_drop]; omega)
        simp only [hd, ht, List.cons_append]
        rw [ih _ (by simp only [List.length_drop]; omega) ((b.drop i).drop n) rfl]

/-- The rest of a buffer holds no record. -/
theorem settled_rest (b : List α) : Settled F (cut F b).2 := by
  have h := cut_append (F := F) b []
  rw [List.append_nil, List.append_nil] at h
  have h1 := congrArg Prod.fst h
  have h2 := congrArg Prod.snd h
  simp only [List.self_eq_append_right] at h1 h2
  exact Prod.ext h1 h2.symm

theorem settled_nil : Settled F ([] : List α) := cut_nil

/-- A gap in front of a sync pattern is dropped. -/
theorem cut_gap (hg : ¬ F.sync <:+: g ++ F.sync.dropLast) (hb : F.sync <+: b) :
    cut F (g ++ b) = cut F b := by
  have hle := hb.length_le
  have hpos := F.sync_length_pos
  rw [cut_drop (n := g.length) (by rw [List.length_append]; omega) fun j hj hp => hg ?_,
    List.drop_left]
  -- an occurrence that starts in the gap ends before the last element of the sync pattern
  obtain ⟨t, rfl⟩ : F.sync.dropLast <+: b := (List.dropLast_prefix _).trans hb
  have hp' : F.sync <+: (g ++ F.sync.dropLast).drop j := by
    rw [← List.append_assoc, List.drop_append_of_le_length
      (by rw [List.length_append]; omega)] at hp
    refine List.prefix_of_prefix_length_le hp (List.prefix_append _ t) ?_
    rw [List.length_drop, List.length_append, List.length_dropLast]
    omega
  exact hp'.isInfix.trans (List.drop_suffix _ _).isInfix

/-- A record by itself. -/
theorem cut_record (hr : F.sync <+: r) (hv : F.verdict r = .take r.length) :
    cut F r = ([r], []) := by
  rw [cut_sync hr, hv]
  simp

/-- A record without its last element is none. -/
theorem cut_dropLast (hr : F.sync <+: r) (hv : F.verdict r = .take r.length)
    (hp : F.sync <+: r.dropLast) : cut F r.dropLast = ([], r.dropLast) := by
  rw [cut_sync hp]
  cases hd : F.verdict r.dropLast with
  | wait => rfl
  | slip | take n =>
    -- a verdict on the shorter buffer would be the one on the record
    have hne : r ≠ [] := fun h => by simp [h, F.sync_ne] at hr
    have hs := F.stable r.dropLast [r.getLast hne] (by simp [hd])
    rw [List.dropLast_append_getLast, hv] at hs
    have hle := F.take_le _ _ hs.symm
    have hpos := List.length_pos_iff.2 hne
    rw [List.length_dropLast] at hle
    omega

/-- Every record is a run of elements of the buffer, starts with the sync pattern, and has the
length that the verdict gave it. -/
theorem mem_cut (h : r ∈ (cut F b).1) :
    r <:+: b ∧ ∃ c, F.sync <+: r ++ c ∧ F.verdict (r ++ c) = .take r.length := by
  induction hl : b.length using Nat.strongRecOn generalizing b with
  | ind l ih =>
    cases hi : indexOf F.sync b with
    | none => simp [cut_none hi] at h
    | some i =>
      have hlt := indexOf_lt F.sync_ne hi
      rw [cut_some hi] at h
      cases hv : F.verdict (b.drop i) with
      | wait => simp [hv] at h
      | slip =>
        simp only [hv] at h
        obtain ⟨h1, h2⟩ := ih _ (by simp only [List.length_drop]; omega) h rfl
        exact ⟨h1.trans ((List.drop_suffix _ _).trans (List.drop_suffix _ _)).isInfix, h2⟩
      | take n =>
        simp only [hv, List.mem_cons] at h
        have hle := F.take_le _ _ hv
        have hpos := F.take_pos _ _ hv
        rcases h with rfl | h
        · refine ⟨(List.take_prefix _ _).isInfix.trans (List.drop_suffix _ _).isInfix,
            (b.drop i).drop n, ?_⟩
          rw [List.take_append_drop, List.length_take, Nat.min_eq_left hle]
          exact ⟨prefix_of_indexOf hi, hv⟩
        · obtain ⟨h1, h2⟩ := ih _ (by simp only [List.length_drop]; omega) h rfl
          exact ⟨h1.trans ((List.drop_suffix _ _).trans (List.drop_suffix _ _)).isInfix, h2⟩

/-- The rest of a buffer is its end. -/
theorem cut_rest_suffix (b : List α) : (cut F b).2 <:+ b := by
  induction hl : b.length using Nat.strongRecOn generalizing b with
  | ind l ih =>
    cases hi : indexOf F.sync b with
    | none => rw [cut_none hi]; exact List.drop_suffix _ _
    | some i =>
      have hlt := indexOf_lt F.sync_ne hi
      rw [cut_some hi]
      cases hv : F.verdict (b.drop i) with
      | wait => exact List.drop_suffix _ _
      | slip =>
        exact (ih _ (by simp only [List.length_drop]; omega) _ rfl).trans
          ((List.drop_suffix _ _).trans (List.drop_suffix _ _))
      | take n =>
        have hpos := F.take_pos _ _ hv
        exact (ih _ (by simp only [List.length_drop]; omega) _ rfl).trans
          ((List.drop_suffix _ _).trans (List.drop_suffix _ _))

/-- The rest is shorter than the length from which on a verdict is always reached. -/
theorem cut_rest_lt {N : Nat} (hN : F.sync.length ≤ N)
    (hw : ∀ b : List α, N ≤ b.length → F.verdict b ≠ .wait) (b : List α) :
    (cut F b).2.length < N := by
  have hpos := F.sync_length_pos
  have hs : cut F (cut F b).2 = ([], (cut F b).2) := settled_rest b
  generalize hb : (cut F b).2 = rest at hs
  cases hi : indexOf F.sync rest with
  | none =>
    rw [cut_none hi] at hs
    have hk := congrArg (fun p => p.2.length) hs
    simp only [keep, List.length_drop] at hk
    omega
  | some i =>
    have hlt := indexOf_lt F.sync_ne hi
    have hlen := congrArg (fun p => p.2.length) hs
    rw [cut_some hi] at hlen
    cases hv : F.verdict (rest.drop i) with
    | wait =>
      simp only [hv, List.length_drop] at hlen
      refine Nat.lt_of_not_le fun hle => hw (rest.drop i) ?_ hv
      rw [List.length_drop]
      omega
    | slip =>
      simp only [hv] at hlen
      have := (cut_rest_suffix (F := F) ((rest.drop i).drop 1)).length_le
      simp only [List.length_drop] at this
      omega
    | take n =>
      simp only [hv] at hlen
      have hpos := F.take_pos _ _ hv
      have := (cut_rest_suffix (F := F) ((rest.drop i).drop n)).length_le
      simp only [List.length_drop] at this
      omega

/-! ## Scanners -/

/-- A machine that acts on the records of a stream: `pre` is what happens before an element is
taken, `act` what a record does. -/
structure Scanner (α σ : Type*) where
  format : Format α
  pre : List α → σ → σ
  act : List α → σ → σ

variable {S : Scanner α σ} {s : σ}

/-- One element enters the window, and every complete record acts. -/
def Scanner.step (S : Scanner α σ) (ws : List α × σ) (x : α) : List α × σ :=
  ((cut S.format (ws.1 ++ [x])).2,
    (cut S.format (ws.1 ++ [x])).1.foldl (fun s r => S.act r s) (S.pre ws.1 ws.2))

namespace Scanner

/-- The window is what is left of the window and the stream. -/
theorem run_window (hw : Settled S.format w) (s : σ) (xs : List α) :
    (Machine.run S.step (w, s) xs).1 = (cut S.format (w ++ xs)).2 := by
  induction xs generalizing w s with
  | nil => rw [Machine.run_nil, List.append_nil, hw]
  | cons x xs ih =>
    rw [Machine.run_cons]
    refine (ih (settled_rest (w ++ [x])) _).trans ?_
    rw [List.append_cons w x xs, Framing.cut_append (w ++ [x]) xs]

/-- What `pre` and every record of the stream preserve holds after the stream. -/
theorem run_inv {I : σ → Prop} (hw : Settled S.format w) (hpre : ∀ w s, I s → I (S.pre w s))
    (hact : ∀ r ∈ (cut S.format (w ++ xs)).1, ∀ s, I s → I (S.act r s)) (hs : I s) :
    I (Machine.run S.step (w, s) xs).2 := by
  induction xs generalizing w s with
  | nil => exact hs
  | cons x xs ih =>
    rw [List.append_cons w x xs, Framing.cut_append (w ++ [x]) xs] at hact
    rw [Machine.run_cons]
    refine ih (settled_rest (w ++ [x])) (fun r hr => hact r (List.mem_append_right _ hr)) ?_
    have hfold : ∀ rs : List (List α), (∀ r ∈ rs, ∀ s, I s → I (S.act r s)) → ∀ s, I s →
        I (rs.foldl (fun s r => S.act r s) s) := by
      intro rs hrs
      induction rs with
      | nil => exact fun s hs => hs
      | cons r rs ihr =>
        exact fun s hs => ihr (fun r' h => hrs r' (List.mem_cons_of_mem _ h)) _
          (hrs r (List.mem_cons_self ..) s hs)
    exact hfold _ (fun r hr => hact r (List.mem_append_left _ hr)) _ (hpre w s hs)

variable {R : σ → σ → Prop}

/-- While no record is complete, only `pre` happens, first of all for the first element. -/
theorem run_idle_cons {x : α} (hrefl : ∀ s, R s s)
    (htrans : ∀ {s s' s''}, R s s' → R s' s'' → R s s'') (hpre : ∀ w s, R s (S.pre w s))
    (hidle : (cut S.format (w ++ x :: xs)).1 = []) :
    R (S.pre w s) (Machine.run S.step (w, s) (x :: xs)).2 := by
  rw [List.append_cons w x xs, Framing.cut_append, List.append_eq_nil_iff] at hidle
  have hstep : S.step (w, s) x = ((cut S.format (w ++ [x])).2, S.pre w s) := by
    rw [Scanner.step, hidle.1, List.foldl_nil]
  rw [Machine.run_cons, hstep]
  refine run_inv (I := R (S.pre w s)) (settled_rest _) (fun w' s' h => htrans h (hpre w' s')) ?_
    (hrefl _)
  rw [hidle.2]
  intro r hr
  cases hr

theorem run_idle (hrefl : ∀ s, R s s) (htrans : ∀ {s s' s''}, R s s' → R s' s'' → R s s'')
    (hpre : ∀ w s, R s (S.pre w s)) (hidle : (cut S.format (w ++ xs)).1 = []) :
    R s (Machine.run S.step (w, s) xs).2 := by
  cases xs with
  | nil => exact hrefl s
  | cons x xs => exact htrans (hpre w s) (run_idle_cons hrefl htrans hpre hidle)

/-- A gap and a record: up to the last element of the record only `pre` happens, and then the
record acts. -/
theorem run_frame (hrefl : ∀ s, R s s) (htrans : ∀ {s s' s''}, R s s' → R s' s'' → R s s'')
    (hpre : ∀ w s, R s (S.pre w s)) (hw : Settled S.format w)
    (hg : ¬ S.format.sync <:+: w ++ g ++ S.format.sync.dropLast)
    (hr : S.format.sync <+: r) (hv : S.format.verdict r = .take r.length) :
    ∃ s', R (S.pre w s) s' ∧ Machine.run S.step (w, s) (g ++ r) = ([], S.act r s') := by
  have hne : r ≠ [] := fun h => by simp [h, S.format.sync_ne] at hr
  have hcut : cut S.format (w ++ (g ++ r)) = ([r], []) := by
    rw [← List.append_assoc, cut_gap hg hr, cut_record hr hv]
  have hidle : (cut S.format (w ++ (g ++ r.dropLast))).1 = [] := by
    rw [← List.append_assoc]
    by_cases hp : S.format.sync <+: r.dropLast
    · rw [cut_gap hg hp, cut_dropLast hr hv hp]
    · have hle : ¬ S.format.sync.length ≤ r.dropLast.length := fun hle =>
        hp (List.prefix_of_prefix_length_le hr (List.dropLast_prefix r) hle)
      rw [List.length_dropLast] at hle
      have hrs : S.format.sync = r := hr.eq_of_length_le (by omega)
      rw [← hrs, cut_of_not_infix hg]
  have hlast : w ++ (g ++ r) = w ++ (g ++ r.dropLast) ++ [r.getLast hne] := by
    rw [List.append_assoc, List.append_assoc, List.dropLast_append_getLast]
  -- all of the record but its last element leaves the machine idle
  rw [hlast, Framing.cut_append, hidle, List.nil_append] at hcut
  have hwin := run_window hw s (g ++ r.dropLast)
  rw [← hwin] at hcut
  obtain ⟨hrec, hrest⟩ := Prod.mk.inj hcut
  have hstep : Machine.run S.step (w, s) (g ++ r) =
      S.step (Machine.run S.step (w, s) (g ++ r.dropLast)) (r.getLast hne) := by
    conv_lhs => rw [← List.dropLast_append_getLast hne, ← List.append_assoc]
    rw [Machine.run_append, Machine.run_cons, Machine.run_nil]
  refine ⟨S.pre (Machine.run S.step (w, s) (g ++ r.dropLast)).1
    (Machine.run S.step (w, s) (g ++ r.dropLast)).2, ?_, hstep.trans ?_⟩
  · cases hxs : g ++ r.dropLast with
    | nil => exact hrefl _
    | cons x xs =>
      rw [hxs] at hidle
      exact htrans (run_idle_cons hrefl htrans hpre hidle) (hpre _ _)
  · rw [Scanner.step, hrec, hrest, List.foldl_cons, List.foldl_nil]

end Scanner

end Framing
