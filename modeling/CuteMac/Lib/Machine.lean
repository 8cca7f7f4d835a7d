/-
  Runs of a deterministic machine.

  A machine is a step function `σ → α → σ` on states `σ` and inputs `α`.

  * `run`: the state after a list of inputs;
  * `Guarded ok`: every input of a run meets the condition `ok` in the state it
    arrives in;
  * `run_inv`, `guarded_run_inv`: what every step preserves holds after a run;
    `prefixes_inv_iff_guarded` says when every state of a run has an invariant;
  * `read`: an automaton, given by a partial step function, reads a word of
    events; `guarded_run_extends` lifts a step-wise simulation between the log
    of a machine and an automaton to whole runs;
  * `foldlM_range_inv`: what every round of a loop that can fail establishes.
-/
import Mathlib.Data.List.Basic

namespace Machine

variable {σ α : Type*}

/-- The state after the inputs `as`, taken in order from `s`. -/
def run (step : σ → α → σ) (s : σ) (as : List α) : σ := as.foldl step s

section
variable (step : σ → α → σ)

@[simp] theorem run_nil (s : σ) : run step s [] = s := rfl

@[simp] theorem run_cons (s : σ) (a : α) (as : List α) :
    run step s (a :: as) = run step (step s a) as := rfl

theorem run_append (s : σ) (as bs : List α) :
    run step s (as ++ bs) = run step (run step s as) bs := by
  simp [run, List.foldl_append]

/-- Every input of the run from `s` meets `ok` in the state it arrives in. -/
def Guarded (ok : σ → α → Prop) : σ → List α → Prop
  | _, [] => True
  | s, a :: as => ok s a ∧ Guarded ok (step s a) as

instance (ok : σ → α → Prop) [∀ s a, Decidable (ok s a)] :
    ∀ (s : σ) (as : List α), Decidable (Guarded step ok s as)
  | _, [] => inferInstanceAs (Decidable True)
  | s, a :: as =>
    have := instDecidableGuarded ok (step s a) as
    inferInstanceAs (Decidable (ok s a ∧ Guarded step ok (step s a) as))

theorem guarded_append (ok : σ → α → Prop) (s : σ) (as bs : List α) :
    Guarded step ok s (as ++ bs) ↔ Guarded step ok s as ∧ Guarded step ok (run step s as) bs := by
  induction as generalizing s with
  | nil => simp [Guarded]
  | cons a as ih => simp [Guarded, ih, and_assoc]

variable {step}

theorem guarded_congr {ok ok' : σ → α → Prop} (h : ∀ s a, ok s a ↔ ok' s a) (s : σ) (as : List α) :
    Guarded step ok s as ↔ Guarded step ok' s as := by
  induction as generalizing s with
  | nil => exact Iff.rfl
  | cons a as ih => exact and_congr (h s a) (ih (step s a))

/-- What every step preserves holds after a run. -/
theorem run_inv {I : σ → Prop} (hstep : ∀ s a, I s → I (step s a)) {s : σ} (hs : I s)
    (as : List α) : I (run step s as) := by
  induction as generalizing s with
  | nil => exact hs
  | cons a as ih => exact ih (hstep s a hs)

/-- What every step that meets `ok` preserves holds after a guarded run. -/
theorem guarded_run_inv {ok : σ → α → Prop} {I : σ → Prop}
    (hstep : ∀ s a, ok s a → I s → I (step s a)) {s : σ} (hs : I s) {as : List α}
    (hg : Guarded step ok s as) : I (run step s as) := by
  induction as generalizing s with
  | nil => exact hs
  | cons a as ih => exact ih (hstep s a hg.1 hs) hg.2

/-- Where every step that meets `ok` keeps the invariant and does what `good` says, every step
    of a guarded run does. -/
theorem guarded_run_steps {ok good : σ → α → Prop} {I : σ → Prop}
    (hstep : ∀ s a, ok s a → I s → I (step s a) ∧ good s a) {s : σ} (hs : I s) {as : List α}
    (hg : Guarded step ok s as) : Guarded step good s as ∧ I (run step s as) := by
  induction as generalizing s with
  | nil => exact ⟨trivial, hs⟩
  | cons a as ih =>
    obtain ⟨hI, hgood⟩ := hstep s a hg.1 hs
    obtain ⟨hsteps, hend⟩ := ih hI hg.2
    exact ⟨⟨hgood, hsteps⟩, hend⟩

/-- Where a step keeps an invariant exactly if it meets `ok`, every state of a run has the
    invariant exactly if the run is guarded. -/
theorem prefixes_inv_iff_guarded {ok : σ → α → Prop} {I : σ → Prop}
    (hstep : ∀ s a, I s → (I (step s a) ↔ ok s a)) {s : σ} (hs : I s) (as : List α) :
    (∀ bs, bs <+: as → I (run step s bs)) ↔ Guarded step ok s as := by
  induction as generalizing s with
  | nil =>
    refine iff_of_true (fun bs hbs => ?_) trivial
    rw [List.prefix_nil.mp hbs]
    exact hs
  | cons a as ih =>
    constructor
    · intro h
      have hI : I (step s a) := h [a] (List.prefix_append [a] as)
      refine ⟨(hstep s a hs).mp hI, (ih hI).mp fun bs hbs => ?_⟩
      exact h (a :: bs) (List.cons_prefix_cons.mpr ⟨rfl, hbs⟩)
    · rintro ⟨hok, hg⟩ bs hbs
      have hI : I (step s a) := (hstep s a hs).mpr hok
      cases bs with
      | nil => exact hs
      | cons b bs =>
        obtain ⟨rfl, hrest⟩ := List.cons_prefix_cons.mp hbs
        exact (ih hI).mpr hg bs hrest

end

/-! ## Words of events -/

section
variable {β ε : Type*}

/-- The automaton `δ` reads the word `es` from `b` and ends in the result, if
    no event is refused on the way. -/
def read (δ : β → ε → Option β) (b : β) : List ε → Option β
  | [] => some b
  | e :: es => (δ b e).bind fun b' => read δ b' es

@[simp] theorem read_nil (δ : β → ε → Option β) (b : β) : read δ b [] = some b := rfl

@[simp] theorem read_cons (δ : β → ε → Option β) (b : β) (e : ε) (es : List ε) :
    read δ b (e :: es) = (δ b e).bind fun b' => read δ b' es := rfl

theorem read_append (δ : β → ε → Option β) (b : β) (es fs : List ε) :
    read δ b (es ++ fs) = (read δ b es).bind fun b' => read δ b' fs := by
  induction es generalizing b with
  | nil => rfl
  | cons e es ih =>
    simp only [List.cons_append, read_cons]
    cases δ b e with
    | none => rfl
    | some b' => exact ih b'

/-- The log of `s'` extends that of `s` by a word that the automaton reads from
    the abstraction of `s` to the abstraction of `s'`. -/
def Extends (δ : β → ε → Option β) (log : σ → List ε) (abs : σ → β) (s s' : σ) : Prop :=
  ∃ es, log s' = log s ++ es ∧ read δ (abs s) es = some (abs s')

variable {δ : β → ε → Option β} {log : σ → List ε} {abs : σ → β} {s s' s'' : σ}

theorem Extends.refl (hl : log s' = log s) (ha : abs s' = abs s) : Extends δ log abs s s' :=
  ⟨[], by simp [hl], by simp [ha]⟩

theorem Extends.one {e : ε} (hl : log s' = log s ++ [e]) (hd : δ (abs s) e = some (abs s')) :
    Extends δ log abs s s' :=
  ⟨[e], hl, by simp [hd]⟩

theorem Extends.trans (h : Extends δ log abs s s') (h' : Extends δ log abs s' s'') :
    Extends δ log abs s s'' := by
  obtain ⟨es, hl, hr⟩ := h
  obtain ⟨fs, hl', hr'⟩ := h'
  refine ⟨es ++ fs, by rw [hl', hl, List.append_assoc], ?_⟩
  rw [read_append, hr]; exact hr'

/-- **Simulation.**  If every guarded step keeps `I` and extends the log by a
    word of the automaton, then so does a guarded run. -/
theorem guarded_run_extends {step : σ → α → σ} {ok : σ → α → Prop} {I : σ → Prop}
    (hstep : ∀ s a, ok s a → I s → I (step s a) ∧ Extends δ log abs s (step s a))
    {s : σ} (hs : I s) {as : List α} (hg : Guarded step ok s as) :
    I (run step s as) ∧ Extends δ log abs s (run step s as) := by
  induction as generalizing s with
  | nil => exact ⟨hs, .refl rfl rfl⟩
  | cons a as ih =>
    obtain ⟨hI, hE⟩ := hstep s a hg.1 hs
    obtain ⟨hI', hE'⟩ := ih hI hg.2
    exact ⟨hI', hE.trans hE'⟩

end

/-! ## Loops that can fail -/

/-- What every round of a loop establishes holds after it, and no round fails. -/
theorem foldlM_range_inv {f : σ → Nat → Option σ} {P : Nat → σ → Prop} {n : Nat} {s : σ}
    (h0 : P 0 s) (hstep : ∀ k < n, ∀ s, P k s → ∃ s', f s k = some s' ∧ P (k + 1) s') :
    ∃ s', (List.range n).foldlM f s = some s' ∧ P n s' := by
  induction n with
  | zero => exact ⟨s, rfl, h0⟩
  | succ n ih =>
    obtain ⟨s₁, h1, hP1⟩ := ih fun k hk => hstep k (Nat.lt_succ_of_lt hk)
    obtain ⟨s₂, h2, hP2⟩ := hstep n (Nat.lt_succ_self n) s₁ hP1
    refine ⟨s₂, ?_, hP2⟩
    rw [List.range_succ, List.foldlM_append, h1]
    show List.foldlM f s₁ [n] = some s₂
    rw [List.foldlM_cons, h2]
    rfl

end Machine
