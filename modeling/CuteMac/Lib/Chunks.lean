/-
  A stream that comes in chunks.

  * `EndsAt chunks p`: a chunk ends behind the first `p` elements;
  * `after p chunks`: the chunks still to come when at least `p` elements have come;
  * `reached p chunks`: how many elements have come then;
  * `reached_le`, `endsAt_reached`: that is the first end of a chunk from `p` on;
  * `after_after`: waiting twice is waiting for the sum.
-/
import Mathlib

namespace Chunks

variable {α : Type*}

/-- A chunk ends behind the first `p` elements, or nothing has come. -/
def EndsAt (chunks : List (List α)) (p : ℕ) : Prop := ∃ n, (chunks.take n).flatten.length = p

/-- What is still to come when whole chunks have come until there are `p` elements. -/
def after (p : ℕ) : List (List α) → List (List α)
  | [] => []
  | c :: cs => if p = 0 then c :: cs else after (p - c.length) cs

def reached (p : ℕ) : List (List α) → ℕ
  | [] => 0
  | c :: cs => if p = 0 then 0 else c.length + reached (p - c.length) cs

variable {cs : List (List α)} {p q : ℕ}

@[simp] theorem after_zero (cs : List (List α)) : after 0 cs = cs := by
  cases cs <;> rfl

@[simp] theorem reached_zero (cs : List (List α)) : reached 0 cs = 0 := by
  cases cs <;> rfl

theorem mem_of_mem_after {c : List α} (h : c ∈ after p cs) : c ∈ cs := by
  induction cs generalizing p with
  | nil => exact h
  | cons d cs ih =>
    unfold after at h
    split_ifs at h
    · exact h
    · exact List.mem_cons_of_mem d (ih h)

theorem flatten_after (p : ℕ) (cs : List (List α)) :
    (after p cs).flatten = cs.flatten.drop (reached p cs) := by
  induction cs generalizing p with
  | nil => rfl
  | cons c cs ih =>
    unfold after reached
    split_ifs with h
    · rfl
    · have hgone : c.drop (c.length + reached (p - c.length) cs) = [] :=
        List.drop_eq_nil_of_le (Nat.le_add_right _ _)
      rw [ih, List.flatten_cons, List.drop_append, Nat.add_sub_cancel_left, hgone, List.nil_append]

theorem reached_le_length (p : ℕ) (cs : List (List α)) : reached p cs ≤ cs.flatten.length := by
  induction cs generalizing p with
  | nil => exact le_rfl
  | cons c cs ih =>
    unfold reached
    rw [List.flatten_cons, List.length_append]
    split_ifs with h
    · exact Nat.zero_le _
    · exact Nat.add_le_add_left (ih _) _

theorem length_after (p : ℕ) (cs : List (List α)) :
    (after p cs).flatten.length = cs.flatten.length - reached p cs := by
  rw [flatten_after, List.length_drop]

theorem le_reached (h : p ≤ cs.flatten.length) : p ≤ reached p cs := by
  induction cs generalizing p with
  | nil => exact h
  | cons c cs ih =>
    rw [List.flatten_cons, List.length_append] at h
    have hrest := ih (p := p - c.length) (by omega)
    unfold reached
    split_ifs with hp <;> omega

theorem reached_of_length_le (h : cs.flatten.length ≤ p) : reached p cs = cs.flatten.length := by
  induction cs generalizing p with
  | nil => rfl
  | cons c cs ih =>
    rw [List.flatten_cons, List.length_append] at h ⊢
    unfold reached
    split_ifs with hp
    · omega
    · rw [ih (by omega)]

/-- The first end of a chunk from `p` on. -/
theorem endsAt_reached (p : ℕ) (cs : List (List α)) : EndsAt cs (reached p cs) := by
  induction cs generalizing p with
  | nil => exact ⟨0, rfl⟩
  | cons c cs ih =>
    unfold reached
    split_ifs with h
    · exact ⟨0, rfl⟩
    · obtain ⟨n, hn⟩ := ih (p - c.length)
      refine ⟨n + 1, ?_⟩
      rw [List.take_succ_cons, List.flatten_cons, List.length_append, hn]

theorem reached_le (h : EndsAt cs q) (hpq : p ≤ q) : reached p cs ≤ q := by
  induction cs generalizing p q with
  | nil => exact Nat.zero_le q
  | cons c cs ih =>
    obtain ⟨n, hn⟩ := h
    unfold reached
    split_ifs with hp
    · exact Nat.zero_le q
    · cases n with
      | zero =>
        have hzero : 0 = q := hn
        omega
      | succ n =>
        rw [List.take_succ_cons, List.flatten_cons, List.length_append] at hn
        have hrest := ih (p := p - c.length) ⟨n, rfl⟩ (by omega)
        omega

theorem EndsAt.le_length (h : EndsAt cs p) : p ≤ cs.flatten.length := by
  obtain ⟨n, rfl⟩ := h
  have hsplit := congrArg (fun l => l.flatten.length) (List.take_append_drop n cs)
  simp only [List.flatten_append, List.length_append] at hsplit
  omega

/-- Ends are the places where waiting for them brings no more. -/
theorem endsAt_iff (h : p ≤ cs.flatten.length) : EndsAt cs p ↔ reached p cs = p := by
  constructor
  · intro hend
    exact Nat.le_antisymm (reached_le hend le_rfl) (le_reached h)
  · intro heq
    have hend := endsAt_reached p cs
    rwa [heq] at hend

/-- Whether a chunk ends from `p` to `q`. -/
theorem exists_endsAt_iff (h : p ≤ cs.flatten.length) :
    (∃ c, EndsAt cs c ∧ p ≤ c ∧ c ≤ q) ↔ reached p cs ≤ q := by
  constructor
  · rintro ⟨c, hend, hpc, hcq⟩
    exact (reached_le hend hpc).trans hcq
  · intro hle
    exact ⟨_, endsAt_reached p cs, le_reached h, hle⟩

/-- Waiting for more is waiting for the sum. -/
theorem after_after (h : p ≤ cs.flatten.length) (q : ℕ) :
    after q (after p cs) = after (reached p cs + q) cs := by
  induction cs generalizing p with
  | nil => rfl
  | cons c cs ih =>
    rw [List.flatten_cons, List.length_append] at h
    rw [after.eq_2, reached.eq_2]
    split_ifs with hp
    · rw [Nat.zero_add]
    · have hle : p - c.length ≤ reached (p - c.length) cs := le_reached (by omega)
      rw [ih (by omega), after.eq_2, if_neg (by omega)]
      congr 1
      omega

/-- What is still to come tells how much has come. -/
theorem after_eq_iff (hp : p ≤ cs.flatten.length) (hq : q ≤ cs.flatten.length) :
    after p cs = after q cs ↔ reached p cs = reached q cs := by
  constructor
  · intro heq
    have hlength := congrArg (fun l => l.flatten.length) heq
    simp only [length_after] at hlength
    have hple := reached_le_length p cs
    have hqle := reached_le_length q cs
    omega
  · intro heq
    have hsame : ∀ r, r ≤ cs.flatten.length → after r cs = after (reached r cs) cs := by
      intro r hr
      rw [← Nat.add_zero (reached r cs), ← after_after hr, after_zero]
    rw [hsame p hp, hsame q hq, heq]

end Chunks
