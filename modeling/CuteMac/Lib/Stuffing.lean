/-
  Byte stuffing: payloads between flags.

  A stuffing code names a flag and an escape symbol.  A special symbol of the
  payload is sent as the escape symbol and a quoted symbol, which is never the
  flag, so that a flag always ends a frame.

  * `frame`: a payload between two flags;
  * `flag_notMem_stuffed`: no flag inside a frame;
  * `Receives`: what a receiver does with a symbol between flags, as long as
    the frame it collects is short enough;
  * `run_stuffed`: such a receiver collects exactly the payload.
-/
import CuteMac.Lib.Machine

namespace Stuffing

open Machine (run)

structure Code (α : Type*) where
  flag : α
  esc : α
  special : α → Bool
  quote : α → α
  unquote : α → α
  special_flag : special flag = true
  special_esc : special esc = true
  unquote_quote : ∀ a, special a = true → unquote (quote a) = a
  quote_ne_flag : ∀ a, special a = true → quote a ≠ flag

variable {α : Type*} (C : Code α)

/-- A symbol as it is sent. -/
def Code.stuff (a : α) : List α := if C.special a then [C.esc, C.quote a] else [a]

/-- A payload as it is sent. -/
def Code.stuffed (payload : List α) : List α := payload.flatMap C.stuff

/-- A payload between two flags. -/
def Code.frame (payload : List α) : List α := C.flag :: C.stuffed payload ++ [C.flag]

variable {C}

theorem Code.ne_flag {a : α} (h : C.special a = false) : a ≠ C.flag := by
  rintro rfl
  exact absurd C.special_flag (by simp [h])

theorem Code.ne_esc {a : α} (h : C.special a = false) : a ≠ C.esc := by
  rintro rfl
  exact absurd C.special_esc (by simp [h])

theorem Code.flag_notMem_stuff (a : α) (hne : C.esc ≠ C.flag) : C.flag ∉ C.stuff a := by
  intro hmem
  rw [Code.stuff] at hmem
  cases h : C.special a with
  | true =>
    rw [h, if_pos rfl, List.mem_cons, List.mem_singleton] at hmem
    rcases hmem with hmem | hmem
    · exact hne hmem.symm
    · exact C.quote_ne_flag a h hmem.symm
  | false =>
    rw [h, if_neg (by simp), List.mem_singleton] at hmem
    exact C.ne_flag h hmem.symm

/-- The flags are where frames begin and end. -/
theorem Code.flag_notMem_stuffed (payload : List α) (hne : C.esc ≠ C.flag) :
    C.flag ∉ C.stuffed payload := by
  intro hmem
  obtain ⟨a, -, ha⟩ := List.mem_flatMap.mp hmem
  exact C.flag_notMem_stuff a hne ha

/-! ## Receivers -/

/-- A receiver with states `σ` collects frames of at most `n` symbols: `at_ frame
    pending` is the state in which it holds `frame` and, if `pending`, has just
    seen an escape symbol. -/
structure Receives {σ : Type*} (C : Code α) (n : Nat) (step : σ → α → σ)
    (at_ : List α → Bool → σ) : Prop where
  plain : ∀ frame a, frame.length < n → a ≠ C.flag → a ≠ C.esc →
    step (at_ frame false) a = at_ (frame ++ [a]) false
  escape : ∀ frame, frame.length < n → step (at_ frame false) C.esc = at_ frame true
  quoted : ∀ frame a, frame.length < n → a ≠ C.flag →
    step (at_ frame true) a = at_ (frame ++ [C.unquote a]) false

section
variable {σ : Type*} {n : Nat} {step : σ → α → σ} {at_ : List α → Bool → σ}

theorem Receives.stuff (h : Receives C n step at_) {frame : List α} (hn : frame.length < n)
    (a : α) : run step (at_ frame false) (C.stuff a) = at_ (frame ++ [a]) false := by
  rw [Code.stuff]
  cases hs : C.special a with
  | true =>
    rw [if_pos rfl, Machine.run_cons, Machine.run_cons, Machine.run_nil, h.escape frame hn,
      h.quoted frame _ hn (C.quote_ne_flag a hs), C.unquote_quote a hs]
  | false =>
    rw [if_neg (by simp), Machine.run_cons, Machine.run_nil,
      h.plain frame a hn (C.ne_flag hs) (C.ne_esc hs)]

/-- **A payload that fits is received as it was sent.** -/
theorem Receives.stuffed (h : Receives C n step at_) (payload : List α) {frame : List α}
    (hn : frame.length + payload.length ≤ n) :
    run step (at_ frame false) (C.stuffed payload) = at_ (frame ++ payload) false := by
  induction payload generalizing frame with
  | nil => simp [Code.stuffed]
  | cons a payload ih =>
    rw [List.length_cons] at hn
    have ha := h.stuff (show frame.length < n by omega) a
    rw [Code.stuffed, List.flatMap_cons, Machine.run_append, ha]
    refine (ih (by rw [List.length_append, List.length_singleton]; omega)).trans ?_
    rw [List.append_assoc, List.singleton_append]

end

end Stuffing
