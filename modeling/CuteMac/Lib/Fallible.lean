/-
  Loops whose body can fail.

  * `isSome_mapM`: a map succeeds where it succeeds for every element;
    `mapM_map_eq_some` gives the result;
  * `isSome_foldlM`: a fold whose every step succeeds;
  * `mapM_eq_ok`, `forM_eq_ok`: loops that end with the first error.
-/
import Mathlib.Data.List.Basic
import Mathlib.Data.List.Forall2

namespace Fallible

variable {α β σ : Type*}

theorem isSome_mapM {f : α → Option β} {l : List α} :
    (l.mapM f).isSome ↔ ∀ a ∈ l, (f a).isSome := by
  induction l with
  | nil => simp
  | cons a l ih =>
    rw [List.mapM_cons, List.forall_mem_cons, ← ih]
    cases f a with
    | none => simp
    | some b =>
      cases l.mapM f with
      | none => simp
      | some bs => simp

/-- A map over what another made of a list, where it gives each element `h`. -/
theorem mapM_map_eq_some {γ : Type*} {f : β → Option γ} {g : α → β} {h : α → γ} {l : List α}
    (hf : ∀ a ∈ l, f (g a) = some (h a)) : (l.map g).mapM f = some (l.map h) := by
  induction l with
  | nil => rfl
  | cons a l ih =>
    obtain ⟨ha, hl⟩ := List.forall_mem_cons.mp hf
    rw [List.map_cons, List.mapM_cons, ha, ih hl]
    rfl

theorem isSome_foldlM {f : σ → α → Option σ} {l : List α} (h : ∀ s, ∀ a ∈ l, (f s a).isSome) :
    ∀ s, (l.foldlM f s).isSome := by
  induction l with
  | nil => exact fun s => rfl
  | cons a l ih =>
    intro s
    obtain ⟨s', hs'⟩ := Option.isSome_iff_exists.1 (h s a List.mem_cons_self)
    rw [List.foldlM_cons, hs']
    exact ih (fun s b hb => h s b (List.mem_cons_of_mem _ hb)) s'

variable {ε : Type*}

theorem mapM_eq_ok {f : α → Except ε β} {l : List α} {bs : List β} :
    l.mapM f = .ok bs ↔ List.Forall₂ (fun a b => f a = .ok b) l bs := by
  induction l generalizing bs with
  | nil =>
    rw [List.forall₂_nil_left_iff]
    exact ⟨fun h => (Except.ok.inj h).symm, fun h => by rw [h]; rfl⟩
  | cons a l ih =>
    rw [List.mapM_cons, List.forall₂_cons_left_iff]
    rcases hf : f a with e | b
    · constructor
      · intro h
        cases h
      · rintro ⟨b, -, h, -⟩
        cases h
    · rcases hl : l.mapM f with e | bs'
      · constructor
        · intro h
          cases h
        · rintro ⟨c, cs, -, hcs, -⟩
          rw [← ih, hl] at hcs
          cases hcs
      · constructor
        · intro h
          cases h
          exact ⟨b, bs', rfl, ih.1 hl, rfl⟩
        · rintro ⟨c, cs, hc, hcs, rfl⟩
          cases hc
          rw [← ih, hl] at hcs
          cases hcs
          rfl

theorem forM_eq_ok {f : α → Except ε Unit} {l : List α} :
    l.forM f = .ok () ↔ ∀ a ∈ l, f a = .ok () := by
  induction l with
  | nil => exact ⟨fun _ a ha => absurd ha List.not_mem_nil, fun _ => rfl⟩
  | cons a l ih =>
    have hcons : (a :: l).forM f = f a >>= fun _ => l.forM f := rfl
    rw [hcons, List.forall_mem_cons, ← ih]
    rcases f a with e | u
    · constructor
      · rintro ⟨⟩
      · rintro ⟨⟨⟩, -⟩
    · exact ⟨fun h => ⟨rfl, h⟩, fun h => h.2⟩

end Fallible
