/-
  Recognisers of a word that begin anew at every mismatch.

  The input of a recogniser is a stream of letters, and of `none` for what is no letter.

  * `advance`: the letters of the word that are matched after an input;
  * `count`: the letters matched after a stream; a whole word is not counted on;
  * `count_attempt`: they are the last ones of the stream;
  * `hits_iff`: which streams end with a word that is recognised.

  A mismatch is not looked at again, so that a word is missed that begins within an
  attempt.
-/
import Mathlib.Data.List.Induction
import Mathlib.Tactic.SplitIfs

namespace Recogniser

variable {α : Type*} [DecidableEq α] (word : List α)

def advance (n : Nat) (x : Option α) : Nat := if x.isSome ∧ x = word[n]? then n + 1 else 0

/-- The next input completes the word. -/
def Hits (n : Nat) (x : Option α) : Prop := advance word n x = word.length

instance (n : Nat) (x : Option α) : Decidable (Hits word n x) :=
  inferInstanceAs (Decidable (_ = _))

def next (n : Nat) (x : Option α) : Nat := if Hits word n x then 0 else advance word n x

def count (xs : List (Option α)) : Nat := xs.foldl (next word) 0

variable {word} {n : Nat} {x : Option α} {xs pre : List (Option α)}

theorem count_append_singleton (xs : List (Option α)) (x : Option α) :
    count word (xs ++ [x]) = next word (count word xs) x := by
  simp [count]

theorem advance_none (n : Nat) : advance word n none = 0 := if_neg fun h => by cases h.1

theorem advance_of_ne_zero (h : advance word n x ≠ 0) :
    advance word n x = n + 1 ∧ ∃ a, x = some a ∧ word[n]? = some a := by
  unfold advance at h ⊢
  split_ifs at h ⊢ with hx
  · obtain ⟨a, rfl⟩ := Option.isSome_iff_exists.1 hx.1
    exact ⟨rfl, a, rfl, hx.2.symm⟩
  · exact absurd rfl h

theorem advance_getElem (h : n < word.length) : advance word n (some word[n]) = n + 1 :=
  if_pos ⟨rfl, (List.getElem?_eq_getElem h).symm⟩

/-- The letters that are matched are the last ones of the stream. -/
theorem count_attempt (xs : List (Option α)) :
    ∃ pre, xs = pre ++ (word.take (count word xs)).map some ∧ count word pre = 0 := by
  induction xs using List.reverseRecOn with
  | nil => exact ⟨[], rfl, rfl⟩
  | append_singleton xs x ih =>
    obtain ⟨pre, hxs, hpre⟩ := ih
    by_cases h0 : count word (xs ++ [x]) = 0
    · refine ⟨xs ++ [x], ?_, h0⟩
      rw [h0, List.take_zero, List.map_nil, List.append_nil]
    · rw [count_append_singleton] at h0 ⊢
      have hnext : next word (count word xs) x = advance word (count word xs) x := by
        unfold next at h0 ⊢
        split_ifs at h0 ⊢
        · exact absurd rfl h0
        · rfl
      rw [hnext] at h0 ⊢
      obtain ⟨hadvance, a, rfl, ha⟩ := advance_of_ne_zero h0
      refine ⟨pre, ?_, hpre⟩
      rw [hadvance, List.take_add_one, ha, Option.toList_some, List.map_append, ← List.append_assoc,
        ← hxs]
      rfl

/-- A word is counted letter by letter where no attempt is unfinished. -/
theorem count_take (hpre : count word pre = 0) (hn : n < word.length) :
    count word (pre ++ (word.take n).map some) = n := by
  induction n with
  | zero => simpa using hpre
  | succ n ih =>
    have hlt : n < word.length := Nat.lt_of_succ_lt hn
    rw [List.take_add_one, List.getElem?_eq_getElem hlt, Option.toList_some, List.map_append,
      ← List.append_assoc]
    show count word (_ ++ [some word[n]]) = n + 1
    rw [count_append_singleton, ih hlt, next, if_neg, advance_getElem hlt]
    rw [Hits, advance_getElem hlt]
    exact Nat.ne_of_lt hn

/-- A word is recognised where no attempt is unfinished in front of it. -/
theorem hits_iff (hword : word ≠ []) (xs : List (Option α)) (x : Option α) :
    Hits word (count word xs) x ↔
      ∃ pre, xs ++ [x] = pre ++ word.map some ∧ count word pre = 0 := by
  have hpos : 0 < word.length := List.length_pos_iff.2 hword
  constructor
  · intro h
    have hne : advance word (count word xs) x ≠ 0 := by
      rw [show advance word (count word xs) x = word.length from h]
      exact Nat.ne_of_gt hpos
    obtain ⟨hadvance, a, rfl, ha⟩ := advance_of_ne_zero hne
    obtain ⟨pre, hxs, hpre⟩ : ∃ pre, xs = pre ++ (word.take (count word xs)).map some ∧
        count word pre = 0 := count_attempt xs
    have hlength : count word xs + 1 = word.length := hadvance.symm.trans h
    refine ⟨pre, ?_, hpre⟩
    have htake : word = word.take (count word xs) ++ [a] := by
      conv_lhs => rw [← List.take_length (l := word), ← hlength]
      rw [List.take_add_one, ha, Option.toList_some]
    conv_rhs => rw [htake]
    rw [List.map_append, ← List.append_assoc, ← hxs]
    rfl
  · rintro ⟨pre, hxs, hpre⟩
    have hlast : word.length - 1 < word.length := Nat.sub_lt hpos Nat.one_pos
    have hsplit : word = word.take (word.length - 1) ++ [word[word.length - 1]] := by
      conv_lhs => rw [← List.take_length (l := word), show word.length = word.length - 1 + 1 by omega]
      rw [List.take_add_one, List.getElem?_eq_getElem hlast, Option.toList_some]
    rw [hsplit, List.map_append, ← List.append_assoc] at hxs
    obtain ⟨hinit, hx⟩ := List.append_inj' hxs rfl
    have hx' : x = some word[word.length - 1] := List.singleton_inj.1 hx
    rw [hx', hinit, count_take hpre hlast, Hits, advance_getElem hlast]
    omega

end Recogniser
