/-
  Digits as they are written: the highest first.

  * `number b ds`: the number that digits stand for;
  * `digitsOf b n w`: the last `n` digits of a number;
  * `cut n ds`: digits with zeros after the first `n`;
  * `roundedTo j m`: a number rounded to a multiple of `10 ^ j`, the half upwards;
  * `roundedTo_split`: the rounding by the digit after the last one that is kept.
-/
import Mathlib

namespace Digits

/-- The number that the digits stand for in the base `b`. -/
def number (b : ℕ) (ds : List ℕ) : ℕ := Nat.ofDigits b ds.reverse

def digitsOf (b : ℕ) : ℕ → ℕ → List ℕ
  | 0, _ => []
  | n + 1, w => digitsOf b n (w / b) ++ [w % b]

/-- The first `n` digits, and zeros for the others. -/
def cut (n : ℕ) (ds : List ℕ) : List ℕ := ds.take n ++ List.replicate (ds.length - n) 0

section
variable {b : ℕ} {ds es : List ℕ}

@[simp] theorem number_nil (b : ℕ) : number b [] = 0 := rfl

@[simp] theorem number_single (b d : ℕ) : number b [d] = d := Nat.ofDigits_singleton

theorem number_append (b : ℕ) (ds es : List ℕ) :
    number b (ds ++ es) = number b ds * b ^ es.length + number b es := by
  unfold number
  rw [List.reverse_append, Nat.ofDigits_append, List.length_reverse]
  ring

theorem number_concat (b : ℕ) (ds : List ℕ) (d : ℕ) :
    number b (ds ++ [d]) = b * number b ds + d := by
  rw [number_append, number_single, List.length_singleton, pow_one, mul_comm]

theorem number_cons (b d : ℕ) (ds : List ℕ) :
    number b (d :: ds) = d * b ^ ds.length + number b ds := by
  have happend := number_append b [d] ds
  rwa [number_single] at happend

theorem number_zeros (b n : ℕ) : number b (List.replicate n 0) = 0 := by
  unfold number
  rw [List.reverse_replicate, Nat.ofDigits_replicate_zero]

theorem number_lt (hb : 1 < b) (h : ∀ d ∈ ds, d < b) : number b ds < b ^ ds.length := by
  unfold number
  rw [← List.length_reverse]
  exact Nat.ofDigits_lt_base_pow_length hb fun d hd => h d (List.mem_reverse.1 hd)

/-- Digits are what the number says. -/
theorem digitsOf_number (hb : 1 < b) (h : ∀ d ∈ ds, d < b) :
    digitsOf b ds.length (number b ds) = ds := by
  induction ds using List.reverseRecOn with
  | nil => rfl
  | append_singleton ds d ih =>
    rw [List.forall_mem_append] at h
    have hd : d < b := h.2 d (List.mem_singleton_self d)
    rw [List.length_append, List.length_singleton, number_concat]
    unfold digitsOf
    rw [Nat.mul_add_div (by omega), Nat.div_eq_of_lt hd, Nat.add_zero, ih h.1, Nat.mul_add_mod,
      Nat.mod_eq_of_lt hd]

/-! Digits with zeros after the first `n`. -/

@[simp] theorem length_cut (n : ℕ) (ds : List ℕ) : (cut n ds).length = ds.length := by
  unfold cut
  rw [List.length_append, List.length_take, List.length_replicate]
  omega

theorem cut_zero_cons (d : ℕ) (ds : List ℕ) : cut 0 (d :: ds) = 0 :: cut 0 ds := by
  simp [cut, List.replicate_succ]

theorem cut_succ_cons (n d : ℕ) (ds : List ℕ) : cut (n + 1) (d :: ds) = d :: cut n ds := by
  simp [cut]

theorem cut_all {n : ℕ} (h : ds.length ≤ n) : cut n ds = ds := by
  unfold cut
  rw [List.take_of_length_le h, Nat.sub_eq_zero_of_le h, List.replicate_zero, List.append_nil]

theorem take_cut (i : ℕ) : ∀ (n : ℕ) (ds : List ℕ), (cut n ds).take i = cut n (ds.take i) := by
  induction i with
  | zero => intro n ds; simp [cut]
  | succ i ih =>
    intro n ds
    cases ds with
    | nil => simp [cut]
    | cons d ds =>
      cases n with
      | zero => rw [cut_zero_cons, List.take_succ_cons, List.take_succ_cons, cut_zero_cons, ih]
      | succ n => rw [cut_succ_cons, List.take_succ_cons, List.take_succ_cons, cut_succ_cons, ih]

theorem drop_cut (i : ℕ) : ∀ (n : ℕ) (ds : List ℕ), (cut n ds).drop i = cut (n - i) (ds.drop i) := by
  induction i with
  | zero => intro n ds; simp
  | succ i ih =>
    intro n ds
    cases ds with
    | nil => simp [cut]
    | cons d ds =>
      cases n with
      | zero =>
        rw [cut_zero_cons, List.drop_succ_cons, List.drop_succ_cons, ih, Nat.zero_sub, Nat.zero_sub]
      | succ n =>
        rw [cut_succ_cons, List.drop_succ_cons, List.drop_succ_cons, ih, Nat.succ_sub_succ]

theorem cut_lt (hb : 0 < b) (h : ∀ d ∈ ds, d < b) (n : ℕ) : ∀ d ∈ cut n ds, d < b := by
  unfold cut
  rw [List.forall_mem_append]
  refine ⟨fun d hd => h d (List.mem_of_mem_take hd), fun d hd => ?_⟩
  rw [List.eq_of_mem_replicate hd]
  exact hb

theorem number_cut (hb : 1 < b) (h : ∀ d ∈ ds, d < b) (n : ℕ) :
    number b (cut n ds) = number b ds / b ^ (ds.length - n) * b ^ (ds.length - n) := by
  have hrest := number_lt hb fun d hd => h d (List.mem_of_mem_drop (i := n) hd)
  have hsplit := number_append b (ds.take n) (ds.drop n)
  rw [List.take_append_drop] at hsplit
  rw [List.length_drop] at hsplit hrest
  have hpos : 0 < b ^ (ds.length - n) := Nat.pow_pos (by omega)
  have hdiv : number b ds / b ^ (ds.length - n) = number b (ds.take n) := by
    rw [hsplit, Nat.mul_comm, Nat.mul_add_div hpos, Nat.div_eq_of_lt hrest, Nat.add_zero]
  unfold cut
  rw [number_append, List.length_replicate, number_zeros, Nat.add_zero, hdiv]

end

/-! ## Rounding -/

/-- The multiple of `10 ^ j` that is next, the half going upwards. -/
def roundedTo (j m : ℕ) : ℕ := if j = 0 then m else (m + 5 * 10 ^ (j - 1)) / 10 ^ j * 10 ^ j

theorem dvd_roundedTo (j m : ℕ) : 10 ^ j ∣ roundedTo j m := by
  unfold roundedTo
  split_ifs with h
  · rw [h, pow_zero]
    exact one_dvd m
  · exact Dvd.intro_left _ rfl

theorem roundedTo_eq_self_iff {j m : ℕ} : roundedTo j m = m ↔ 10 ^ j ∣ m := by
  constructor
  · intro h
    rw [← h]
    exact dvd_roundedTo j m
  · rintro ⟨p, rfl⟩
    unfold roundedTo
    split_ifs with h
    · rfl
    · have hpos : 0 < 10 ^ j := by positivity
      have hhalf : 5 * 10 ^ (j - 1) < 10 ^ j := by
        obtain ⟨i, rfl⟩ := Nat.exists_eq_succ_of_ne_zero h
        rw [Nat.succ_sub_one, pow_succ]
        have hpos : 0 < 10 ^ i := by positivity
        omega
      rw [Nat.mul_add_div hpos, Nat.div_eq_of_lt hhalf, Nat.add_zero, Nat.mul_comm]

/-- What is below the kept digits rounds to nothing when it is below the half. -/
theorem roundedTo_eq_high_iff {p q j n : ℕ} (hj : 1 ≤ j) (hn : j ≤ n) :
    roundedTo j (p * 10 ^ n + q) = p * 10 ^ n ↔ q < 5 * 10 ^ (j - 1) := by
  obtain ⟨i, rfl⟩ := Nat.exists_eq_add_of_le' hj
  have hpow : 10 ^ (i + 1) = 10 * 10 ^ i := by rw [pow_succ, mul_comm]
  have hsplit : p * 10 ^ n = 10 ^ (i + 1) * (p * 10 ^ (n - (i + 1))) := by
    rw [Nat.mul_left_comm, ← pow_add, Nat.add_sub_cancel' hn]
  have hpos : 0 < 10 ^ (i + 1) := by positivity
  have hzero : (q + 5 * 10 ^ i) / 10 ^ (i + 1) = 0 ↔ q < 5 * 10 ^ i := by
    rw [Nat.div_eq_zero_iff_lt hpos, hpow]
    omega
  unfold roundedTo
  rw [if_neg (by omega), Nat.add_sub_cancel, ← hzero, Nat.add_assoc, hsplit, Nat.mul_add_div hpos,
    Nat.add_mul, Nat.mul_comm _ (10 ^ (i + 1)), Nat.add_eq_left, Nat.mul_eq_zero]
  exact or_iff_left hpos.ne'

/-- The digit `d` after those of `p` decides; what follows it does not. -/
theorem roundedTo_split {p d q j : ℕ} (hd : d < 10) (hq : q < 10 ^ j) :
    roundedTo (j + 1) (p * 10 ^ (j + 1) + (d * 10 ^ j + q))
      = if 5 ≤ d then (p + 1) * 10 ^ (j + 1) else p * 10 ^ (j + 1) := by
  have hpow : 10 ^ (j + 1) = 10 * 10 ^ j := by rw [pow_succ, mul_comm]
  unfold roundedTo
  rw [if_neg (Nat.succ_ne_zero j), Nat.add_sub_cancel]
  split_ifs with h5
  · congr 1
    have hle : 5 * 10 ^ j ≤ d * 10 ^ j := Nat.mul_le_mul_right _ h5
    have hlt : d * 10 ^ j ≤ 9 * 10 ^ j := Nat.mul_le_mul_right _ (by omega)
    refine Nat.div_eq_of_lt_le ?_ ?_
    · rw [hpow]
      nlinarith
    · rw [hpow]
      nlinarith
  · congr 1
    have hlt : d * 10 ^ j ≤ 4 * 10 ^ j := Nat.mul_le_mul_right _ (by omega)
    refine Nat.div_eq_of_lt_le ?_ ?_
    · rw [hpow]
      nlinarith
    · rw [hpow]
      nlinarith

end Digits
