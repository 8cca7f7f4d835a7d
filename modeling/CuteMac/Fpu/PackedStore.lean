/-
  Packed stores of the texts of finite doubles, for every k-factor.

  * `StoresDecimal`: the store stays in the text, its digits are decimal, and they are the digits
    of the text, rounded where the k-factor says;
  * `RoundsAlike`: when the characters that the code rounds by are the digits it should round by;
  * `storesDecimal_iff`: the store is right exactly then;
  * `hexadecimal_exponent`: a store whose exponent has two significant digits.
-/
import CuteMac.Fpu.PackedRounding

namespace CuteMac.Fpu

open Digits

/-! ## The words of a text -/

section
variable {front rest : Text} {ds es : List ℕ} {negative expNegative : Bool} {lead : ℕ}

/-- The sign and the first digit in the first word. -/
def leadWord (negative : Bool) (lead : ℕ) : UInt32 :=
  (if negative then (0x80000000 : UInt32) else 0) ||| UInt32.ofNat lead

theorem crackText_printed (hds : ds.length = 16) (hd : ∀ d ∈ ds, d < 10)
    (hlen : es.length = 2 ∨ es.length = 3) (h : ∀ d ∈ es, d < 10) (k : ℤ) :
    crackText (printed front ds expNegative es) front.length (leadWord negative lead) k
      = some (packed negative lead (cut (keptAfter k) ds) expNegative es) := by
  have hall : ds.take 16 = ds := List.take_of_length_le hds.le
  have hword : exponentWord (front ++ ((ds.take 16).map digitChar ++ exponentText expNegative es))
      (front.length + 16)
      = some ((if expNegative then (0x40000000 : UInt32) else 0) ||| (nibbleWord es <<< 16)) := by
    have hplace : front.length + 16 = (front ++ ds.map digitChar).length := by
      rw [List.length_append, List.length_map, hds]
    rw [hall, ← List.append_assoc, hplace]
    exact exponentWord_eq expNegative hlen h
  have hcrack := crackText_eq (leadWord negative lead) hds le_rfl hd (by decide) hword k
  rw [hall, cut_all hds.le] at hcrack
  exact hcrack

/-- The character behind the nine stops the digits, and is no exponent. -/
theorem crackText_stopped {i : ℕ} (hds : ds.length = 16) (hi : i ≤ 16) (hd : ∀ d ∈ ds, d < 10) :
    crackText (front ++ ((ds.take i).map digitChar ++ digitChar 10 :: rest)) front.length
        (leadWord negative lead) 0
      = some (packed negative lead (cut i ds) false [0, 0, 0]) := by
  have hplace : front.length + i = (front ++ (ds.take i).map digitChar).length := by
    rw [List.length_append, List.length_map, List.length_take, hds, min_eq_left hi]
  have hword : exponentWord (front ++ ((ds.take i).map digitChar ++ digitChar 10 :: rest))
      (front.length + i) = some 0 := by
    unfold exponentWord
    rw [← List.append_assoc, hplace, charAt_next]
    rfl
  have hcrack := crackText_eq (leadWord negative lead) hds hi hd (by decide) hword 0
  rw [cut_all (n := keptAfter 0) (by rw [length_cut, hds]; decide)] at hcrack
  exact hcrack

end

namespace Scientific

theorem text_eq (t : Scientific) : t.text = printed t.front t.fraction t.expNegative t.expDigits := rfl

theorem charAt_first (t : Scientific) :
    charAt t.text 0 = some (if t.negative then 0x2d else digitChar t.lead) := by
  unfold text front
  cases t.negative <;> rfl

/-- A store rounds the text where the k-factor is not positive, and takes it as it is elsewhere. -/
theorem storePackFloat80_text (t : Scientific) (k : UInt32) :
    storePackFloat80 t.text k.toInt32.toInt
      = if k.toInt32.toInt ≤ 0 ∧ -13 ≤ k.toInt32.toInt then
          (roundAt t.text t.front.length (t.place k - 1)).bind fun str =>
            crackText str t.front.length (leadWord t.negative t.lead) 0
        else crackText t.text t.front.length (leadWord t.negative t.lead) k.toInt32.toInt := by
  have hlead : ∀ c : UInt8, isDigit c = false → digitChar t.lead ≠ c := by
    intro c hc heq
    rw [← heq, isDigit_digitChar t.lead_lt] at hc
    exact absurd hc (by decide)
  rw [← roundText_text]
  have hminus : digitChar t.lead ≠ 0x2d := hlead _ (by decide)
  have hplus : digitChar t.lead ≠ 0x2b := hlead _ (by decide)
  have hlength : t.front.length = (if t.negative then 1 else 0) + 2 := by
    unfold front
    cases t.negative <;> rfl
  have hdigit : charAt t.text ((if t.negative then 1 else 0 : ℕ) : ℤ) = some (digitChar t.lead) := by
    unfold text front
    cases t.negative <;> rfl
  have hpoint : charAt t.text ((if t.negative then 1 else 0 : ℕ) + 1 : ℕ) = some 0x2e := by
    unfold text front
    cases t.negative <;> rfl
  have hsign : ((if t.negative then (0x2d : UInt8) else digitChar t.lead) = 0x2d) ↔ t.negative := by
    cases t.negative with
    | true => simp
    | false => simp [hminus]
  unfold storePackFloat80
  rw [charAt_first]
  simp only [Option.bind_eq_bind, Option.bind_some, hsign]
  rw [hdigit]
  simp only [Option.bind_some, if_neg hplus]
  rw [hdigit, hpoint]
  simp only [Option.bind_some, if_true]
  rw [digit_digitChar t.lead_lt, ← hlength]
  rfl

/-! ## What a store should leave -/

end Scientific

/-- The factor of a k-factor: its low seven bits with their sign. -/
def factorOf (k : UInt32) : ℤ := ((k.toNat : ℤ) + 64) % 128 - 64

/-- The number of digits that a factor keeps, from the first digit on. -/
def kept (factor exponent : ℤ) : ℤ := if 1 ≤ factor then factor else exponent + 1 - factor

namespace Scientific

/-- The number of digits behind the one that the k-factor selects. -/
def dropped (t : Scientific) (k : UInt32) : ℕ := (17 - kept (factorOf k) t.exponent).toNat

/-- The mantissa rounded at the selected digit, with zeros after it. -/
def roundedMantissa (t : Scientific) (k : UInt32) : ℕ := roundedTo (t.dropped k) t.mantissa

/-- A carry out of the first digit moves the point. -/
def storedMantissa (t : Scientific) (k : UInt32) : ℕ :=
  if t.roundedMantissa k = 10 ^ 17 then 10 ^ 16 else t.roundedMantissa k

def storedExponent (t : Scientific) (k : UInt32) : ℤ :=
  if t.roundedMantissa k = 10 ^ 17 then t.exponent + 1 else t.exponent

/-- The store stays in the text, and what it leaves is decimal and the rounded text. -/
def StoresDecimal (t : Scientific) (k : UInt32) : Prop :=
  ∃ p, storePackFloat80 t.text k.toInt32.toInt = some p
    ∧ (∀ d ∈ p.digits ++ p.expDigits, d ≤ 9)
    ∧ number 10 p.digits = t.storedMantissa k
    ∧ p.exponent = t.storedExponent k

/-- The place `n` decides as the digit before the last `j` ones would. -/
def RoundsAt (t : Scientific) (n : ℤ) (j : ℕ) : Prop :=
  if n ≤ 0 then
    (-3 ≤ n ∧ (n = -3 → t.negative = true))
      ∧ if j ≤ 16 then number 10 t.fraction < 5 * 10 ^ (j - 1) else t.lead = 0
  else if n ≤ 15 then
    ¬(t.fraction.getD (n - 1).toNat 0 = 9 ∧ 5 ≤ t.fraction.getD n.toNat 0)
  else if n = 16 then False
  else n ≤ 18 + t.expDigits.length ∧ t.expDigits.getD (n - 18).toNat 0 < 5 ∧ 10 ^ j ∣ t.mantissa

/-- Where the code rounds as the factor says. -/
def RoundsAlike (t : Scientific) (k : UInt32) : Prop :=
  if k.toInt32.toInt ≤ 0 ∧ -13 ≤ k.toInt32.toInt then t.RoundsAt (t.place k) (t.dropped k)
  else if 1 ≤ k.toInt32.toInt ∧ k.toInt32.toInt ≤ 17 then
    t.fraction.getD (k.toInt32.toInt.toNat - 1) 0 < 5
  else 10 ^ t.dropped k ∣ t.mantissa

section
variable {t : Scientific} {k : UInt32} {ds es : List ℕ} {expNegative : Bool}

/-! ## Numbers -/

theorem mantissa_eq (t : Scientific) :
    t.mantissa = t.lead * 10 ^ 16 + number 10 t.fraction := by
  unfold mantissa
  rw [number_cons, t.fraction_length]

theorem number_fraction_lt (t : Scientific) : number 10 t.fraction < 10 ^ 16 := by
  have hlt := number_lt (b := 10) (by decide) t.fraction_lt
  rwa [t.fraction_length] at hlt

/-- The two readings of the digits of an exponent. -/
theorem exponent_digits (hlen : es.length = 2 ∨ es.length = 3) (h : ∀ d ∈ es, d < 10) :
    ∃ a b c, a < 10 ∧ b < 10 ∧ c < 10 ∧ List.replicate (3 - es.length) 0 ++ es = [a, b, c]
      ∧ number 16 es = 256 * a + (16 * b + c) ∧ number 10 es = 100 * a + (10 * b + c) := by
  have hnumber : ∀ b a d e : ℕ, number b [a, d, e] = b * b * a + (b * d + e) := by
    intro b a d e
    rw [number_cons, number_cons, number_single]
    show a * b ^ 2 + (d * b ^ 1 + e) = _
    ring
  have hzero : ∀ b d e : ℕ, number b [d, e] = b * b * 0 + (b * d + e) := by
    intro b d e
    rw [number_cons, number_single]
    show d * b ^ 1 + e = _
    ring
  rcases hlen with hlen | hlen
  · obtain ⟨b, c, rfl⟩ := List.length_eq_two.1 hlen
    exact ⟨0, b, c, by decide, h b (by simp), h c (by simp), rfl, hzero 16 b c, hzero 10 b c⟩
  · obtain ⟨a, b, c, rfl⟩ := List.length_eq_three.1 hlen
    exact ⟨a, b, c, h a (by simp), h b (by simp), h c (by simp), rfl, hnumber 16 a b c,
      hnumber 10 a b c⟩

theorem factorOf_eq (h : -64 ≤ k.toInt32.toInt ∧ k.toInt32.toInt ≤ 63) :
    factorOf k = k.toInt32.toInt := by
  have hword : k.toInt32.toInt = (k.toNat : ℤ).bmod (2 ^ 32) := BitVec.toInt_eq_toNat_bmod _
  have hlt := k.toNat_lt
  rw [hword] at h ⊢
  unfold factorOf
  rw [Int.bmod_def] at h ⊢
  split_ifs at h ⊢ <;> omega

/-! ## What a store leaves -/

theorem storesDecimal_of_packed
    (hstore : storePackFloat80 t.text k.toInt32.toInt
      = some (packed t.negative t.lead ds expNegative es))
    (hds : ds.length = 16) (hd : ∀ d ∈ ds, d < 10)
    (hlen : es.length = 2 ∨ es.length = 3) (h : ∀ d ∈ es, d < 10) :
    t.StoresDecimal k ↔ number 10 (t.lead :: ds) = t.storedMantissa k
      ∧ (if expNegative then -(number 10 es : ℤ) else number 10 es) = t.storedExponent k := by
  have hdigits := digits_packed t.negative expNegative t.lead_lt (by omega) h hds hd
  have hexpDigits := expDigits_packed t.negative expNegative t.lead_lt (by omega) h ds
  have hexp := exponent_packed t.negative expNegative t.lead_lt (by omega) h ds
  unfold StoresDecimal
  rw [hstore]
  constructor
  · rintro ⟨p, hp, -, hnumber, hexponent⟩
    rw [← Option.some.inj hp] at hnumber hexponent
    rw [← hdigits, ← hexp]
    exact ⟨hnumber, hexponent⟩
  · rintro ⟨hnumber, hexponent⟩
    refine ⟨_, rfl, ?_, by rw [hdigits, hnumber], by rw [hexp, hexponent]⟩
    rw [hdigits, hexpDigits]
    intro d hmem
    have h10 : d < 10 := by
      rcases List.mem_append.1 hmem with hmem | hmem
      · rcases List.mem_cons.1 hmem with rfl | hmem
        · exact t.lead_lt
        · exact hd d hmem
      · rcases List.mem_append.1 hmem with hmem | hmem
        · rw [List.eq_of_mem_replicate hmem]
          decide
        · exact h d hmem
    omega

/-- With the exponent of the text the rounded digits decide; they do not carry out then. -/
theorem storesDecimal_of_digits
    (hstore : storePackFloat80 t.text k.toInt32.toInt
      = some (packed t.negative t.lead ds t.expNegative t.expDigits))
    (hds : ds.length = 16) (hd : ∀ d ∈ ds, d < 10) :
    t.StoresDecimal k ↔ number 10 (t.lead :: ds) = t.roundedMantissa k := by
  have hdigits : ∀ d ∈ t.lead :: ds, d < 10 := List.forall_mem_cons.2 ⟨t.lead_lt, hd⟩
  have hlt := number_lt (b := 10) (by decide) hdigits
  rw [List.length_cons, hds] at hlt
  rw [storesDecimal_of_packed hstore hds hd t.exp_length t.exp_lt]
  show _ ∧ t.exponent = _ ↔ _
  unfold storedMantissa storedExponent
  by_cases hcarry : t.roundedMantissa k = 10 ^ 17
  · rw [if_pos hcarry, if_pos hcarry]
    refine ⟨fun h => ?_, fun h => ?_⟩
    · omega
    · rw [h, hcarry] at hlt
      exact absurd hlt (lt_irrefl _)
  · rw [if_neg hcarry, if_neg hcarry]
    exact and_iff_left rfl

theorem not_storesDecimal_of_none (hstore : storePackFloat80 t.text k.toInt32.toInt = none) :
    ¬t.StoresDecimal k := by
  rintro ⟨p, hp, -⟩
  rw [hstore] at hp
  exact absurd hp.symm (by simp)

/-! ## The digits around a place -/

/-- The digits before a place, as a number. -/
def before (t : Scientific) (i : ℕ) : ℕ := number 10 (t.lead :: t.fraction.take i)

theorem before_succ {i d : ℕ} (hd : t.fraction[i]? = some d) :
    t.before (i + 1) = 10 * t.before i + d := by
  obtain ⟨hi, rfl⟩ := List.getElem?_eq_some_iff.1 hd
  unfold before
  rw [List.take_succ_eq_append_getElem hi, ← List.cons_append, number_concat]

theorem number_zeros_after {i j : ℕ} :
    number 10 (t.lead :: (t.fraction.take i ++ List.replicate j 0)) = t.before i * 10 ^ j := by
  rw [← List.cons_append, number_append, number_zeros, Nat.add_zero, List.length_replicate]
  rfl

theorem roundedMantissa_eq {i d : ℕ} (hd : t.fraction[i]? = some d)
    (hdropped : t.dropped k = 15 - i + 1) :
    t.roundedMantissa k = if 5 ≤ d then (t.before i + 1) * 10 ^ (15 - i + 1)
      else t.before i * 10 ^ (15 - i + 1) := by
  obtain ⟨hi, hget⟩ := List.getElem?_eq_some_iff.1 hd
  have hdlt : d < 10 := t.fraction_lt d (hget ▸ List.getElem_mem hi)
  have hrest := number_lt (b := 10) (by decide) fun e he =>
    t.fraction_lt e (List.mem_of_mem_drop (i := i + 1) he)
  have hlength : (t.fraction.drop (i + 1)).length = 15 - i := by
    rw [List.length_drop, t.fraction_length]
    omega
  rw [hlength] at hrest
  have hdigits : t.lead :: t.fraction
      = (t.lead :: t.fraction.take i) ++ d :: t.fraction.drop (i + 1) := by
    rw [List.cons_append, ← hget, List.cons_getElem_drop_succ, List.take_append_drop]
  have hmantissa : t.mantissa = t.before i * 10 ^ (15 - i + 1)
      + (d * 10 ^ (15 - i) + number 10 (t.fraction.drop (i + 1))) := by
    unfold mantissa before
    rw [hdigits, number_append, number_cons 10 d, List.length_cons, hlength]
  unfold roundedMantissa
  rw [hdropped, hmantissa, roundedTo_split hdlt hrest]

theorem fraction_get {i : ℕ} (hi : i < 16) :
    ∃ d, t.fraction[i]? = some d ∧ d < 10 ∧ t.fraction.getD i 0 = d := by
  have hlt : i < t.fraction.length := by rw [t.fraction_length]; exact hi
  refine ⟨t.fraction[i], List.getElem?_eq_getElem hlt, t.fraction_lt _ (List.getElem_mem hlt), ?_⟩
  rw [List.getD_eq_getElem?_getD, List.getElem?_eq_getElem hlt, Option.getD_some]

/-! ## k-factors without rounding of the text -/

theorem storesDecimal_outside (hk : ¬(k.toInt32.toInt ≤ 0 ∧ -13 ≤ k.toInt32.toInt)) :
    t.StoresDecimal k ↔
      if 1 ≤ k.toInt32.toInt ∧ k.toInt32.toInt ≤ 17 then
        t.fraction.getD (k.toInt32.toInt.toNat - 1) 0 < 5
      else 10 ^ t.dropped k ∣ t.mantissa := by
  have hstore := storePackFloat80_text t k
  rw [if_neg hk, text_eq, crackText_printed t.fraction_length t.fraction_lt t.exp_length t.exp_lt]
    at hstore
  rw [storesDecimal_of_digits hstore (by rw [length_cut, t.fraction_length])
    (cut_lt (by decide) t.fraction_lt _)]
  split_ifs with h17
  · obtain ⟨i, hi⟩ : ∃ i : ℕ, k.toInt32.toInt = i + 1 :=
      ⟨k.toInt32.toInt.toNat - 1, by omega⟩
    have hkept : keptAfter k.toInt32.toInt = i := by
      unfold keptAfter
      rw [if_pos h17.1]
      omega
    have hdropped : t.dropped k = 16 - i := by
      unfold dropped kept
      rw [factorOf_eq (by omega), if_pos h17.1]
      omega
    have hindex : k.toInt32.toInt.toNat - 1 = i := by omega
    rw [hkept, hindex]
    rcases Nat.lt_or_ge i 16 with hlt | hge
    · obtain ⟨d, hd, -, hget⟩ := t.fraction_get hlt
      have hcut : cut i t.fraction = t.fraction.take i ++ List.replicate (15 - i + 1) 0 := by
        unfold cut
        rw [t.fraction_length, show 16 - i = 15 - i + 1 by omega]
      have hpos : 0 < 10 ^ (15 - i + 1) := by positivity
      rw [hget, hcut, number_zeros_after, roundedMantissa_eq hd (by omega)]
      split_ifs with h5
      · refine ⟨fun h => ?_, fun h => absurd h5 (by omega)⟩
        have hsame := Nat.eq_of_mul_eq_mul_right hpos h
        omega
      · exact ⟨fun _ => by omega, fun _ => rfl⟩
    · have hnone : t.fraction.getD i 0 = 0 := by
        rw [List.getD_eq_getElem?_getD, List.getElem?_eq_none (by rw [t.fraction_length]; omega)]
        rfl
      have hzero : t.dropped k = 0 := by omega
      unfold roundedMantissa
      rw [hnone, hzero, cut_all (by rw [t.fraction_length]; omega)]
      exact ⟨fun _ => by decide, fun _ => rfl⟩
  · have hkept : keptAfter k.toInt32.toInt = 16 := by
      unfold keptAfter
      split_ifs <;> omega
    rw [hkept, cut_all t.fraction_length.le, ← roundedTo_eq_self_iff]
    exact eq_comm

/-! ## k-factors that round the text -/

/-- The exponent, with the two readings of its digits. -/
theorem hexExponent_cases (t : Scientific) :
    ∃ a b c : ℕ, a < 10 ∧ b < 10 ∧ c < 10
      ∧ List.replicate (3 - t.expDigits.length) 0 ++ t.expDigits = [a, b, c]
      ∧ ((t.expNegative = false ∧ t.hexExponent = 256 * a + (16 * b + c)
          ∧ t.exponent = 100 * a + (10 * b + c))
        ∨ (t.expNegative = true ∧ t.hexExponent = -(256 * a + (16 * b + c))
          ∧ t.exponent = -(100 * a + (10 * b + c)))) := by
  obtain ⟨a, b, c, ha, hb, hc, hlist, h16, h10⟩ := exponent_digits t.exp_length t.exp_lt
  refine ⟨a, b, c, ha, hb, hc, hlist, ?_⟩
  unfold hexExponent exponent
  rw [h16, h10]
  cases t.expNegative with
  | false => exact Or.inl ⟨rfl, by push_cast; rfl, by push_cast; rfl⟩
  | true => exact Or.inr ⟨rfl, by push_cast; rfl, by push_cast; rfl⟩

theorem dropped_inside (hk : k.toInt32.toInt ≤ 0 ∧ -13 ≤ k.toInt32.toInt) :
    (t.dropped k : ℤ) = max (16 - t.exponent + k.toInt32.toInt) 0 := by
  unfold dropped kept
  rw [factorOf_eq (by omega), if_neg (by omega), Int.toNat_eq_max]
  congr 1
  ring

theorem store_inside (hk : k.toInt32.toInt ≤ 0 ∧ -13 ≤ k.toInt32.toInt) :
    storePackFloat80 t.text k.toInt32.toInt
      = (roundAt t.text t.front.length (t.place k - 1)).bind fun str =>
          crackText str t.front.length (leadWord t.negative t.lead) 0 := by
  rw [storePackFloat80_text, if_pos hk]

theorem length_front (t : Scientific) : t.front.length = if t.negative then 3 else 2 := by
  unfold front
  cases t.negative <;> rfl

/-- The first digit is all that is left exactly where the others round to nothing. -/
theorem lead_rounded_iff (hpos : 1 ≤ t.dropped k) :
    t.lead * 10 ^ 16 = t.roundedMantissa k ↔
      if t.dropped k ≤ 16 then number 10 t.fraction < 5 * 10 ^ (t.dropped k - 1) else t.lead = 0 := by
  unfold roundedMantissa
  rw [mantissa_eq]
  split_ifs with h16
  · rw [← roundedTo_eq_high_iff hpos h16]
    exact eq_comm
  · have hdvd : 10 ^ 17 ∣ roundedTo (t.dropped k) (t.lead * 10 ^ 16 + number 10 t.fraction) :=
      (pow_dvd_pow 10 (by omega)).trans (dvd_roundedTo _ _)
    have hlead := t.lead_lt
    constructor
    · intro h
      rw [← h] at hdvd
      omega
    · intro h
      have hlow := (roundedTo_eq_high_iff (p := 0) (q := number 10 t.fraction) hpos le_rfl).2 (by
        have hpow : 10 ^ 16 ≤ 10 ^ (t.dropped k - 1) := Nat.pow_le_pow_right (by decide) (by omega)
        have hlt := t.number_fraction_lt
        omega)
      rw [Nat.zero_mul, Nat.zero_add] at hlow
      rw [h, Nat.zero_mul, Nat.zero_add, hlow]

/-- The place is before the digits. -/
theorem storesDecimal_before (hk : k.toInt32.toInt ≤ 0 ∧ -13 ≤ k.toInt32.toInt)
    (hn : t.place k ≤ 0) :
    t.StoresDecimal k ↔ (-3 ≤ t.place k ∧ (t.place k = -3 → t.negative = true))
      ∧ if t.dropped k ≤ 16 then number 10 t.fraction < 5 * 10 ^ (t.dropped k - 1)
        else t.lead = 0 := by
  obtain ⟨a, b, c, ha, hb, hc, -, hexp⟩ := t.hexExponent_cases
  have hdropped := dropped_inside (t := t) hk
  have hplace : t.place k = t.hexExponent - k.toInt32.toInt := rfl
  have hpos : 1 ≤ t.dropped k := by omega
  have hlength := t.length_front
  have hzeros : ∀ str, roundAt t.text t.front.length (t.place k - 1) = some str →
      (t.StoresDecimal k ↔ t.lead * 10 ^ 16 = t.roundedMantissa k) := by
    intro str hround
    obtain ⟨front', hfront, rfl⟩ := roundAt_before t.fraction_length hn hround
    have hzero : ∀ d ∈ List.replicate 16 0, d < 10 := fun d hd => by
      rw [List.eq_of_mem_replicate hd]
      decide
    have hstore := store_inside (t := t) hk
    rw [hround, Option.bind_some, ← hfront, crackText_printed List.length_replicate hzero
      t.exp_length t.exp_lt, cut_all (by decide)] at hstore
    rw [storesDecimal_of_digits hstore List.length_replicate hzero, number_cons, number_zeros,
      Nat.add_zero, List.length_replicate]
  rw [← lead_rounded_iff hpos]
  constructor
  · intro h
    rcases hround : roundAt t.text t.front.length (t.place k - 1) with _ | str
    · refine absurd h (not_storesDecimal_of_none ?_)
      rw [store_inside hk, hround]
      rfl
    · refine ⟨?_, (hzeros str hround).1 h⟩
      have hnext : 0 ≤ (t.front.length : ℤ) + t.place k := by
        by_contra hneg
        unfold roundAt at hround
        rw [charAt_neg _ (by omega)] at hround
        exact absurd hround.symm (by simp)
      rw [hlength] at hnext
      split_ifs at hnext with hneg
      · exact ⟨by omega, fun _ => hneg⟩
      · exact ⟨by omega, fun h3 => by omega⟩
  · rintro ⟨⟨h3, hneg⟩, hlead⟩
    have h0 : 0 ≤ (t.front.length : ℤ) + t.place k := by
      rw [hlength]
      split_ifs with hsign
      · omega
      · have hne : t.place k ≠ -3 := fun h => hsign (hneg h)
        omega
    obtain ⟨str, hround⟩ := roundAt_before_some t.expNegative t.expDigits
      t.fraction_length hn h0 (by
        intro next hnext h5
        by_contra hstart
        have hzero : (t.front.length : ℤ) + t.place k = 0 := by omega
        have hfirst := t.charAt_first
        rw [text_eq, ← hzero, hnext] at hfirst
        have hfirst := Option.some.inj hfirst
        rw [hlength] at hzero
        split_ifs at hfirst hzero with hsign
        · rw [hfirst] at h5
          exact absurd h5 (by decide)
        · rw [lead_rounded_iff hpos, if_neg (by omega)] at hlead
          rw [hfirst, hlead] at h5
          exact absurd h5 (by decide))
    exact (hzeros str hround).2 hlead

theorem number_bumped (t : Scientific) (i d j : ℕ) :
    number 10 (t.lead :: (t.fraction.take i ++ d :: List.replicate j 0))
      = (10 * t.before i + d) * 10 ^ j := by
  have hlist : t.lead :: (t.fraction.take i ++ d :: List.replicate j 0)
      = (t.lead :: t.fraction.take i ++ [d]) ++ List.replicate j 0 := by simp
  rw [hlist, number_append, number_concat, number_zeros, Nat.add_zero, List.length_replicate]
  rfl

/-- The digit before the place counts up without a carry. -/
theorem storesDecimal_bumped {i d : ℕ}
    (hk : k.toInt32.toInt ≤ 0 ∧ -13 ≤ k.toInt32.toInt) (hi : i < 16) (hd : d < 10)
    (hround : roundAt t.text t.front.length (t.place k - 1)
      = some (printed t.front (t.fraction.take i ++ d :: List.replicate (15 - i) 0) t.expNegative
          t.expDigits)) :
    t.StoresDecimal k ↔ (10 * t.before i + d) * 10 ^ (15 - i) = t.roundedMantissa k := by
  have hlength : (t.fraction.take i ++ d :: List.replicate (15 - i) 0).length = 16 := by
    have hfraction := t.fraction_length
    simp
    omega
  have hdigits : ∀ e ∈ t.fraction.take i ++ d :: List.replicate (15 - i) 0, e < 10 := by
    rw [List.forall_mem_append, List.forall_mem_cons]
    refine ⟨fun e he => t.fraction_lt e (List.mem_of_mem_take he), hd, fun e he => ?_⟩
    rw [List.eq_of_mem_replicate he]
    decide
  have hstore := store_inside (t := t) hk
  rw [hround, Option.bind_some, crackText_printed hlength hdigits t.exp_length t.exp_lt,
    cut_all (n := keptAfter 0) hlength.le] at hstore
  rw [storesDecimal_of_digits hstore hlength hdigits, number_bumped]

/-- A nine before the place stops the digits and loses the exponent. -/
theorem storesDecimal_carried {i : ℕ}
    (hk : k.toInt32.toInt ≤ 0 ∧ -13 ≤ k.toInt32.toInt) (hi : i < 16)
    (hround : roundAt t.text t.front.length (t.place k - 1)
      = some (printed t.front (t.fraction.take i ++ 10 :: List.replicate (15 - i) 0) t.expNegative
          t.expDigits)) :
    t.StoresDecimal k ↔ t.before i * 10 ^ (16 - i) = t.storedMantissa k
      ∧ 0 = t.storedExponent k := by
  have hshape : printed t.front (t.fraction.take i ++ 10 :: List.replicate (15 - i) 0) t.expNegative
        t.expDigits
      = t.front ++ ((t.fraction.take i).map digitChar ++ digitChar 10 ::
          ((List.replicate (15 - i) 0).map digitChar
            ++ exponentText t.expNegative t.expDigits)) := by
    unfold printed
    simp
  have hcut : cut i t.fraction = t.fraction.take i ++ List.replicate (16 - i) 0 := by
    unfold cut
    rw [t.fraction_length]
  have hstore := store_inside (t := t) hk
  rw [hround, Option.bind_some, hshape, crackText_stopped t.fraction_length hi.le t.fraction_lt]
    at hstore
  rw [storesDecimal_of_packed hstore (by rw [length_cut, t.fraction_length])
    (cut_lt (by decide) t.fraction_lt i) (Or.inr rfl) (by decide), hcut, number_zeros_after]
  rfl

/-- The place is among the digits. -/
theorem storesDecimal_among {i : ℕ} (hk : k.toInt32.toInt ≤ 0 ∧ -13 ≤ k.toInt32.toInt)
    (hi : i < 15) (hn : t.place k = i + 1) :
    t.StoresDecimal k ↔ ¬(t.fraction.getD i 0 = 9 ∧ 5 ≤ t.fraction.getD (i + 1) 0) := by
  obtain ⟨a, b, c, ha, hb, hc, -, hexp⟩ := t.hexExponent_cases
  have hdropped := dropped_inside (t := t) hk
  have hplace : t.place k = t.hexExponent - k.toInt32.toInt := rfl
  obtain ⟨d, hd, hd10, hget⟩ := t.fraction_get (i := i) (by omega)
  obtain ⟨e, he, he10, hnext⟩ := t.fraction_get (i := i + 1) (by omega)
  have hrounded := roundedMantissa_eq (k := k) he (by omega)
  have hindex : 15 - (i + 1) + 1 = 15 - i := by omega
  rw [before_succ hd, hindex] at hrounded
  have hchar : charAt t.text (t.front.length + (i + 1)) = some (digitChar e) := by
    have hmap : (t.fraction.map digitChar ++ exponentText t.expNegative t.expDigits)[i + 1]?
        = some (digitChar e) := by
      rw [List.getElem?_append_left (by rw [List.length_map, t.fraction_length]; omega),
        List.getElem?_map, he]
      rfl
    have hplace : (t.front.length : ℤ) + (i + 1) = (t.front.length + (i + 1) : ℕ) := by push_cast; ring
    rw [hplace]
    exact (charAt_append _ _ _).trans hmap
  have hfive : 0x35 ≤ digitChar e ↔ 5 ≤ e := by
    rw [UInt8.le_iff_toNat_le, toNat_digitChar he10]
    show 0x35 ≤ 0x30 + e ↔ _
    omega
  have hround := roundAt_within t.fraction_length hd hd10 hchar
  have hbefore : t.place k - 1 = i := by omega
  rw [hget, hnext]
  simp only [hfive] at hround
  by_cases hcarry : d = 9 ∧ 5 ≤ e
  · rw [if_pos hcarry.2, hcarry.1] at hround
    rw [if_pos hcarry.2, hcarry.1] at hrounded
    rw [storesDecimal_carried (i := i) hk (by omega) (by rw [hbefore]; exact hround)]
    refine iff_of_false (fun h => ?_) (fun h => h hcarry)
    have hpow : 10 ^ (16 - i) = 10 * 10 ^ (15 - i) := by
      rw [show 16 - i = 15 - i + 1 by omega, pow_succ, mul_comm]
    have hle : 10 ^ (16 - i) ≤ 10 ^ 16 := Nat.pow_le_pow_right (by decide) (by omega)
    have hpos : 0 < 10 ^ (16 - i) := by positivity
    have hup : t.roundedMantissa k = t.before i * 10 ^ (16 - i) + 10 ^ (16 - i) := by
      rw [hrounded, hpow]
      ring
    have hstored := h.1
    unfold storedMantissa at hstored
    split_ifs at hstored <;> omega
  · have hbumped : (if 5 ≤ e then d + 1 else d) < 10 := by split_ifs <;> omega
    rw [storesDecimal_bumped (i := i) hk (by omega) hbumped (by rw [hbefore]; exact hround), hrounded]
    refine iff_of_true ?_ hcarry
    split_ifs <;> ring

/-- The character behind the last digit always counts it up. -/
theorem not_storesDecimal_behind (hk : k.toInt32.toInt ≤ 0 ∧ -13 ≤ k.toInt32.toInt)
    (hn : t.place k = 16) : ¬t.StoresDecimal k := by
  obtain ⟨a, b, c, ha, hb, hc, -, hexp⟩ := t.hexExponent_cases
  have hplace : t.place k = t.hexExponent - k.toInt32.toInt := rfl
  obtain ⟨d, hd, hd10, -⟩ := t.fraction_get (i := 15) (by decide)
  have hchar : charAt t.text (t.front.length + ((15 : ℕ) + 1)) = some 0x65 :=
    charAt_behind t.fraction_length t.front t.expNegative t.expDigits 0
  have hround := roundAt_within t.fraction_length hd hd10 hchar
  have hbefore : t.place k - 1 = (15 : ℕ) := by omega
  rw [if_pos (by decide), ← text_eq, ← hbefore] at hround
  by_cases hnine : d = 9
  · rw [hnine] at hround
    rw [storesDecimal_carried hk (by decide) hround]
    rintro ⟨-, h⟩
    unfold storedExponent at h
    split_ifs at h <;> omega
  · rw [storesDecimal_bumped hk (by decide) (by omega) hround]
    intro h
    have hmantissa : t.mantissa = 10 * t.before 15 + d := by
      rw [← before_succ hd]
      unfold mantissa before
      rw [List.take_of_length_le t.fraction_length.le]
    have hdvd : 10 ^ t.dropped k ∣ t.roundedMantissa k := dvd_roundedTo _ _
    rcases Nat.eq_zero_or_pos (t.dropped k) with hzero | hpos
    · unfold roundedMantissa at h
      rw [hzero, hmantissa] at h
      have hsame : roundedTo 0 (10 * t.before 15 + d) = 10 * t.before 15 + d := rfl
      omega
    · have hten : 10 ∣ t.roundedMantissa k := (dvd_pow_self 10 hpos.ne').trans hdvd
      omega

/-- The digits of the exponent that decide; before them is the sign, behind them the terminator. -/
theorem exponentText_digit (expNegative : Bool) (h : ∀ d ∈ es, d < 10) {i : ℕ} (hi : i ≤ es.length) :
    ∃ next, (exponentText expNegative es)[i + 2]? = some next
      ∧ (0x35 ≤ next ↔ 5 ≤ es.getD i 0) := by
  have hget : (exponentText expNegative es)[i + 2]? = (es.map digitChar ++ [0])[i]? := rfl
  rw [hget]
  rcases Nat.lt_or_eq_of_le hi with hlt | heq
  · have hd10 := h _ (List.getElem_mem hlt)
    refine ⟨digitChar es[i], ?_, ?_⟩
    · rw [List.getElem?_append_left (by rw [List.length_map]; exact hlt), List.getElem?_map,
        List.getElem?_eq_getElem hlt]
      rfl
    · rw [List.getD_eq_getElem?_getD, List.getElem?_eq_getElem hlt, UInt8.le_iff_toNat_le,
        toNat_digitChar hd10]
      show 0x35 ≤ 0x30 + es[i] ↔ 5 ≤ es[i]
      omega
  · refine ⟨0, ?_, ?_⟩
    · rw [List.getElem?_append_right (by rw [List.length_map]; omega), List.length_map, heq,
        Nat.sub_self]
      rfl
    · rw [List.getD_eq_getElem?_getD, List.getElem?_eq_none heq.ge]
      decide

/-- The place is in the exponent, and nothing counts up. -/
theorem storesDecimal_kept (hk : k.toInt32.toInt ≤ 0 ∧ -13 ≤ k.toInt32.toInt)
    (hround : roundAt t.text t.front.length (t.place k - 1) = some t.text) :
    t.StoresDecimal k ↔ 10 ^ t.dropped k ∣ t.mantissa := by
  have hstore := store_inside (t := t) hk
  rw [hround, Option.bind_some, text_eq, crackText_printed t.fraction_length t.fraction_lt
    t.exp_length t.exp_lt, cut_all (n := keptAfter 0) t.fraction_length.le] at hstore
  rw [storesDecimal_of_digits hstore t.fraction_length t.fraction_lt, ← roundedTo_eq_self_iff]
  exact eq_comm

/-- A digit of the exponent counts up. -/
theorem not_storesDecimal_exponent (hk : k.toInt32.toInt ≤ 0 ∧ -13 ≤ k.toInt32.toInt)
    (hpositive : t.expNegative = false)
    (hlen : es.length = 2 ∨ es.length = 3) (h : ∀ d ∈ es, d < 10)
    (hround : roundAt t.text t.front.length (t.place k - 1)
      = some (printed t.front t.fraction t.expNegative es))
    (hexp : t.exponent + 1 < (number 10 es : ℤ)) : ¬t.StoresDecimal k := by
  have hstore := store_inside (t := t) hk
  rw [hround, Option.bind_some, crackText_printed t.fraction_length t.fraction_lt hlen h,
    cut_all (n := keptAfter 0) t.fraction_length.le] at hstore
  rw [storesDecimal_of_packed hstore t.fraction_length t.fraction_lt hlen h, hpositive]
  rintro ⟨-, hstored⟩
  rw [if_neg Bool.false_ne_true] at hstored
  unfold storedExponent at hstored
  split_ifs at hstored <;> omega

/-- The place is behind the digits. -/
theorem storesDecimal_after {i : ℕ} (hk : k.toInt32.toInt ≤ 0 ∧ -13 ≤ k.toInt32.toInt)
    (hn : t.place k = 17 + i) :
    t.StoresDecimal k ↔ i ≤ 1 + t.expDigits.length ∧ t.expDigits.getD (i - 1) 0 < 5
      ∧ 10 ^ t.dropped k ∣ t.mantissa := by
  obtain ⟨a, b, c, ha, hb, hc, hlist, hexp⟩ := t.hexExponent_cases
  have hplace : t.place k = t.hexExponent - k.toInt32.toInt := rfl
  have hbefore : t.place k - 1 = 16 + i := by omega
  have hlength : (exponentText t.expNegative t.expDigits).length = 3 + t.expDigits.length := by
    unfold exponentText
    simp
    omega
  obtain ⟨hpositive, hhex, hdec⟩ : t.expNegative = false
      ∧ t.hexExponent = 256 * a + (16 * b + c) ∧ t.exponent = 100 * a + (10 * b + c) := by
    rcases hexp with hexp | hexp
    · exact hexp
    · omega
  have hlen := t.exp_length
  have hdigits : t.expDigits = [b, c] ∨ t.expDigits = [a, b, c] := by
    rcases hlen with hlen | hlen
    · rw [hlen] at hlist
      exact Or.inl (List.cons.inj hlist).2
    · rw [hlen] at hlist
      exact Or.inr hlist
  rcases Nat.lt_or_ge (1 + t.expDigits.length) i with hout | hin
  · refine iff_of_false (not_storesDecimal_of_none ?_) (fun h => by omega)
    rw [store_inside hk, hbefore, text_eq, roundAt_outside t.fraction_length (by omega)]
    rfl
  · cases i with
    | zero =>
      have hfirst : (exponentText t.expNegative t.expDigits)[0]? = some 0x65 := rfl
      have hround := roundAt_after t.front t.fraction_length hfirst rfl
      rw [if_neg (by cases t.expNegative <;> decide), ← text_eq, ← hbefore] at hround
      have hfirst : t.expDigits.getD (0 - 1) 0 < 5 := by
        rcases hdigits with hdigits | hdigits
        · rw [hdigits]
          show b < 5
          omega
        · rw [hdigits]
          show a < 5
          omega
      rw [storesDecimal_kept hk hround]
      exact ⟨fun h => ⟨hin, hfirst, h⟩, fun h => h.2.2⟩
    | succ i =>
      obtain ⟨next, hnext, hfive⟩ := exponentText_digit t.expNegative t.exp_lt (i := i) (by omega)
      have hlast : i + 1 < (exponentText t.expNegative t.expDigits).length := by omega
      have hround := roundAt_after t.front t.fraction_length
        (List.getElem?_eq_getElem hlast) hnext
      rw [← text_eq, ← hbefore] at hround
      rw [Nat.add_sub_cancel]
      by_cases h5 : 5 ≤ t.expDigits.getD i 0
      · refine iff_of_false ?_ (fun h => by omega)
        rw [if_pos (hfive.2 h5)] at hround
        rcases hdigits with hdigits | hdigits
        · simp only [hdigits] at hround h5
          have hunits : i = 1 ∧ 5 ≤ c := by
            rcases i with _ | _ | i
            · have hb5 : 5 ≤ b := h5
              omega
            · exact ⟨rfl, h5⟩
            · exact absurd h5 (by simp)
          obtain ⟨rfl, hc5⟩ := hunits
          obtain rfl : b = 0 := by omega
          have hnumber : number 10 [1, c] = 1 * 10 ^ 1 + c := by rw [number_cons, number_single]; rfl
          have hten : ∀ d ∈ [1, c], d < 10 := by simp; omega
          exact not_storesDecimal_exponent hk hpositive (Or.inl rfl) hten (hround.trans rfl)
            (by rw [hnumber]; push_cast; omega)
        · simp only [hdigits] at hround h5
          have hunits : i = 2 ∧ 5 ≤ c := by
            rcases i with _ | _ | _ | i
            · have ha5 : 5 ≤ a := h5
              omega
            · have hb5 : 5 ≤ b := h5
              omega
            · exact ⟨rfl, h5⟩
            · exact absurd h5 (by simp)
          obtain ⟨rfl, hc5⟩ := hunits
          obtain rfl : a = 0 := by omega
          obtain rfl : b = 0 := by omega
          have hnumber : number 10 [0, 1, c] = 1 * 10 ^ 1 + c := by
            rw [number_cons, number_cons, number_single, Nat.zero_mul, Nat.zero_add]
            rfl
          have hten : ∀ d ∈ [0, 1, c], d < 10 := by simp; omega
          exact not_storesDecimal_exponent hk hpositive (Or.inr rfl) hten (hround.trans rfl)
            (by rw [hnumber]; push_cast; omega)
      · rw [if_neg (fun h => h5 (hfive.1 h))] at hround
        rw [storesDecimal_kept hk hround]
        exact ⟨fun h => ⟨hin, by omega, h⟩, fun h => h.2.2⟩

end

/-! ## Every text and every k-factor -/

/-- A packed store leaves the rounded decimal text exactly where it rounds by the right digit. -/
theorem storesDecimal_iff (t : Scientific) (k : UInt32) : t.StoresDecimal k ↔ t.RoundsAlike k := by
  unfold RoundsAlike
  by_cases hk : k.toInt32.toInt ≤ 0 ∧ -13 ≤ k.toInt32.toInt
  · rw [if_pos hk]
    unfold RoundsAt
    rcases Int.lt_or_le 0 (t.place k) with hpos | h0
    · rw [if_neg (by omega)]
      obtain ⟨i, hi⟩ := Int.eq_ofNat_of_zero_le (show 0 ≤ t.place k - 1 by omega)
      have hn : t.place k = i + 1 := by omega
      rcases Nat.lt_trichotomy i 15 with hlt | heq | hgt
      · have hindex : (t.place k).toNat = i + 1 := by omega
        rw [if_pos (by omega), hi, hindex]
        exact storesDecimal_among hk hlt hn
      · rw [if_neg (by omega), if_pos (by omega)]
        exact iff_of_false (not_storesDecimal_behind hk (by omega)) id
      · obtain ⟨j, rfl⟩ := Nat.exists_eq_add_of_le hgt
        have hindex : (t.place k - 18).toNat = j - 1 := by omega
        have hbound : t.place k ≤ 18 + t.expDigits.length ↔ j ≤ 1 + t.expDigits.length := by omega
        rw [if_neg (by omega), if_neg (by omega), hindex, hbound]
        exact storesDecimal_after hk (by omega)
    · rw [if_pos h0]
      exact storesDecimal_before hk h0
  · rw [if_neg hk]
    exact storesDecimal_outside hk

/-- `1.2345678901234567e+10` with the factor zero. -/
def tenBillion : Scientific where
  negative := false
  lead := 1
  fraction := [2, 3, 4, 5, 6, 7, 8, 9, 0, 1, 2, 3, 4, 5, 6, 7]
  expNegative := false
  expDigits := [1, 0]
  lead_lt := by decide
  fraction_length := rfl
  fraction_lt := by decide
  exp_length := Or.inl rfl
  exp_lt := by decide

/-- The exponent ten is read as sixteen, and the last digit counts up. -/
theorem hexadecimal_exponent : ¬∀ (t : Scientific) (k : UInt32), t.StoresDecimal k := by
  intro h
  obtain ⟨p, hp, -, hdigits, -⟩ := h tenBillion 0
  have hstore : storePackFloat80 tenBillion.text (0 : UInt32).toInt32.toInt
      = some ⟨0x00100001, 0x23456789, 0x01234568⟩ := by decide
  rw [hstore] at hp
  rw [← Option.some.inj hp] at hdigits
  revert hdigits
  decide

end Scientific

end CuteMac.Fpu
