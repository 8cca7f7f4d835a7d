/-
  What a packed store reads out of a text.

  * `Scientific`: the texts that `%.16e` prints for a finite double;
  * `packed`: the words of a sign, digits and an exponent;
  * `crackText_eq`: the words that are read from the digits on, up to what stops them;
  * `digits_packed`, `exponent_packed`: the words say what the text says.
-/
import CuteMac.Fpu.PackedDecimal
import CuteMac.Lib.Digits

namespace CuteMac.Fpu

open Digits

/-! ## Texts -/

def digitChar (d : ℕ) : UInt8 := UInt8.ofNat (0x30 + d)

/-- The part of a text from its exponent on. -/
def exponentText (negative : Bool) (es : List ℕ) : Text :=
  0x65 :: (if negative then 0x2d else 0x2b) :: (es.map digitChar ++ [0])

/-- A number in the form `-d.dddddddddddddddde-dd`. -/
structure Scientific where
  negative : Bool
  lead : ℕ
  fraction : List ℕ
  expNegative : Bool
  expDigits : List ℕ
  lead_lt : lead < 10
  fraction_length : fraction.length = 16
  fraction_lt : ∀ d ∈ fraction, d < 10
  exp_length : expDigits.length = 2 ∨ expDigits.length = 3
  exp_lt : ∀ d ∈ expDigits, d < 10

namespace Scientific

/-- The characters before the digits after the point. -/
def front (t : Scientific) : Text :=
  (if t.negative then [0x2d] else []) ++ [digitChar t.lead, 0x2e]

/-- The text with its terminator. -/
def text (t : Scientific) : Text :=
  t.front ++ (t.fraction.map digitChar ++ exponentText t.expNegative t.expDigits)

/-- The digits without the point, as a number. -/
def mantissa (t : Scientific) : ℕ := number 10 (t.lead :: t.fraction)

def exponent (t : Scientific) : ℤ :=
  if t.expNegative then -(number 10 t.expDigits : ℤ) else number 10 t.expDigits

end Scientific

/-! ## Words -/

def pushNibble (w : UInt32) (d : ℕ) : UInt32 := (w <<< 4) ||| UInt32.ofNat d

/-- Digits as four bits each. -/
def nibbleWord (ds : List ℕ) : UInt32 := ds.foldl pushNibble 0

/-- The words of a sign, the digits, and an exponent. -/
def packed (negative : Bool) (lead : ℕ) (ds : List ℕ) (expNegative : Bool) (es : List ℕ) : Packed where
  dw1 := ((if negative then (0x80000000 : UInt32) else 0) ||| UInt32.ofNat lead) |||
    ((if expNegative then (0x40000000 : UInt32) else 0) ||| (nibbleWord es <<< 16))
  dw2 := nibbleWord (ds.take 8)
  dw3 := nibbleWord (ds.drop 8)

namespace Packed

/-- The digits of the mantissa in the words. -/
def digits (p : Packed) : List ℕ :=
  (p.dw1.toNat % 16) :: (digitsOf 16 8 p.dw2.toNat ++ digitsOf 16 8 p.dw3.toNat)

def expDigits (p : Packed) : List ℕ := digitsOf 16 3 (p.dw1.toNat / 2 ^ 16 % 2 ^ 12)

def exponent (p : Packed) : ℤ :=
  if p.dw1.toNat / 2 ^ 30 % 2 = 1 then -(number 10 p.expDigits : ℤ) else number 10 p.expDigits

end Packed

/-! ## Digits of a text -/

section
variable {ds es : List ℕ} {front rest : Text}

theorem toNat_digitChar {d : ℕ} (h : d < 10) : (digitChar d).toNat = 0x30 + d := by
  unfold digitChar
  rw [UInt8.toNat_ofNat']
  omega

theorem isDigit_digitChar {d : ℕ} (h : d < 10) : isDigit (digitChar d) = true := by
  have hchar := toNat_digitChar h
  unfold isDigit
  rw [Bool.and_eq_true, decide_eq_true_eq, decide_eq_true_eq, UInt8.le_iff_toNat_le,
    UInt8.le_iff_toNat_le, hchar]
  exact ⟨Nat.le_add_right _ _, by show 0x30 + d ≤ 0x39; omega⟩

theorem digit_digitChar {d : ℕ} (h : d < 10) :
    (digitChar d).toUInt32 - 0x30 = UInt32.ofNat d := by
  rw [← UInt32.toNat_inj, UInt32.toNat_sub, UInt8.toNat_toUInt32, toNat_digitChar h,
    UInt32.toNat_ofNat']
  show (2 ^ 32 - 0x30 + (0x30 + d)) % 2 ^ 32 = d % 2 ^ 32
  omega

/-- The character at a place in a text. -/
theorem charAt_append (front rest : Text) (i : ℕ) :
    charAt (front ++ rest) (front.length + i : ℕ) = rest[i]? := by
  unfold charAt
  rw [if_pos (Int.natCast_nonneg _), Int.toNat_natCast, List.getElem?_append_right (by omega),
    Nat.add_sub_cancel_left]

theorem charAt_next (front : Text) (c : UInt8) (rest : Text) :
    charAt (front ++ c :: rest) front.length = some c := by
  have happend := charAt_append front (c :: rest) 0
  rwa [Nat.add_zero] at happend

/-- Digits are read up to a character that is none; it stays, and stands for zeros. -/
theorem crackDigits_eq (front rest : Text) {c : UInt8} (h : ∀ d ∈ ds, d < 10) (hc : isDigit c = false) (n : ℕ)
    (w : UInt32) :
    crackDigits (front ++ (ds.map digitChar ++ c :: rest)) n w front.length
      = some ((ds.take n ++ List.replicate (n - ds.length) 0).foldl pushNibble w,
          front.length + min n ds.length) := by
  induction n generalizing front ds w with
  | zero => simp [crackDigits]
  | succ n ih =>
    unfold crackDigits
    cases ds with
    | nil =>
      have hstay := ih front (List.forall_mem_nil _) (w <<< 4)
      have hzero : pushNibble w 0 = w <<< 4 := UInt32.or_zero
      rw [List.map_nil, List.nil_append] at hstay ⊢
      rw [charAt_next, Option.bind_eq_bind, Option.bind_some, if_neg (by rw [hc]; decide), hstay]
      simp [List.replicate_succ, hzero]
    | cons d ds =>
      rw [List.forall_mem_cons] at h
      have hchar : charAt (front ++ ((d :: ds).map digitChar ++ c :: rest)) (front.length : ℕ)
          = some (digitChar d) := charAt_next front _ _
      have hnext : front ++ ((d :: ds).map digitChar ++ c :: rest)
          = (front ++ [digitChar d]) ++ (ds.map digitChar ++ c :: rest) := by simp
      have hplace : front.length + 1 = (front ++ [digitChar d]).length := by
        rw [List.length_append, List.length_singleton]
      rw [hchar, Option.bind_eq_bind, Option.bind_some, if_pos (isDigit_digitChar h.1),
        digit_digitChar h.1, hnext, hplace, ih _ h.2, ← hplace, List.length_cons, List.take_succ_cons,
        Nat.succ_sub_succ, List.cons_append, List.foldl_cons, Nat.succ_min_succ]
      congr 2
      omega

theorem crackExponent_digits (h : ∀ d ∈ es, d < 10) (n : ℕ) (w : UInt32) :
    crackExponent (front ++ (es.map digitChar ++ rest)) (es.length + n) w front.length
      = crackExponent (front ++ (es.map digitChar ++ rest)) n
          (es.foldl pushNibble w) (front.length + es.length) := by
  induction es generalizing front w with
  | nil => rw [List.length_nil, Nat.zero_add]; rfl
  | cons d es ih =>
    rw [List.forall_mem_cons] at h
    have hlength : (d :: es).length + n = (es.length + n) + 1 := by
      rw [List.length_cons]
      omega
    have hnext : front ++ ((d :: es).map digitChar ++ rest)
        = (front ++ [digitChar d]) ++ (es.map digitChar ++ rest) := by simp
    have hplace : front.length + 1 = (front ++ [digitChar d]).length := by simp
    rw [hlength]
    conv_lhs => unfold crackExponent
    have hchar : charAt (front ++ ((d :: es).map digitChar ++ rest)) (front.length : ℕ)
        = some (digitChar d) := charAt_next front _ _
    rw [hchar]
    show (if isDigit (digitChar d) = true then _ else _) = _
    rw [if_pos (isDigit_digitChar h.1), digit_digitChar h.1, hnext, hplace, ih h.2]
    congr 1
    simp
    omega

theorem crackExponent_stopped {c : UInt8} (hc : isDigit c = false) (n : ℕ) (w : UInt32) :
    crackExponent (front ++ c :: rest) n w front.length = some w := by
  induction n with
  | zero => rfl
  | succ n ih =>
    unfold crackExponent
    rw [charAt_next]
    show (if isDigit c = true then _ else _) = _
    rw [if_neg (by rw [hc]; exact Bool.false_ne_true), ih]

/-! ## The words as numbers -/

theorem toNat_pushNibble {w : UInt32} {d : ℕ} (hw : w.toNat < 2 ^ 28) (hd : d < 16) :
    (pushNibble w d).toNat = 16 * w.toNat + d := by
  have hshift : (w <<< 4).toNat = 2 ^ 4 * w.toNat := by
    rw [UInt32.toNat_shiftLeft]
    show (w.toNat <<< 4) % 2 ^ 32 = _
    rw [Nat.shiftLeft_eq]
    omega
  unfold pushNibble
  rw [UInt32.toNat_or, hshift, UInt32.toNat_ofNat', Nat.mod_eq_of_lt (by omega),
    ← Nat.two_pow_add_eq_or_of_lt hd]

theorem toNat_nibbleWord (hlen : ds.length ≤ 8) (h : ∀ d ∈ ds, d < 16) :
    (nibbleWord ds).toNat = number 16 ds := by
  induction ds using List.reverseRecOn with
  | nil => rfl
  | append_singleton ds d ih =>
    rw [List.length_append, List.length_singleton] at hlen
    rw [List.forall_mem_append] at h
    have hword := ih (by omega) h.1
    have hlt := number_lt (by decide) h.1
    have hpow : 16 ^ ds.length ≤ 16 ^ 7 := Nat.pow_le_pow_right (by decide) (by omega)
    have hpush : nibbleWord (ds ++ [d]) = pushNibble (nibbleWord ds) d := List.foldl_concat ..
    rw [hpush, toNat_pushNibble (by omega) (h.2 d (List.mem_singleton_self d)), hword, number_concat]

/-- The mask of the first `j` digits of a word. -/
def maskOf (j : ℕ) : UInt32 := UInt32.ofNat (2 ^ 32 - 2 ^ (32 - 4 * j))

theorem toNat_and_maskOf (w : UInt32) {j : ℕ} (hj : j ≤ 8) :
    (w &&& maskOf j).toNat = w.toNat / 16 ^ (8 - j) * 16 ^ (8 - j) := by
  have hpow : (16 : ℕ) ^ (8 - j) = 2 ^ (32 - 4 * j) := by
    rw [show (16 : ℕ) = 2 ^ 4 from rfl, ← pow_mul]
    congr 1
    omega
  have hmask : (maskOf j).toNat = (2 ^ (4 * j) - 1) * 2 ^ (32 - 4 * j) := by
    unfold maskOf
    rw [UInt32.toNat_ofNat', Nat.sub_mul, ← pow_add, one_mul, Nat.add_sub_cancel' (by omega)]
    refine Nat.mod_eq_of_lt ?_
    have hpos : 0 < 2 ^ (32 - 4 * j) := by positivity
    omega
  rw [UInt32.toNat_and, hmask, hpow]
  apply Nat.eq_of_testBit_eq
  intro i
  rw [Nat.testBit_and, Nat.testBit_mul_two_pow, Nat.testBit_mul_two_pow, Nat.testBit_div_two_pow,
    Nat.testBit_two_pow_sub_one]
  by_cases hi : 32 - 4 * j ≤ i
  · rw [Nat.sub_add_cancel hi]
    by_cases hlow : i - (32 - 4 * j) < 4 * j
    · simp [hi, hlow]
    · have hhigh : w.toNat.testBit i = false :=
        Nat.testBit_lt_two_pow (lt_of_lt_of_le w.toNat_lt (Nat.pow_le_pow_right (by decide) (by omega)))
      simp [hhigh]
  · simp [hi]

theorem nibbleWord_and_maskOf (hlen : ds.length = 8) (h : ∀ d ∈ ds, d < 16) {j : ℕ} (hj : j ≤ 8) :
    nibbleWord ds &&& maskOf j = nibbleWord (cut j ds) := by
  rw [← UInt32.toNat_inj, toNat_and_maskOf _ hj, toNat_nibbleWord (by omega) h,
    toNat_nibbleWord (by rw [length_cut]; omega) (cut_lt (by decide) h j),
    number_cut (by decide) h j, hlen]

/-- The masks of the positive k-factors. -/
theorem pkmask_eq {k : ℕ} (h1 : 1 ≤ k) (h17 : k ≤ 17) :
    pkmask2.getD k 0 = maskOf (min (k - 1) 8) ∧ pkmask3.getD k 0 = maskOf (k - 9) := by
  interval_cases k <;> decide

/-! ## The words of a text -/

theorem exponentWord_eq (expNegative : Bool) (hlen : es.length = 2 ∨ es.length = 3)
    (h : ∀ d ∈ es, d < 10) :
    exponentWord (front ++ exponentText expNegative es) front.length
      = some ((if expNegative then (0x40000000 : UInt32) else 0) ||| (nibbleWord es <<< 16)) := by
  have hword : ∀ sign, crackExponent (front ++ 0x65 :: sign :: (es.map digitChar ++ [0])) 3 0
      (front.length + 2) = some (nibbleWord es) := by
    intro sign
    have hfront : front ++ 0x65 :: sign :: (es.map digitChar ++ [0])
        = (front ++ [0x65, sign]) ++ (es.map digitChar ++ [0]) := by simp
    have hplace : front.length + 2 = (front ++ [0x65, sign]).length := by simp
    rw [hfront, hplace]
    rcases hlen with hlen | hlen
    · have hthree : 3 = es.length + 1 := by omega
      rw [hthree, crackExponent_digits h 1]
      have hend : (front ++ [0x65, sign]) ++ (es.map digitChar ++ [0])
          = ((front ++ [0x65, sign]) ++ es.map digitChar) ++ (0 :: []) := by simp
      have hlast : (front ++ [0x65, sign]).length + es.length
          = ((front ++ [0x65, sign]) ++ es.map digitChar).length := by
        simp only [List.length_append, List.length_map]
      rw [hend, hlast, crackExponent_stopped (by decide)]
      rfl
    · have hthree : 3 = es.length + 0 := by omega
      rw [hthree, crackExponent_digits h 0]
      rfl
  have hmark : charAt (front ++ exponentText expNegative es) front.length = some 0x65 :=
    charAt_next front _ _
  have hsign : charAt (front ++ exponentText expNegative es) (front.length + 1 : ℕ)
      = some (if expNegative then 0x2d else 0x2b) := charAt_append front _ 1
  unfold exponentWord
  rw [hmark, Option.bind_eq_bind, Option.bind_some, if_pos (Or.inl rfl), hsign, Option.bind_eq_bind,
    Option.bind_some]
  dsimp only
  cases expNegative with
  | true =>
    obtain ⟨e, rest, hes⟩ : ∃ e rest, es = e :: rest := by
      cases es with
      | nil => simp at hlen
      | cons e rest => exact ⟨e, rest, rfl⟩
    have he : digitChar e ≠ 0x2b := by
      intro heq
      have hdigit := isDigit_digitChar (h e (by rw [hes]; exact List.mem_cons_self))
      rw [heq] at hdigit
      exact absurd hdigit (by decide)
    have hfirst : charAt (front ++ exponentText true es) (front.length + 2 : ℕ)
        = some (digitChar e) := by
      rw [hes]
      exact charAt_append front _ 2
    show (charAt (front ++ exponentText true es) (front.length + 2 : ℕ)).bind _ = _
    rw [hfirst]
    show (crackExponent (front ++ exponentText true es) 3 0
      (if digitChar e = 0x2b then front.length + 2 + 1 else front.length + 2)).bind _ = _
    rw [if_neg he]
    have hcrack := hword 0x2d
    unfold exponentText
    simp only [if_true]
    rw [hcrack]
    rfl
  | false =>
    show (charAt (front ++ exponentText false es) (front.length + 1 : ℕ)).bind _ = _
    rw [hsign]
    show (crackExponent (front ++ exponentText false es) 3 0 (front.length + 1 + 1)).bind _ = _
    have hcrack := hword 0x2b
    unfold exponentText
    simp only [Bool.false_eq_true, if_false]
    rw [hcrack]
    rfl

/-- The number of digits after the point that a k-factor keeps by the masks. -/
def keptAfter (k : ℤ) : ℕ := if 1 ≤ k then (min k 17).toNat - 1 else 16

/-- The masks keep the first digits. -/
theorem mask_eq (hlen : ds.length = 16) (h : ∀ d ∈ ds, d < 16) {k : ℤ} (hk : 1 ≤ k) :
    nibbleWord (ds.take 8) &&& pkmask2.getD (if k ≤ 17 then k.toNat else 17) 0
        = nibbleWord ((cut (keptAfter k) ds).take 8)
      ∧ nibbleWord (ds.drop 8) &&& pkmask3.getD (if k ≤ 17 then k.toNat else 17) 0
        = nibbleWord ((cut (keptAfter k) ds).drop 8) := by
  obtain ⟨j, hj, h1, h17⟩ : ∃ j : ℕ, (if k ≤ 17 then k.toNat else 17) = j ∧ 1 ≤ j ∧ j ≤ 17 :=
    ⟨_, rfl, by split_ifs <;> omega, by split_ifs <;> omega⟩
  have hkept : keptAfter k = j - 1 := by
    unfold keptAfter
    rw [if_pos hk, ← hj]
    split_ifs <;> omega
  have hmask := pkmask_eq h1 h17
  have htake : (ds.take 8).length = 8 := by rw [List.length_take]; omega
  have hdrop : (ds.drop 8).length = 8 := by rw [List.length_drop]; omega
  rw [hj, hmask.1, hmask.2, hkept, take_cut, drop_cut,
    nibbleWord_and_maskOf htake (fun d hd => h d (List.mem_of_mem_take hd)) (min_le_right _ _),
    nibbleWord_and_maskOf hdrop (fun d hd => h d (List.mem_of_mem_drop hd)) (by omega)]
  refine ⟨?_, by rw [show j - 9 = j - 1 - 8 by omega]⟩
  rcases Nat.le_total (j - 1) 8 with hle | hle
  · rw [min_eq_left hle]
  · rw [min_eq_right hle, cut_all htake.le, cut_all (by omega)]

/-- The first `i` of sixteen digits are read, the others are zeros. -/
theorem crackText_eq {c : UInt8} {i : ℕ} {exponent : UInt32} (dw1 : UInt32) (hlen : ds.length = 16)
    (hi : i ≤ 16) (h : ∀ d ∈ ds, d < 10) (hc : isDigit c = false)
    (he : exponentWord (front ++ ((ds.take i).map digitChar ++ c :: rest)) (front.length + i)
      = some exponent) (k : ℤ) :
    crackText (front ++ ((ds.take i).map digitChar ++ c :: rest)) front.length dw1 k
      = some ⟨dw1 ||| exponent, nibbleWord ((cut (keptAfter k) (cut i ds)).take 8),
          nibbleWord ((cut (keptAfter k) (cut i ds)).drop 8)⟩ := by
  obtain ⟨as, has, hasl⟩ : ∃ as, ds.take i = as ∧ as.length = i :=
    ⟨_, rfl, by rw [List.length_take]; omega⟩
  have hcut : cut i ds = as ++ List.replicate (16 - i) 0 := by
    unfold cut
    rw [has, hlen]
  have has10 : ∀ d ∈ as, d < 10 := fun d hd => h d (List.mem_of_mem_take (has ▸ hd))
  rw [has] at he ⊢
  have hsplit : front ++ (as.map digitChar ++ c :: rest)
      = (front ++ (as.take 8).map digitChar) ++ ((as.drop 8).map digitChar ++ c :: rest) := by
    rw [List.append_assoc, ← List.append_assoc ((as.take 8).map digitChar), ← List.map_append,
      List.take_append_drop]
  have hplace : front.length + min 8 as.length = (front ++ (as.take 8).map digitChar).length := by
    rw [List.length_append, List.length_map, List.length_take]
  have htwo := crackDigits_eq front rest has10 hc 8 0
  have hdrop10 : ∀ d ∈ as.drop 8, d < 10 := fun d hd => has10 d (List.mem_of_mem_drop hd)
  have hthree := crackDigits_eq (front ++ (as.take 8).map digitChar) rest
    hdrop10 hc 8 0
  rw [← hsplit, ← hplace] at hthree
  have htake : (cut i ds).take 8 = as.take 8 ++ List.replicate (8 - as.length) 0 := by
    rw [hcut, List.take_append, List.take_replicate]
    congr 2
    omega
  have hdrop : (cut i ds).drop 8
      = (as.drop 8).take 8 ++ List.replicate (8 - (as.drop 8).length) 0 := by
    rw [hcut, List.drop_append, List.drop_replicate,
      List.take_of_length_le (by rw [List.length_drop]; omega), List.length_drop]
    congr 2
    omega
  have hend : front.length + min 8 as.length + min 8 (as.drop 8).length = front.length + i := by
    rw [List.length_drop]
    omega
  unfold crackText
  rw [htwo, Option.bind_eq_bind, Option.bind_some, hthree, Option.bind_eq_bind, Option.bind_some,
    hend]
  dsimp only
  rw [he, Option.bind_some, ← htake, ← hdrop]
  by_cases hk : 1 ≤ k
  · have hmask := mask_eq ((length_cut i ds).trans hlen)
      (fun d hd => lt_trans (cut_lt (by decide) h i d hd) (by decide)) hk
    rw [if_pos hk, if_pos hk, ← hmask.1, ← hmask.2]
    rfl
  · rw [if_neg hk, if_neg hk]
    have hall : cut (keptAfter k) (cut i ds) = cut i ds := by
      unfold keptAfter
      rw [if_neg hk, cut_all (by rw [length_cut]; omega)]
    rw [hall]
    rfl

/-! ## What the words say -/

section
variable (negative expNegative : Bool) {lead : ℕ}

theorem toNat_dw1 (hlead : lead < 10) (hlen : es.length ≤ 3) (h : ∀ d ∈ es, d < 10) (ds : List ℕ) :
    (packed negative lead ds expNegative es).dw1.toNat
      = (if negative then 2 ^ 31 else 0) + ((if expNegative then 2 ^ 30 else 0)
          + (number 16 es * 2 ^ 16 + lead)) := by
  have hes : ∀ d ∈ es, d < 16 := fun d hd => lt_trans (h d hd) (by decide)
  have hlt := number_lt (by decide) hes
  have hpow : 16 ^ es.length ≤ 16 ^ 3 := Nat.pow_le_pow_right (by decide) hlen
  have hword : (nibbleWord es <<< 16).toNat = number 16 es * 2 ^ 16 := by
    rw [UInt32.toNat_shiftLeft, toNat_nibbleWord (by omega) hes]
    show (number 16 es <<< 16) % 2 ^ 32 = _
    rw [Nat.shiftLeft_eq]
    omega
  have hleadWord : (UInt32.ofNat lead).toNat = lead := by
    rw [UInt32.toNat_ofNat']
    omega
  have hsign : (if negative then (0x80000000 : UInt32) else 0).toNat
      = 2 ^ 31 * (if negative then 1 else 0) := by cases negative <;> rfl
  have hexpSign : (if expNegative then (0x40000000 : UInt32) else 0).toNat
      = 2 ^ 30 * (if expNegative then 1 else 0) := by cases expNegative <;> rfl
  have hsort : (packed negative lead ds expNegative es).dw1
      = (if negative then (0x80000000 : UInt32) else 0) |||
        ((if expNegative then (0x40000000 : UInt32) else 0) |||
          ((nibbleWord es <<< 16) ||| UInt32.ofNat lead)) := by
    unfold packed
    dsimp only
    rw [UInt32.or_assoc, UInt32.or_comm (UInt32.ofNat lead), UInt32.or_assoc]
  have hlow : 2 ^ 16 * number 16 es ||| lead = 2 ^ 16 * number 16 es + lead :=
    (Nat.two_pow_add_eq_or_of_lt (by omega) _).symm
  have hexp : ∀ b ≤ 1, 2 ^ 30 * b ||| (2 ^ 16 * number 16 es + lead)
      = 2 ^ 30 * b + (2 ^ 16 * number 16 es + lead) := fun b _ =>
    (Nat.two_pow_add_eq_or_of_lt (by omega) _).symm
  have hhigh : ∀ a b, b ≤ 1 → 2 ^ 31 * a ||| (2 ^ 30 * b + (2 ^ 16 * number 16 es + lead))
      = 2 ^ 31 * a + (2 ^ 30 * b + (2 ^ 16 * number 16 es + lead)) := fun a b hb =>
    (Nat.two_pow_add_eq_or_of_lt (by omega) _).symm
  rw [hsort, UInt32.toNat_or, UInt32.toNat_or, UInt32.toNat_or, hword, hleadWord, hsign, hexpSign,
    Nat.mul_comm (number 16 es), hlow, hexp _ (by split_ifs <;> decide),
    hhigh _ _ (by split_ifs <;> decide)]
  split_ifs <;> omega

theorem digits_packed (hlead : lead < 10) (hlen : es.length ≤ 3) (h : ∀ d ∈ es, d < 10)
    (hds : ds.length = 16) (hd : ∀ d ∈ ds, d < 10) :
    (packed negative lead ds expNegative es).digits = lead :: ds := by
  have hlow : (packed negative lead ds expNegative es).dw1.toNat % 16 = lead := by
    rw [toNat_dw1 _ _ hlead hlen h]
    split_ifs <;> omega
  have hword : ∀ l : List ℕ, l.length = 8 → (∀ d ∈ l, d < 10) →
      digitsOf 16 8 (nibbleWord l).toNat = l := by
    intro l hl h10
    have h16 : ∀ d ∈ l, d < 16 := fun d hd => lt_trans (h10 d hd) (by decide)
    have hback := digitsOf_number (b := 16) (by decide) h16
    rw [toNat_nibbleWord hl.le h16]
    rwa [hl] at hback
  unfold Packed.digits
  rw [hlow]
  unfold packed
  dsimp only
  rw [hword _ (by rw [List.length_take]; omega) fun d h => hd d (List.mem_of_mem_take h),
    hword _ (by rw [List.length_drop]; omega) fun d h => hd d (List.mem_of_mem_drop h),
    List.take_append_drop]

/-- The digits of the exponent, with a zero before them where there are two. -/
theorem expDigits_packed (hlead : lead < 10) (hlen : es.length ≤ 3) (h : ∀ d ∈ es, d < 10)
    (ds : List ℕ) :
    (packed negative lead ds expNegative es).expDigits = List.replicate (3 - es.length) 0 ++ es := by
  have hmiddle : (packed negative lead ds expNegative es).dw1.toNat / 2 ^ 16 % 2 ^ 12
      = number 16 (List.replicate (3 - es.length) 0 ++ es) := by
    have hlt := number_lt (b := 16) (by decide) fun d hd => lt_trans (h d hd) (by decide)
    have hpow : 16 ^ es.length ≤ 16 ^ 3 := Nat.pow_le_pow_right (by decide) hlen
    rw [toNat_dw1 _ _ hlead hlen h, number_append, number_zeros]
    split_ifs <;> omega
  have hdigits : ∀ d ∈ List.replicate (3 - es.length) 0 ++ es, d < 16 := by
    rw [List.forall_mem_append]
    refine ⟨fun d hd => ?_, fun d hd => lt_trans (h d hd) (by decide)⟩
    rw [List.eq_of_mem_replicate hd]
    decide
  have hback := digitsOf_number (b := 16) (by decide) hdigits
  rw [List.length_append, List.length_replicate, Nat.sub_add_cancel hlen] at hback
  unfold Packed.expDigits
  rw [hmiddle, hback]

theorem exponent_packed (hlead : lead < 10) (hlen : es.length ≤ 3) (h : ∀ d ∈ es, d < 10)
    (ds : List ℕ) :
    (packed negative lead ds expNegative es).exponent
      = if expNegative then -(number 10 es : ℤ) else number 10 es := by
  have hbit : (packed negative lead ds expNegative es).dw1.toNat / 2 ^ 30 % 2
      = if expNegative then 1 else 0 := by
    have hlt := number_lt (b := 16) (by decide) fun d hd => lt_trans (h d hd) (by decide)
    have hpow : 16 ^ es.length ≤ 16 ^ 3 := Nat.pow_le_pow_right (by decide) hlen
    rw [toNat_dw1 _ _ hlead hlen h]
    split_ifs <;> omega
  unfold Packed.exponent
  rw [hbit, expDigits_packed _ _ hlead hlen h, number_append, number_zeros, Nat.zero_mul, Nat.zero_add]
  cases expNegative <;> rfl

end

end

end CuteMac.Fpu
